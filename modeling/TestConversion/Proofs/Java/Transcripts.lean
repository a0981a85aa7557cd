import TestConversion.Proofs.Java.Layout
import TestConversion.Proofs.Java.Spellings

/-!
# Parts that stay

A part of a tree that an edit elsewhere leaves alone has the same nodes before and after it, and
these read the same, but all that stands behind the edit is moved. Nothing that is read from such a
part tells where it stands, so that it is read in the same way.

* `Kept`: the same nodes in two texts.
* `Kept.spellings`: expressions are spelled in the same way.
* `Kept.calls_eq`, `Kept.summaryOf_eq`: calls and methods are recorded in the same way.
-/

namespace TestConversion.Java

open Text Syntax Code

/-! ## Transcripts -/

mutual

/-- A tree with the texts of all its nodes, without comments and positions. -/
def transcript (source : List Char) : Tree → Outline
  | .node l cs =>
    .node l.kind l.named l.field (some (nodeText source (.node l cs))) (transcriptList source cs)

def transcriptList (source : List Char) : List Tree → List Outline
  | [] => []
  | c :: cs =>
    if c.extra then transcriptList source cs else transcript source c :: transcriptList source cs

end

theorem transcriptList_eq (source : List Char) (cs : List Tree) :
    transcriptList source cs = (cs.filter fun c => !c.extra).map (transcript source) := by
  induction cs with
  | nil => rfl
  | cons c cs ih =>
    rw [transcriptList, ih, List.filter_cons]
    cases c.extra <;> rfl

theorem transcript_eq (source : List Char) (t : Tree) :
    transcript source t = .node t.kind t.named t.field (some (nodeText source t))
      ((keptChildren t).map (transcript source)) := by
  cases t with
  | node l cs =>
    rw [transcript, transcriptList_eq]
    rfl

/-- Valid trees of two texts with the same nodes, which read the same. -/
structure Kept (source source' : List Char) (t t' : Tree) : Prop where
  valid : grammar.Valid t
  valid' : grammar.Valid t'
  transcript_eq : transcript source t = transcript source' t'

namespace Kept

variable {source source' : List Char} {t t' : Tree}

theorem node_eq (h : Kept source source' t t') :
    t.kind = t'.kind ∧ t.named = t'.named ∧ t.field = t'.field ∧
      nodeText source t = nodeText source' t' ∧
        (keptChildren t).map (transcript source) = (keptChildren t').map (transcript source') := by
  have heq := h.transcript_eq
  rw [Java.transcript_eq, Java.transcript_eq, Outline.node.injEq, Option.some.injEq] at heq
  exact heq

theorem nodeText (h : Kept source source' t t') : nodeText source t = nodeText source' t' :=
  h.node_eq.2.2.2.1

theorem kept (h : Kept source source' t t') :
    List.Forall₂ (Kept source source') (keptChildren t) (keptChildren t') := by
  have hmap := h.node_eq.2.2.2.2
  rw [← List.forall₂_eq_eq_eq, List.forall₂_map_left_iff, List.forall₂_map_right_iff] at hmap
  refine forall₂_of_mem hmap fun c hc c' hc' heq => ?_
  exact ⟨h.valid.of_child (List.mem_of_mem_filter hc),
    h.valid'.of_child (List.mem_of_mem_filter hc'), heq⟩

theorem alike (h : Kept source source' t t') : Alike source source' t t' := by
  refine ⟨h.valid, h.valid', ?_⟩
  induction t using Tree.induction generalizing t' with
  | node t ih =>
    obtain ⟨hkind, hnamed, hfield, htext, -⟩ := h.node_eq
    have hbelow : (keptChildren t).map (outline source) =
        (keptChildren t').map (outline source') :=
      map_eq_of_forall₂
        (forall₂_of_mem h.kept (S := fun c c' => outline source c = outline source' c')
          fun c hc _ _ hcc => ih c (List.mem_of_mem_filter hc) hcc)
        fun _ _ heq => heq
    rw [outline_eq, outline_eq, hbelow, hkind, hnamed, hfield, tokenText, tokenText, htext, hkind]

/-- What passes from corresponding children to their parents holds of the trees. -/
@[elab_as_elim]
theorem induction {motive : ∀ t t', Kept source source' t t' → Prop}
    (step : ∀ t t' (h : Kept source source' t t'),
      List.Forall₂ (fun c c' => ∃ h : Kept source source' c c', motive c c' h)
        (keptChildren t) (keptChildren t') → motive t t' h)
    (h : Kept source source' t t') : motive t t' h := by
  induction t using Tree.induction generalizing t' with
  | node t ih =>
    refine step _ _ h (forall₂_of_mem h.kept fun c hc c' _ hcc => ?_)
    exact ⟨hcc, ih c (List.mem_of_mem_filter hc) hcc⟩

/-! ## Expressions -/

theorem textSpelling_eq (h : Kept source source' t t') :
    textSpelling source t = textSpelling source' t' := by
  rw [textSpelling, textSpelling, h.alike.reference?_lower, h.nodeText]

theorem pieceOf_eq (h : Kept source source' t t')
    (hs : spellingsOf (lower source t) = spellingsOf (lower source' t')) :
    pieceOf source t = pieceOf source' t' := by
  rw [pieceOf, pieceOf, h.alike.named, h.nodeText, hs]

/-- Corresponding trees are spelled in the same way. -/
theorem spellings (h : Kept source source' t t') :
    spellingsOf (lower source t) = spellingsOf (lower source' t') := by
  induction h using Kept.induction with
  | step t t' h ih =>
    have hsequence : ((keptChildren t).flatMap fun c => spellingsOf (lower source c)) =
        (keptChildren t').flatMap fun c => spellingsOf (lower source' c) :=
      flatMap_eq_of_forall₂ ih fun _ _ hcc => hcc.2
    have hpieces : (keptChildren t).map (pieceOf source) =
        (keptChildren t').map (pieceOf source') :=
      map_eq_of_forall₂ ih fun _ _ hcc => hcc.1.pieceOf_eq hcc.2
    rw [spellingsOf_lower h.valid.licenses, spellingsOf_lower h.valid'.licenses, h.alike.named,
      h.alike.kind, h.nodeText, hsequence, hpieces, h.textSpelling_eq]

/-! ## Calls and methods -/

theorem childIn (h : Kept source source' t t') (field : String) :
    Option.Rel (Kept source source') (t.childIn field) (t'.childIn field) := by
  rw [childIn_eq h.valid, childIn_eq h.valid']
  refine rel_head? (List.rel_filter ?_ h.kept)
  intro c c' hcc
  show (c.field == some field) = true ↔ (c'.field == some field) = true
  rw [hcc.alike.field]

theorem callOf_eq (h : Kept source source' t t') (hk : t.kind = "method_invocation") :
    callOf source t = callOf source' t' := by
  obtain ⟨hmethod, hqualifier, -⟩ := h.alike.callOf_matches hk
  have harguments : (callOf source t).arguments = (callOf source' t').arguments :=
    congrArg (·.getD []) (map_eq_of_rel (h.childIn "arguments") fun _ _ _ hcc => hcc.spellings)
  rw [callOf, callOf, Call.mk.injEq]
  exact ⟨hmethod, hqualifier, harguments⟩

theorem relates_kept (source source' : List Char) :
    Relates source source' (Kept source source') (· = ·) where
  alike h := h.alike
  kept h := h.kept
  call h hk := h.callOf_eq hk

theorem calls_eq (h : Kept source source' t t') (mode : Mode) :
    (lower source t).callsWithin mode = (lower source' t').callsWithin mode :=
  List.forall₂_eq_eq_eq ▸ (relates_kept source source').calls h mode

/-- A method that stays is read, and recorded in the same way. -/
theorem exists_method (h : Kept source source' t t') (hk : t.kind = "method_declaration") :
    ∃ m m', methodOf? source t = some m ∧ methodOf? source' t' = some m' ∧
      summaryOf m = summaryOf m' := by
  obtain ⟨m, hm⟩ := methodOf?_isSome source (method_name_isSome h.valid.licenses hk)
  obtain ⟨m', hm'⟩ := methodOf?_isSome source'
    (method_name_isSome h.valid'.licenses (h.alike.kind ▸ hk))
  obtain ⟨hname, hannotations, -⟩ := h.alike.summaryOf_matches hk hm hm'
  have hcalls : callsOf m = callsOf m' := by
    rw [callsOf_eq_getD hm, callsOf_eq_getD hm']
    exact congrArg (·.getD []) (map_eq_of_rel (h.childIn "body") fun _ _ _ hb => hb.calls_eq .record)
  refine ⟨m, m', hm, hm', ?_⟩
  rw [summaryOf, summaryOf, MethodSummary.mk.injEq]
  exact ⟨hname, hannotations, hcalls⟩

end Kept

end TestConversion.Java
