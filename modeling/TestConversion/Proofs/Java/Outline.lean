import TestConversion.Proofs.Java.Admission
import TestConversion.Proofs.Java.Forms
import TestConversion.Proofs.Syntax.Fields
import Mathlib.Data.List.Forall2

/-!
# Trees without their layout

The outline of a tree has its nodes with their kinds and fields and the texts of its tokens, but no
comments and no positions. Trees with one outline may have comments at different places and stand in
different texts. They correspond node by node, and so they are admitted or turned down together.

* `outline`, `Alike`: outlines, and valid trees that have the same one.
* `Alike.induction`: an induction along two such trees.
* `Alike.filter_children`, `Alike.childIn`: what is chosen among the children corresponds.
* `Alike.nodeText_childIn`: the names of declarations, calls and fields are the same.
* `Alike.firstForbidden_eq_none`: the trees are admitted together.
-/

namespace TestConversion.Java

open Text Syntax Code

/-! ## Outlines -/

/-- A tree without comments and positions. Only tokens have texts. -/
inductive Outline where
  | node (kind : String) (named : Bool) (field : Option String) (text : Option String)
      (children : List Outline)

namespace Outline

mutual

def decEq : (o p : Outline) → Decidable (o = p)
  | .node k n f s os, .node k' n' f' s' ps =>
    match decEqList os ps with
    | isTrue h => decidable_of_iff (k = k' ∧ n = n' ∧ f = f' ∧ s = s') (by simp [h])
    | isFalse h => isFalse (by simp [h])

def decEqList : (os ps : List Outline) → Decidable (os = ps)
  | [], [] => isTrue rfl
  | [], _ :: _ => isFalse (by simp)
  | _ :: _, [] => isFalse (by simp)
  | o :: os, p :: ps =>
    match decEq o p, decEqList os ps with
    | isTrue h, isTrue hs => isTrue (by rw [h, hs])
    | isFalse h, _ => isFalse (by simp [h])
    | _, isFalse hs => isFalse (by simp [hs])

end

instance : DecidableEq Outline := decEq

end Outline

/-- The text of a token. -/
def tokenText (source : List Char) (t : Tree) : Option String :=
  if grammar.isLeaf t.kind then some (nodeText source t) else none

mutual

def outline (source : List Char) : Tree → Outline
  | .node l cs =>
    .node l.kind l.named l.field (tokenText source (.node l cs)) (outlineList source cs)

def outlineList (source : List Char) : List Tree → List Outline
  | [] => []
  | c :: cs =>
    if c.extra then outlineList source cs else outline source c :: outlineList source cs

end

theorem outlineList_eq (source : List Char) (cs : List Tree) :
    outlineList source cs = (cs.filter fun c => !c.extra).map (outline source) := by
  induction cs with
  | nil => rfl
  | cons c cs ih =>
    rw [outlineList, ih, List.filter_cons]
    cases c.extra <;> rfl

theorem outline_eq (source : List Char) (t : Tree) :
    outline source t = .node t.kind t.named t.field (tokenText source t)
      ((keptChildren t).map (outline source)) := by
  cases t with
  | node l cs =>
    rw [outline, outlineList_eq]
    rfl

/-! ## Lists in step -/

section Lists

variable {α β : Type} {R S : α → β → Prop} {xs : List α} {ys : List β}

theorem forall₂_of_mem (h : List.Forall₂ R xs ys) (hS : ∀ x ∈ xs, ∀ y ∈ ys, R x y → S x y) :
    List.Forall₂ S xs ys := by
  obtain ⟨hlen, hzip⟩ := List.forall₂_iff_zip.mp h
  refine List.forall₂_iff_zip.mpr ⟨hlen, fun hmem => ?_⟩
  obtain ⟨hx, hy⟩ := List.of_mem_zip hmem
  exact hS _ hx _ hy (hzip hmem)

theorem exists_of_forall₂ (h : List.Forall₂ R xs ys) {y : β} (hy : y ∈ ys) :
    ∃ x ∈ xs, R x y := by
  induction h with
  | nil => cases hy
  | @cons x _ xs _ hxy _ ih =>
    rcases List.mem_cons.mp hy with rfl | hy
    · exact ⟨x, List.mem_cons_self, hxy⟩
    · obtain ⟨z, hz, h⟩ := ih hy
      exact ⟨z, List.mem_cons_of_mem x hz, h⟩

theorem rel_head? (h : List.Forall₂ R xs ys) : Option.Rel R xs.head? ys.head? := by
  cases h with
  | nil => exact .none
  | cons h _ => exact .some h

theorem flatMap_filter {p : α → Bool} {f : α → List β} :
    (xs.filter p).flatMap f = xs.flatMap fun x => if p x then f x else [] := by
  induction xs with
  | nil => rfl
  | cons x xs ih =>
    rw [List.filter_cons, List.flatMap_cons, ← ih]
    cases p x <;> rfl

theorem map_eq_of_forall₂ {γ : Type} {f : α → γ} {g : β → γ} (h : List.Forall₂ R xs ys)
    (hfg : ∀ x y, R x y → f x = g y) : xs.map f = ys.map g := by
  rw [← List.forall₂_eq_eq_eq, List.forall₂_map_left_iff, List.forall₂_map_right_iff]
  exact h.imp hfg

theorem flatMap_eq_of_forall₂ {γ : Type} {f : α → List γ} {g : β → List γ}
    (h : List.Forall₂ R xs ys) (hfg : ∀ x y, R x y → f x = g y) :
    xs.flatMap f = ys.flatMap g := by
  rw [List.flatMap_def, List.flatMap_def, map_eq_of_forall₂ h hfg]

theorem map_eq_of_rel {γ : Type} {f : α → γ} {g : β → γ} {x : Option α} {y : Option β}
    (h : Option.Rel R x y) (hfg : ∀ a b, x = some a → R a b → f a = g b) :
    x.map f = y.map g := by
  cases h with
  | none => rfl
  | some h => exact congrArg some (hfg _ _ rfl h)

theorem forall₂_getD_of_rel {γ δ : Type} {S : γ → δ → Prop} {f : α → List γ} {g : β → List δ}
    {x : Option α} {y : Option β} (h : Option.Rel R x y)
    (hfg : ∀ a b, R a b → List.Forall₂ S (f a) (g b)) :
    List.Forall₂ S ((x.map f).getD []) ((y.map g).getD []) := by
  cases h with
  | none => exact .nil
  | some h => exact hfg _ _ h

end Lists

/-! ## Trees with the same outline -/

/-- Valid trees of two texts that are the same apart from comments and positions. -/
structure Alike (source source' : List Char) (t t' : Tree) : Prop where
  valid : grammar.Valid t
  valid' : grammar.Valid t'
  outline_eq : outline source t = outline source' t'

namespace Alike

variable {source source' : List Char} {t t' : Tree}

theorem symm (h : Alike source source' t t') : Alike source' source t' t :=
  ⟨h.valid', h.valid, h.outline_eq.symm⟩

theorem node_eq (h : Alike source source' t t') :
    t.kind = t'.kind ∧ t.named = t'.named ∧ t.field = t'.field ∧
      tokenText source t = tokenText source' t' ∧
        (keptChildren t).map (outline source) = (keptChildren t').map (outline source') := by
  have heq := h.outline_eq
  rw [Java.outline_eq, Java.outline_eq, Outline.node.injEq] at heq
  exact heq

theorem kind (h : Alike source source' t t') : t.kind = t'.kind := h.node_eq.1

theorem named (h : Alike source source' t t') : t.named = t'.named := h.node_eq.2.1

theorem field (h : Alike source source' t t') : t.field = t'.field := h.node_eq.2.2.1

theorem nodeText (h : Alike source source' t t') (hl : grammar.isLeaf t.kind = true) :
    nodeText source t = nodeText source' t' := by
  have htext := h.node_eq.2.2.2.1
  rw [tokenText, tokenText, ← h.kind, hl, if_pos rfl, if_pos rfl] at htext
  exact Option.some.inj htext

/-- The children correspond, comments left out. -/
theorem kept (h : Alike source source' t t') :
    List.Forall₂ (Alike source source') (keptChildren t) (keptChildren t') := by
  have hmap := h.node_eq.2.2.2.2
  rw [← List.forall₂_eq_eq_eq, List.forall₂_map_left_iff, List.forall₂_map_right_iff] at hmap
  refine forall₂_of_mem hmap fun c hc c' hc' heq => ?_
  exact ⟨h.valid.of_child (List.mem_of_mem_filter hc),
    h.valid'.of_child (List.mem_of_mem_filter hc'), heq⟩

/-- What passes from corresponding children to their parents holds of the trees. -/
@[elab_as_elim]
theorem induction {motive : ∀ t t', Alike source source' t t' → Prop}
    (step : ∀ t t' (h : Alike source source' t t'),
      List.Forall₂ (fun c c' => ∃ h : Alike source source' c c', motive c c' h)
        (keptChildren t) (keptChildren t') → motive t t' h)
    (h : Alike source source' t t') : motive t t' h := by
  induction t using Tree.induction generalizing t' with
  | node t ih =>
    refine step _ _ h (forall₂_of_mem h.kept fun c hc c' _ hcc => ?_)
    exact ⟨hcc, ih c (List.mem_of_mem_filter hc) hcc⟩

end Alike

/-! ## Comments -/

structure IsComment (t : Tree) : Prop where
  named : t.named = true
  kind : t.kind = "line_comment" ∨ t.kind = "block_comment"
  children : t.children = []

theorem isComment_of_extra {t : Tree} (h : grammar.Licenses t) (hx : t.extra = true) :
    IsComment t := by
  obtain ⟨hn, -, hk, hcs⟩ := h.named_of_extra hx
  have hextras : grammar.extras = ["line_comment", "block_comment"] := rfl
  rw [hextras, List.mem_pair] at hk
  exact ⟨hn, hk, hcs⟩

/-- A choice of children that takes no comment sees none. -/
theorem filter_keptChildren {t : Tree} (h : grammar.Valid t) {p : Tree → Bool}
    (hx : ∀ c, IsComment c → p c = false) :
    (keptChildren t).filter p = t.children.filter p := by
  rw [keptChildren, List.filter_filter]
  refine List.filter_congr fun c hc => ?_
  cases hextra : c.extra with
  | false => simp
  | true =>
    rw [hx c (isComment_of_extra (h.of_child hc).licenses hextra)]
    rfl

/-- A comment that yields nothing may be left out. -/
theorem flatMap_keptChildren {β : Type} {t : Tree} (h : grammar.Valid t) {f : Tree → List β}
    (hx : ∀ c, IsComment c → f c = []) :
    (keptChildren t).flatMap f = t.children.flatMap f := by
  rw [keptChildren, flatMap_filter]
  refine List.flatMap_congr fun c hc => ?_
  cases hextra : c.extra with
  | false => rfl
  | true => exact (hx c (isComment_of_extra (h.of_child hc).licenses hextra)).symm

namespace Alike

variable {source source' : List Char} {t t' : Tree}

/-- Chosen children correspond, if the choice takes no comment and goes by what outlines tell. -/
theorem filter_children (h : Alike source source' t t') {p : Tree → Bool}
    (hx : ∀ c, IsComment c → p c = false)
    (hp : ∀ c c', Alike source source' c c' → p c = p c') :
    List.Forall₂ (Alike source source') (t.children.filter p) (t'.children.filter p) := by
  rw [← filter_keptChildren h.valid hx, ← filter_keptChildren h.valid' hx]
  refine List.rel_filter ?_ h.kept
  intro c c' hcc
  show p c = true ↔ p c' = true
  rw [hp c c' hcc]

/-- The named children of some kind. -/
theorem filter_namedChildren (h : Alike source source' t t') {kind : String}
    (hl : kind ≠ "line_comment") (hb : kind ≠ "block_comment") :
    List.Forall₂ (Alike source source') (t.namedChildren.filter fun c => c.kind == kind)
      (t'.namedChildren.filter fun c => c.kind == kind) := by
  rw [Tree.namedChildren, Tree.namedChildren, List.filter_filter, List.filter_filter]
  refine h.filter_children (fun c hc => ?_) fun c c' hcc => by rw [hcc.kind, hcc.named]
  rcases hc.kind with hk | hk
  · simp [hk, hl.symm]
  · simp [hk, hb.symm]

theorem fillers (h : Alike source source' t t') (field : String) :
    List.Forall₂ (Alike source source') (fillers field t) (Java.fillers field t') := by
  refine List.rel_filter ?_ h.kept
  intro c c' hcc
  show (c.field == some field) = true ↔ (c'.field == some field) = true
  rw [hcc.field]

theorem childIn (h : Alike source source' t t') (field : String) :
    Option.Rel (Alike source source') (t.childIn field) (t'.childIn field) := by
  rw [childIn_eq h.valid, childIn_eq h.valid']
  exact rel_head? (h.fillers field)

end Alike

/-! ## Names -/

/-- The fields in which names stand whose texts are read. -/
def nameFields : List (String × String) := [
  ("class_declaration", "name"), ("method_declaration", "name"), ("method_invocation", "name"),
  ("field_access", "field")]

/-- These names are tokens. -/
theorem kind_of_name {t c : Tree} {field : String} (h : grammar.Valid t)
    (hf : (t.kind, field) ∈ nameFields) (hc : t.childIn field = some c) :
    nameKinds.contains c.kind = true ∧ grammar.isLeaf c.kind = true := by
  let isNameToken (k : String) : Bool := nameKinds.contains k && grammar.isLeaf k
  have hall : nameFields.all (fun x => grammar.isBranch x.1 && (grammar.rule? x.1).any fun r =>
      r.fillsWith x.2 isNameToken (grammar.fillsWith x.2 isNameToken 8) none none) = true := by
    decide +kernel
  have hrule := List.all_eq_true.mp hall _ hf
  rw [Bool.and_eq_true] at hrule
  rw [childIn_eq h] at hc
  obtain ⟨hkept, hfield⟩ := List.mem_filter.mp (List.mem_of_mem_head? hc)
  obtain ⟨hmem, hx⟩ := List.mem_filter.mp hkept
  rw [Bool.not_eq_true'] at hx
  exact (Bool.and_eq_true _ _).mp
    (h.licenses.filler_kind hrule.1 hrule.2 hmem hx (eq_of_beq hfield))

theorem Alike.nodeText_childIn {source source' : List Char} {t t' : Tree}
    (h : Alike source source' t t') {field : String} (hf : (t.kind, field) ∈ nameFields) :
    (t.childIn field).map (Java.nodeText source) =
      (t'.childIn field).map (Java.nodeText source') := by
  refine map_eq_of_rel (h.childIn field) fun c c' hc hcc => ?_
  exact hcc.nodeText (kind_of_name h.valid hf hc).2

/-! ## Admission -/

theorem allowedAtTop_of_isComment {t : Tree} (h : IsComment t) : allowedAtTop t = true := by
  rw [allowedAtTop, h.named, if_pos rfl]
  rcases h.kind with hk | hk <;> rw [hk] <;> decide +kernel

theorem isReservedName_of_isComment {t : Tree} (source : List Char) (h : IsComment t) :
    isReservedName source t = false := by
  rw [isReservedName]
  rcases h.kind with hk | hk <;> simp [hk]

namespace Alike

variable {source source' : List Char} {t t' : Tree}

theorem allowedAtTop_eq (h : Alike source source' t t') : allowedAtTop t = allowedAtTop t' := by
  rw [allowedAtTop, allowedAtTop, h.kind, h.named]

theorem isReservedName_eq (h : Alike source source' t t') :
    isReservedName source t = isReservedName source' t' := by
  have hleaf : grammar.isLeaf "identifier" = true ∧ grammar.isLeaf "type_identifier" = true := by
    decide +kernel
  rw [isReservedName, isReservedName, ← h.kind]
  by_cases hk : t.kind = "identifier" ∨ t.kind = "type_identifier"
  · have htext : Java.nodeText source t = Java.nodeText source' t' := by
      refine h.nodeText ?_
      rcases hk with hk | hk <;> rw [hk]
      · exact hleaf.1
      · exact hleaf.2
    rw [Java.nodeText, Java.nodeText] at htext
    rw [htext]
  · have hno : (t.kind == "identifier" || t.kind == "type_identifier") = false := by
      simpa using hk
    rw [hno]
    rfl

/-- Each node is a comment or corresponds to a node of the other tree. -/
theorem exists_of_mem (h : Alike source source' t t') {n' : Tree} (hn : n' ∈ t'.preorder) :
    IsComment n' ∨ ∃ n ∈ t.preorder, Alike source source' n n' := by
  induction t' using Tree.induction generalizing t with
  | node t' ih =>
    rcases Tree.mem_preorder_iff.mp hn with rfl | ⟨c', hc', hn⟩
    · exact Or.inr ⟨t, t.mem_preorder_self, h⟩
    · cases hx : c'.extra with
      | true =>
        have hcomment := isComment_of_extra (h.valid'.of_child hc').licenses hx
        rcases Tree.mem_preorder_iff.mp hn with rfl | ⟨d, hd, -⟩
        · exact Or.inl hcomment
        · rw [hcomment.children] at hd
          cases hd
      | false =>
        have hkept : c' ∈ keptChildren t' := List.mem_filter.mpr ⟨hc', by rw [hx]; rfl⟩
        obtain ⟨c, hc, hcc⟩ := exists_of_forall₂ h.kept hkept
        rcases ih c' hc' hcc hn with hcomment | ⟨n, hmem, hnn⟩
        · exact Or.inl hcomment
        · exact Or.inr ⟨n, Tree.mem_preorder_trans
            (Tree.mem_preorder_of_child (List.mem_of_mem_filter hc)) hmem, hnn⟩

theorem admitted_of_admitted (h : Alike source source' t t')
    (ha : firstForbidden source t = none) : firstForbidden source' t' = none := by
  obtain ⟨htop, hnames⟩ := firstForbidden_eq_none_iff.mp ha
  refine firstForbidden_eq_none_iff.mpr ⟨fun c' hc' => ?_, fun n' hn' => ?_⟩
  · cases hx : c'.extra with
    | true =>
      exact allowedAtTop_of_isComment (isComment_of_extra (h.valid'.of_child hc').licenses hx)
    | false =>
      have hkept : c' ∈ keptChildren t' := List.mem_filter.mpr ⟨hc', by rw [hx]; rfl⟩
      obtain ⟨c, hc, hcc⟩ := exists_of_forall₂ h.kept hkept
      rw [← hcc.allowedAtTop_eq]
      exact htop c (List.mem_of_mem_filter hc)
  · rcases h.exists_of_mem hn' with hcomment | ⟨n, hn, hnn⟩
    · exact isReservedName_of_isComment source' hcomment
    · rw [← hnn.isReservedName_eq]
      exact hnames n hn

/-- Trees with the same outline are admitted or turned down together. -/
theorem firstForbidden_eq_none (h : Alike source source' t t') :
    firstForbidden source t = none ↔ firstForbidden source' t' = none :=
  ⟨h.admitted_of_admitted, h.symm.admitted_of_admitted⟩

end Alike

end TestConversion.Java
