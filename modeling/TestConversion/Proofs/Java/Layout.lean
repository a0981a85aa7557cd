import TestConversion.Proofs.Java.Outline
import TestConversion.Proofs.Java.Reading

/-!
# Comments and blanks do not matter

Texts whose trees have the same outline are admitted or turned down together, and what is extracted
from them differs in nothing but the way in which arguments are spelled. Declarations are read from
children of certain kinds or fields, so that comments among them are passed over; lowering drops the
comments before anything is assembled.

* `Alike.importOf`, `Alike.annotationsOf`: declarations.
* `Alike.qualifierOf_lower`: what calls are made on.
* `Relates.calls`, `Alike.calls_match`: the calls of two trees.
* `metadata_of_outline`: admission and metadata.
-/

namespace TestConversion

/-- Calls of the same method on the same qualifier with as many arguments. -/
structure Call.Matches (c d : Call) : Prop where
  method : c.method = d.method
  qualifier : c.qualifier = d.qualifier
  arguments : c.arguments.length = d.arguments.length

structure MethodSummary.Matches (m n : MethodSummary) : Prop where
  name : m.name = n.name
  annotations : m.annotations = n.annotations
  calls : List.Forall₂ Call.Matches m.calls n.calls

/-- The same metadata, apart from the names of the files and the spelling of arguments. -/
structure Metadata.Matches (m n : Metadata) : Prop where
  imports : m.imports = n.imports
  automationImports : m.automationImports = n.automationImports
  usesTestFramework : m.usesTestFramework = n.usesTestFramework
  className : m.className = n.className
  methods : List.Forall₂ MethodSummary.Matches m.methods n.methods

end TestConversion

namespace TestConversion.Java

open Text Syntax Code

variable {source source' : List Char} {t t' : Tree}

/-! ## Names with dots -/

theorem segmentsOf_of_isComment (source : List Char) (h : IsComment t) :
    segmentsOf source t = [] := by
  have hk : t.kind ≠ "identifier" := by
    rcases h.kind with hk | hk <;> rw [hk] <;> decide
  rw [segmentsOf_of_other source hk, Tree.namedChildren, h.children]
  rfl

theorem segmentsOf_keptChildren (h : grammar.Valid t) (hk : t.kind ≠ "identifier") :
    segmentsOf source t =
      (keptChildren t).flatMap fun c => if c.named then segmentsOf source c else [] := by
  rw [segmentsOf_of_other source hk, Tree.namedChildren, flatMap_filter, flatMap_keptChildren h]
  intro c hc
  rw [segmentsOf_of_isComment source hc, ite_self]

theorem Alike.segmentsOf (h : Alike source source' t t') :
    segmentsOf source t = segmentsOf source' t' := by
  induction h using Alike.induction with
  | step t t' h ih =>
    by_cases hk : t.kind = "identifier"
    · have hleaf : grammar.isLeaf t.kind = true :=
        isLeaf_of_nameKinds (by rw [hk]; decide +kernel)
      rw [segmentsOf_of_identifier source hk, segmentsOf_of_identifier source' (h.kind ▸ hk),
        h.nodeText hleaf]
    · rw [segmentsOf_keptChildren h.valid hk, segmentsOf_keptChildren h.valid' (h.kind ▸ hk),
        flatMap_eq_of_forall₂ ih]
      rintro c c' ⟨hcc, heq⟩
      rw [hcc.named, heq]

/-! ## Imports and annotations -/

theorem importStep_of_isComment (source : List Char) (decl : Import) (h : IsComment t) :
    importStep source decl t = decl := by
  rw [importStep]
  rcases h.kind with hk | hk <;> simp [hk]

theorem importOf_eq_foldl_keptChildren (h : grammar.Valid t) :
    importOf source t = (keptChildren t).foldl (importStep source) ⟨"", false, false⟩ := by
  rw [importOf_eq_foldl, keptChildren, List.foldl_filter]
  refine List.foldl_ext _ _ _ fun decl c hc => ?_
  cases hx : c.extra with
  | false => rfl
  | true =>
    exact importStep_of_isComment source decl (isComment_of_extra (h.of_child hc).licenses hx)

theorem Alike.importStep_eq (h : Alike source source' t t') (decl : Import) :
    importStep source decl t = importStep source' decl t' := by
  rw [importStep, importStep, h.kind, h.segmentsOf]

theorem Alike.importOf (h : Alike source source' t t') :
    importOf source t = importOf source' t' := by
  rw [importOf_eq_foldl_keptChildren h.valid, importOf_eq_foldl_keptChildren h.valid']
  refine List.rel_foldl ?_ rfl h.kept
  rintro decl _ rfl c c' hcc
  exact hcc.importStep_eq decl

theorem annotation?_of_isComment (source : List Char) (h : IsComment t) :
    annotation? source t = none := by
  rw [annotation?]
  rcases h.kind with hk | hk <;> simp [hk]

theorem Alike.annotation?_eq (h : Alike source source' t t') :
    annotation? source t = annotation? source' t' := by
  have hname : ((t.childIn "name").map fun name => Annotation.mk (Java.segmentsOf source name)) =
      (t'.childIn "name").map fun name => Annotation.mk (Java.segmentsOf source' name) :=
    map_eq_of_rel (h.childIn "name") fun _ _ _ hcc => by rw [hcc.segmentsOf]
  rw [annotation?, annotation?, h.kind, hname]

theorem Alike.annotationsOf (h : Alike source source' t t') :
    annotationsOf source t = annotationsOf source' t' := by
  have hmodifiers := h.filter_children (p := fun c => c.kind == "modifiers")
    (fun c hc => by rcases hc.kind with hk | hk <;> simp [hk]) fun c c' hcc => by rw [hcc.kind]
  rw [annotationsOf_eq, annotationsOf_eq]
  refine flatMap_eq_of_forall₂ hmodifiers fun m m' hm => ?_
  rw [← flatMap_keptChildren hm.valid, ← flatMap_keptChildren hm.valid',
    flatMap_eq_of_forall₂ hm.kept]
  · intro c c' hcc
    rw [hcc.annotation?_eq]
  · intro c hc
    rw [annotation?_of_isComment source' hc]
    rfl
  · intro c hc
    rw [annotation?_of_isComment source hc]
    rfl

/-! ## What calls are made on -/

theorem Alike.findSome?_base? {ts ts' : List Tree}
    (h : List.Forall₂ (fun c c' => ∃ _ : Alike source source' c c',
      reference? (lower source c) = reference? (lower source' c')) ts ts') :
    ts.findSome? (base? ∘ lowered source) = ts'.findSome? (base? ∘ lowered source') := by
  have hmap : ts.map (base? ∘ lowered source) = ts'.map (base? ∘ lowered source') := by
    refine map_eq_of_forall₂ h ?_
    rintro c c' ⟨hcc, heq⟩
    simp only [Function.comp_apply, base?_eq, lowered, hcc.field, heq]
  simpa only [List.findSome?_map, Function.id_comp] using congrArg (List.findSome? id) hmap

theorem Alike.reference?_lower (h : Alike source source' t t') :
    reference? (lower source t) = reference? (lower source' t') := by
  induction h using Alike.induction with
  | step t t' h ih =>
    rw [Java.reference?_lower, Java.reference?_lower, Alike.findSome?_base? ih, ← h.named, ← h.kind]
    split
    · rfl
    · split
      · rename_i hk
        rw [h.nodeText (isLeaf_of_nameKinds hk)]
      · split
        · rename_i hk
          have hname : (t.kind, "field") ∈ nameFields := by
            rw [eq_of_beq hk]
            decide
          rw [h.nodeText_childIn hname]
        · rfl

theorem Alike.qualifierOf_lower (h : Alike source source' t t') :
    qualifierOf (lower source t) = qualifierOf (lower source' t') := by
  rw [qualifierOf_eq, qualifierOf_eq, h.reference?_lower]

theorem Alike.length_nodesOf_lower (h : Alike source source' t t') :
    (nodesOf (lower source t)).length = (nodesOf (lower source' t')).length := by
  induction h using Alike.induction with
  | step t t' h ih =>
    have hmap : ((keptChildren t).map fun c => (nodesOf (lower source c)).length) =
        (keptChildren t').map fun c => (nodesOf (lower source' c)).length :=
      map_eq_of_forall₂ ih fun _ _ hcc => hcc.2
    rw [Java.length_nodesOf_lower, Java.length_nodesOf_lower, h.named, h.kind, List.length_flatMap,
      List.length_flatMap, hmap]

/-! ## Calls -/

/-- A call is recorded as the same one. -/
theorem Alike.callOf_matches (h : Alike source source' t t')
    (hk : t.kind = "method_invocation") : (callOf source t).Matches (callOf source' t') := by
  refine ⟨?_, ?_, ?_⟩
  · have hname : (t.kind, "name") ∈ nameFields := by
      rw [hk]
      decide
    exact congrArg (·.getD "") (h.nodeText_childIn hname)
  · have hobject : (t.childIn "object").map (fun o => qualifierOf (lower source o)) =
        (t'.childIn "object").map fun o => qualifierOf (lower source' o) :=
      map_eq_of_rel (h.childIn "object") fun _ _ _ hcc => hcc.qualifierOf_lower
    simpa only [callOf, Option.bind_map, Function.id_comp] using
      congrArg (fun o => o.bind id) hobject
  · have hlength : ((t.childIn "arguments").map fun a => (nodesOf (lower source a)).length) =
        (t'.childIn "arguments").map fun a => (nodesOf (lower source' a)).length :=
      map_eq_of_rel (h.childIn "arguments") fun _ _ _ hcc => hcc.length_nodesOf_lower
    rw [length_arguments_callOf, length_arguments_callOf, hlength]

theorem Alike.descentTo_eq {c c' : Tree} (h : Alike source source' t t')
    (hc : Alike source source' c c') : descentTo t c = descentTo t' c' := by
  rw [descentTo, descentTo, isCall, isCall, isBlock, isBlock, h.kind, hc.kind, hc.field]

/-- Related trees are the same but for comments and positions, and so are their children; and the
calls that related nodes are recorded as are related, too. -/
structure Relates (source source' : List Char) (R : Tree → Tree → Prop) (S : Call → Call → Prop) :
    Prop where
  alike : ∀ {c c'}, R c c' → Alike source source' c c'
  kept : ∀ {c c'}, R c c' → List.Forall₂ R (keptChildren c) (keptChildren c')
  call : ∀ {c c'}, R c c' → c.kind = "method_invocation" → S (callOf source c) (callOf source' c')

namespace Relates

variable {R : Tree → Tree → Prop} {S : Call → Call → Prop}

/-- The calls of these nodes are related, whatever the mode. -/
def RelatedCalls (source source' : List Char) (R : Tree → Tree → Prop) (S : Call → Call → Prop)
    (c c' : Tree) : Prop :=
  R c c' ∧ ∀ mode, List.Forall₂ S ((lower source c).callsWithin mode)
    ((lower source' c').callsWithin mode)

theorem calls_below (hR : Relates source source' R S) (h : Alike source source' t t')
    {cs cs' : List Tree} (hcs : List.Forall₂ (RelatedCalls source source' R S) cs cs')
    (mode : Mode) :
    List.Forall₂ S
      (cs.flatMap fun c => (lower source c).callsWithin (mode.after (descentTo t c)))
      (cs'.flatMap fun c => (lower source' c).callsWithin (mode.after (descentTo t' c))) := by
  refine List.rel_flatMap hcs ?_
  rintro c c' ⟨hcc, hcalls⟩
  simp only [h.descentTo_eq (hR.alike hcc)]
  exact hcalls _

theorem fillers (hR : Relates source source' R S) {cs cs' : List Tree}
    (hcs : List.Forall₂ (RelatedCalls source source' R S) cs cs') (field : String) :
    List.Forall₂ (RelatedCalls source source' R S)
      (cs.filter fun c => c.field == some field) (cs'.filter fun c => c.field == some field) := by
  refine List.rel_filter ?_ hcs
  rintro c c' ⟨hcc, -⟩
  simp only [(hR.alike hcc).field]

/-- The calls of related trees. -/
theorem calls (hR : Relates source source' R S) (h : R t t') (mode : Mode) :
    List.Forall₂ S ((lower source t).callsWithin mode) ((lower source' t').callsWithin mode) := by
  induction t using Tree.induction generalizing t' mode with
  | node t ih =>
    have hbelow : List.Forall₂ (RelatedCalls source source' R S) (keptChildren t)
        (keptChildren t') :=
      forall₂_of_mem (hR.kept h) fun c hc _ _ hcc =>
        ⟨hcc, fun mode => ih c (List.mem_of_mem_filter hc) hcc mode⟩
    have ha := hR.alike h
    have hcall : isCall t = isCall t' := by rw [isCall, isCall, ha.kind]
    have hatom : isAtom t = isAtom t' := by rw [isAtom, isAtom, ha.kind]
    cases hc : isCall t with
    | true =>
      rw [callsWithin_of_isCall ha.valid hc, callsWithin_of_isCall ha.valid' (hcall ▸ hc)]
      refine List.rel_append (hR.calls_below ha (hR.fillers hbelow "object") mode)
        (List.rel_append ?_ (hR.calls_below ha (hR.fillers hbelow "arguments") mode))
      split
      · exact .cons (hR.call h (eq_of_beq hc)) .nil
      · exact .nil
    | false =>
      cases hx : isAtom t with
      | true =>
        rw [callsWithin_of_isAtom hx, callsWithin_of_isAtom (hatom ▸ hx)]
        exact .nil
      | false =>
        rw [callsWithin_of_others ha.valid hc hx,
          callsWithin_of_others ha.valid' (hcall ▸ hc) (hatom ▸ hx)]
        exact hR.calls_below ha hbelow mode

end Relates

theorem relates_alike (source source' : List Char) :
    Relates source source' (Alike source source') Call.Matches where
  alike h := h
  kept h := h.kept
  call h hk := h.callOf_matches hk

/-- The calls of corresponding trees. -/
theorem Alike.calls_match (h : Alike source source' t t') (mode : Mode) :
    List.Forall₂ Call.Matches ((lower source t).callsWithin mode)
      ((lower source' t').callsWithin mode) :=
  (relates_alike source source').calls h mode

/-! ## Methods and classes -/

theorem Alike.summaryOf_matches (h : Alike source source' t t')
    (hk : t.kind = "method_declaration") {m m' : Method}
    (hm : methodOf? source t = some m) (hm' : methodOf? source' t' = some m') :
    (summaryOf m).Matches (summaryOf m') := by
  obtain ⟨hname, hannotations⟩ := of_methodOf?_eq_some hm
  obtain ⟨hname', hannotations'⟩ := of_methodOf?_eq_some hm'
  refine ⟨?_, ?_, ?_⟩
  · have hfield : (t.kind, "name") ∈ nameFields := by
      rw [hk]
      decide
    rw [h.nodeText_childIn hfield, hname'] at hname
    exact (Option.some.inj hname).symm
  · show m.annotations.map Annotation.name = m'.annotations.map Annotation.name
    rw [hannotations, hannotations', h.annotationsOf]
  · show List.Forall₂ Call.Matches (callsOf m) (callsOf m')
    rw [callsOf_eq_getD hm, callsOf_eq_getD hm']
    exact forall₂_getD_of_rel (h.childIn "body") fun _ _ hb => hb.calls_match .record

/-- Corresponding methods are both read. -/
theorem Alike.methodOf?_matches (h : Alike source source' t t')
    (hk : t.kind = "method_declaration") :
    Option.Rel (fun m m' => (summaryOf m).Matches (summaryOf m')) (methodOf? source t)
      (methodOf? source' t') := by
  obtain ⟨m, hm⟩ := methodOf?_isSome source (method_name_isSome h.valid.licenses hk)
  obtain ⟨m', hm'⟩ := methodOf?_isSome source'
    (method_name_isSome h.valid'.licenses (h.kind ▸ hk))
  rw [hm, hm']
  exact .some (h.summaryOf_matches hk hm hm')

/-- Classes of one name with corresponding methods. -/
structure ClassMatches (c d : TestClass) : Prop where
  name : c.name = d.name
  methods : List.Forall₂ MethodSummary.Matches (c.methods.map summaryOf) (d.methods.map summaryOf)

theorem Alike.membersOf (h : Alike source source' t t') :
    List.Forall₂ (Alike source source') (membersOf t) (membersOf t') :=
  forall₂_getD_of_rel (h.childIn "body") fun _ _ hb =>
    hb.filter_namedChildren (by decide) (by decide)

theorem Alike.classMatches (h : Alike source source' t t') (hk : t.kind = "class_declaration")
    {c c' : TestClass} (hc : classOf? source t = some c) (hc' : classOf? source' t' = some c') :
    ClassMatches c c' := by
  obtain ⟨hname, hmethods⟩ := of_classOf?_eq_some hc
  obtain ⟨hname', hmethods'⟩ := of_classOf?_eq_some hc'
  refine ⟨?_, ?_⟩
  · have hfield : (t.kind, "name") ∈ nameFields := by
      rw [hk]
      decide
    rw [h.nodeText_childIn hfield, hname'] at hname
    exact (Option.some.inj hname).symm
  · rw [hmethods, hmethods', List.forall₂_map_left_iff, List.forall₂_map_right_iff]
    have hmembers := forall₂_of_mem h.membersOf (S := fun m m' =>
      Alike source source' m m' ∧ m.kind = "method_declaration")
      fun m hm m' _ hmm => ⟨hmm, kind_of_mem_membersOf hm⟩
    exact List.rel_filterMap (fun m m' hmm => hmm.1.methodOf?_matches hmm.2) hmembers

theorem Alike.classOf?_matches (h : Alike source source' t t')
    (hk : t.kind = "class_declaration") :
    Option.Rel ClassMatches (classOf? source t) (classOf? source' t') := by
  obtain ⟨c, hc⟩ := classOf?_isSome source (class_name_isSome h.valid.licenses hk)
  obtain ⟨c', hc'⟩ := classOf?_isSome source'
    (class_name_isSome h.valid'.licenses (h.kind ▸ hk))
  rw [hc, hc']
  exact .some (h.classMatches hk hc hc')

/-! ## Whole texts -/

theorem Alike.classes_match (h : Alike source source' t t') :
    List.Forall₂ ClassMatches (unitOf source t).classes (unitOf source' t').classes := by
  have hclasses : List.Forall₂ (Alike source source')
      (t.namedChildren.filter fun c => c.kind == "class_declaration")
      (t'.namedChildren.filter fun c => c.kind == "class_declaration") :=
    h.filter_namedChildren (by decide) (by decide)
  have hkinds := forall₂_of_mem hclasses (S := fun c c' =>
    Alike source source' c c' ∧ c.kind = "class_declaration")
    fun c hc c' _ hcc => ⟨hcc, eq_of_beq (List.mem_filter.mp hc).2⟩
  exact List.rel_filterMap (fun c c' hcc => hcc.1.classOf?_matches hcc.2) hkinds

theorem Alike.imports_eq (h : Alike source source' t t') :
    (unitOf source t).imports = (unitOf source' t').imports :=
  map_eq_of_forall₂ (h.filter_namedChildren (by decide) (by decide)) fun _ _ hcc => hcc.importOf

theorem Alike.extract_matches (h : Alike source source' t t') (fileName fileName' : String) :
    (extract (unitOf source t) fileName).Matches (extract (unitOf source' t') fileName') := by
  have himports : (extract (unitOf source t) fileName).imports =
      (extract (unitOf source' t') fileName').imports :=
    congrArg (List.map Import.path) h.imports_eq
  have hfirst := rel_head? h.classes_match
  exact {
    imports := himports
    automationImports := congrArg (List.filter isAutomationImport) himports
    usesTestFramework := congrArg (List.any · isTestFrameworkImport) himports
    className := congrArg (·.getD "") (map_eq_of_rel hfirst fun _ _ _ hc => hc.name)
    methods := forall₂_getD_of_rel hfirst fun _ _ hc => hc.methods }

/-- Two texts whose trees have no errors and are the same but for comments and positions: both are
admitted or both are turned down, and if they are admitted, their metadata are the same but for the
file names and for how arguments are spelled. -/
theorem metadata_of_outline {reading reading' : List Char → Tree} {source source' : String}
    (h : grammar.Valid (reading source.toList)) (h' : grammar.Valid (reading' source'.toList))
    (ho : outline source.toList (reading source.toList) =
      outline source'.toList (reading' source'.toList)) (label label' : String) :
    (firstForbidden source.toList (reading source.toList) = none ↔
      firstForbidden source'.toList (reading' source'.toList) = none) ∧
    ((∃ unit, parseWith reading source label = .ok unit) ↔
      ∃ unit, parseWith reading' source' label' = .ok unit) ∧
    ∀ unit unit', parseWith reading source label = .ok unit →
      parseWith reading' source' label' = .ok unit' → ∀ fileName fileName' : String,
        (extract unit fileName).Matches (extract unit' fileName') := by
  have halike : Alike source.toList source'.toList _ _ := ⟨h, h', ho⟩
  refine ⟨halike.firstForbidden_eq_none, ?_, fun unit unit' hu hu' fileName fileName' => ?_⟩
  · simp only [parseWith_eq_ok_iff h, parseWith_eq_ok_iff h', exists_and_left, exists_eq,
      and_true]
    exact halike.firstForbidden_eq_none
  · obtain ⟨-, rfl⟩ := (parseWith_eq_ok_iff h).mp hu
    obtain ⟨-, rfl⟩ := (parseWith_eq_ok_iff h').mp hu'
    exact halike.extract_matches fileName fileName'

/-! ## A sample with comments -/

def blockComment (start stop : Nat) : Tree :=
  .node ⟨"block_comment", true, true, false, none, ⟨start, stop⟩⟩ []

def commentedSource : String :=
  "/*a*/ class A \x7b /*b*/ void m() \x7b f(/*c*/ x -> g())./*d*/h(i()); \x7d \x7d"

/-- The sample with comments at the top, in the class, among arguments and in a chain. -/
def commented : Tree :=
  branchAt "program" none 0 67 [
    blockComment 0 5,
    branchAt "class_declaration" none 6 67 [
      textAt "class" 6,
      nameAt (some "name") 12,
      branchAt "class_body" (some "body") 14 67 [
        textAt "\x7b" 14,
        blockComment 16 21,
        branchAt "method_declaration" none 22 65 [
          .node ⟨"void_type", true, false, false, some "type", ⟨22, 26⟩⟩ [],
          nameAt (some "name") 27,
          branchAt "formal_parameters" (some "parameters") 28 30 [textAt "(" 28, textAt ")" 29],
          branchAt "block" (some "body") 31 65 [
            textAt "\x7b" 31,
            branchAt "expression_statement" none 33 63 [
              branchAt "method_invocation" none 33 62 [
                branchAt "method_invocation" (some "object") 33 50 [
                  nameAt (some "name") 33,
                  branchAt "argument_list" (some "arguments") 34 50 [
                    textAt "(" 34,
                    blockComment 35 40,
                    branchAt "lambda_expression" none 41 49 [
                      nameAt (some "parameters") 41,
                      textAt "->" 43,
                      branchAt "method_invocation" (some "body") 46 49 [
                        nameAt (some "name") 46,
                        branchAt "argument_list" (some "arguments") 47 49 [
                          textAt "(" 47, textAt ")" 48]]],
                    textAt ")" 49]],
                textAt "." 50,
                blockComment 51 56,
                nameAt (some "name") 56,
                branchAt "argument_list" (some "arguments") 57 62 [
                  textAt "(" 57,
                  branchAt "method_invocation" none 58 61 [
                    nameAt (some "name") 58,
                    branchAt "argument_list" (some "arguments") 59 61 [
                      textAt "(" 59, textAt ")" 60]],
                  textAt ")" 61]],
              textAt ";" 62],
            textAt "\x7d" 64]],
        textAt "\x7d" 66]]]

theorem valid_commented : grammar.Valid commented :=
  Grammar.valid_of_recognises 8 (by decide +kernel)

theorem metadata_of_outline_sample :
    let source := "class A { void m() { f(x -> g()).h(i()); } }"
    grammar.Valid sample ∧ grammar.Valid commented ∧
      outline source.toList sample = outline commentedSource.toList commented ∧
      (firstForbidden source.toList sample = none ↔
        firstForbidden commentedSource.toList commented = none) ∧
      ((∃ unit, parseWith (fun _ => sample) source "" = .ok unit) ↔
        ∃ unit, parseWith (fun _ => commented) commentedSource "" = .ok unit) ∧
      ∀ unit unit', parseWith (fun _ => sample) source "" = .ok unit →
        parseWith (fun _ => commented) commentedSource "" = .ok unit' →
          ∀ fileName fileName' : String,
            (extract unit fileName).Matches (extract unit' fileName') := by
  intro source
  have ho : outline source.toList sample = outline commentedSource.toList commented := by
    decide +kernel
  exact ⟨valid_sample, valid_commented, ho, @metadata_of_outline (fun _ => sample)
    (fun _ => commented) source commentedSource valid_sample valid_commented ho "" ""⟩

end TestConversion.Java
