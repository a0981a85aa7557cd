import TestConversion.Metadata.Extract
import TestConversion.Proofs.Java.Walk

/-!
# Which calls of a method are recorded

A node in the body of a method is known by the numbers of the children that lead to it. A call is
recorded once if the way to it is performed and goes through no string and no type arguments of a
call, and not at all otherwise.

* `IsRecorded`: the nodes that are recorded.
* `calls_recorded`: the calls of a method of the first class, for every valid tree.
* `template_call_lost`: a call in a string is in the tree, but it is not recorded.
-/

namespace TestConversion.Java

open Text Syntax Code

variable {source : List Char} {t : Tree}

/-! ## Ways -/

/-- The node that some numbers of children lead to. -/
def nodeAt? : Tree → List Nat → Option Tree
  | t, [] => some t
  | t, i :: p => t.children[i]?.bind fun c => nodeAt? c p

/-- The steps to a node, each from a parent to a child. -/
def stepsTo : Tree → List Nat → List (Tree × Tree)
  | _, [] => []
  | t, i :: p =>
    match t.children[i]? with
    | some c => (t, c) :: stepsTo c p
    | none => []

/-- Steps that are searched: neither into a string nor into the type arguments of a call. -/
def IsSearched (t c : Tree) : Prop :=
  t.kind ≠ "string_literal" ∧ (isCall t = true → c.field ≠ some "type_arguments")

/-- A way to a call that is recorded. -/
def IsRecorded (b : Tree) (p : List Nat) : Prop :=
  (∃ t, nodeAt? b p = some t ∧ isCall t = true) ∧ (∀ s ∈ stepsTo b p, IsSearched s.1 s.2) ∧
    Performed ((stepsTo b p).map fun s => descentTo s.1 s.2)

/-! ### From the search to the tree -/

theorem isSearched_of_mem {x : Nat × Tree} (hx : x ∈ partsBefore t ++ partsAfter t) :
    IsSearched t x.2 := by
  rw [List.mem_append, partsBefore, partsAfter] at hx
  cases hc : isCall t with
  | true =>
    have hk : t.kind = "method_invocation" := eq_of_beq hc
    refine ⟨by rw [hk]; decide, fun _ hf => ?_⟩
    rw [hc, if_pos rfl, if_pos rfl] at hx
    rcases hx with hx | hx <;>
    · have := (List.mem_filter.mp hx).2
      rw [hf] at this
      exact absurd this (by decide)
  | false =>
    refine ⟨fun hk => ?_, fun h => absurd h (by simp [hc])⟩
    have ha : isAtom t = true := by
      rw [isAtom, hk]
      decide +kernel
    simp [hc, ha] at hx

theorem steps_of_leads {q : Tree} {p : List Nat} {ds : List Descent}
    (h : treeBranching.Leads t p ds q) : nodeAt? t p = some q ∧
      (∀ s ∈ stepsTo t p, IsSearched s.1 s.2) ∧
        ds = (stepsTo t p).map fun s => descentTo s.1 s.2 := by
  induction h with
  | here t => exact ⟨rfl, by simp [stepsTo], rfl⟩
  | @step t q x p ds hx _ ih =>
    obtain ⟨hq, hs, hds⟩ := ih
    have hc := (mem_parts.mp (mem_parts_of_mem hx)).1
    refine ⟨by simp [nodeAt?, hc, hq], ?_, by simp [stepsTo, hc, hds, treeBranching]⟩
    intro s hmem
    simp only [stepsTo, hc, List.mem_cons] at hmem
    rcases hmem with rfl | hmem
    · exact isSearched_of_mem hx
    · exact hs s hmem

/-! ### From the tree to the search -/

/-- Neither a call nor a node with children. -/
def IsDead (t : Tree) : Prop := t.children = [] ∧ isCall t = false

theorem IsDead.isCall_of_nodeAt? (h : IsDead t) {p : List Nat} {q : Tree}
    (hq : nodeAt? t p = some q) : isCall q = false := by
  cases p with
  | nil =>
    cases hq
    exact h.2
  | cons i p => simp [nodeAt?, h.1] at hq

theorem isDead_of_extra (h : grammar.Licenses t) (hx : t.extra = true) : IsDead t := by
  obtain ⟨-, -, hk, hcs⟩ := h.named_of_extra hx
  refine ⟨hcs, ?_⟩
  have hall : grammar.extras.all (fun k => !(k == "method_invocation")) = true := by
    decide +kernel
  have := List.all_eq_true.mp hall _ hk
  rwa [Bool.not_eq_true'] at this

theorem isLeaf_of_atom {kind : String}
    (h : (literalKinds.contains kind || nameKinds.contains kind) = true)
    (hs : kind ≠ "string_literal") : grammar.isLeaf kind = true := by
  have hall : (literalKinds ++ nameKinds).all
      (fun k => k == "string_literal" || grammar.isLeaf k) = true := by decide +kernel
  have hmem : kind ∈ literalKinds ++ nameKinds := by
    simpa [List.contains_iff_mem, List.mem_append] using h
  have := List.all_eq_true.mp hall kind hmem
  rw [Bool.or_eq_true] at this
  rcases this with h | h
  · exact absurd (eq_of_beq h) hs
  · exact h

theorem isLeaf_of_nameKinds {kind : String} (h : nameKinds.contains kind = true) :
    grammar.isLeaf kind = true := by
  refine isLeaf_of_atom (by rw [h, Bool.or_true]) fun hs => ?_
  rw [hs] at h
  exact absurd h (by decide +kernel)

theorem IsWord.isDead (hw : IsWord t) (h : grammar.Licenses t) : IsDead t := by
  rcases hw with hn | hk
  · refine ⟨(h.children_of_not_named hn).1, ?_⟩
    by_contra hc
    have := named_of_isCall h ((Bool.not_eq_false _).mp hc)
    rw [hn] at this
    cases this
  · refine ⟨(h.of_isLeaf (isLeaf_of_nameKinds hk)).1, ?_⟩
    by_contra hc
    rw [eq_of_beq ((Bool.not_eq_false _).mp hc)] at hk
    exact absurd hk (by decide +kernel)

/-- A child to which a step is searched and below which or at which there is a call. -/
theorem mem_of_isSearched (h : grammar.Valid t) {i : Nat} {c : Tree}
    (hc : t.children[i]? = some c) (hs : IsSearched t c) (hd : ¬ IsDead c) :
    (i, c) ∈ partsBefore t ++ partsAfter t := by
  have hmem := List.mem_of_getElem? hc
  have hx : c.extra = false := by
    by_contra hx
    exact hd (isDead_of_extra (h.of_child hmem).licenses ((Bool.not_eq_false _).mp hx))
  have hp : (i, c) ∈ parts t := mem_parts.mpr ⟨hc, hx⟩
  rw [List.mem_append, partsBefore, partsAfter]
  cases hcall : isCall t with
  | true =>
    obtain ⟨-, object, between, name, arguments, s⟩ :=
      exists_callShape h.licenses (eq_of_beq hcall)
    have hkept : c ∈ keptChildren t := List.mem_filter.mpr ⟨hmem, by rw [hx]; rfl⟩
    have hlic := (h.of_child hmem).licenses
    have hin {field : String} (hf : c.field = some field) : (i, c) ∈ partsIn field t :=
      List.mem_filter.mpr ⟨hp, by rw [hf]; exact beq_self_eq_true _⟩
    rw [if_pos rfl, if_pos rfl]
    rw [s.kept] at hkept
    rcases List.mem_append.mp hkept with ho | hkept
    · exact Or.inl (hin (s.object_field c (Option.mem_toList.mp ho)))
    · rcases List.mem_append.mp hkept with hb | hkept
      · rcases s.between_field c hb with ⟨-, hw⟩ | hf
        · exact absurd (hw.isDead hlic) hd
        · exact absurd hf (hs.2 hcall)
      · rcases List.mem_pair.mp hkept with rfl | rfl
        · have hw : IsWord c := Or.inr (by rw [s.name_kind]; decide +kernel)
          exact absurd (hw.isDead hlic) hd
        · exact Or.inr (hin s.arguments_field)
  | false =>
    have ha : isAtom t = false := by
      by_contra ha
      have := (h.licenses.of_isLeaf (isLeaf_of_atom ((Bool.not_eq_false _).mp ha) hs.1)).1
      rw [this] at hmem
      cases hmem
    rw [ha]
    exact Or.inl hp

theorem leads_of_steps (h : grammar.Valid t) {q : Tree} {p : List Nat}
    (hq : nodeAt? t p = some q) (hcall : isCall q = true)
    (hs : ∀ s ∈ stepsTo t p, IsSearched s.1 s.2) :
    treeBranching.Leads t p ((stepsTo t p).map fun s => descentTo s.1 s.2) q := by
  induction p generalizing t with
  | nil =>
    cases hq
    exact .here _
  | cons i p ih =>
    obtain ⟨c, hc, hq⟩ := Option.bind_eq_some_iff.mp hq
    have hsteps : stepsTo t (i :: p) = (t, c) :: stepsTo c p := by simp [stepsTo, hc]
    rw [hsteps] at hs ⊢
    have hd : ¬ IsDead c := by
      intro hd
      rw [hd.isCall_of_nodeAt? hq] at hcall
      cases hcall
    have hx := mem_of_isSearched h hc (hs _ List.mem_cons_self) hd
    have hl := ih (h.of_child (List.mem_of_getElem? hc)) hq
      fun s hmem => hs s (List.mem_cons_of_mem _ hmem)
    exact Branching.Leads.step (L := treeBranching) (x := (i, c)) hx hl

/-- The actions of a tree are the calls that are recorded. -/
theorem mem_actions_iff_isRecorded (h : grammar.Valid t) {p : List Nat} {q : Tree} :
    (p, q) ∈ treeBranching.actions .record t ↔ nodeAt? t p = some q ∧ IsRecorded t p := by
  rw [Branching.mem_actions_iff]
  constructor
  · rintro ⟨r, ds, hl, hcall, hm⟩
    obtain ⟨hr, hs, rfl⟩ := steps_of_leads hl
    obtain ⟨hc, rfl⟩ := call?_eq_some.mp hcall
    exact ⟨hr, ⟨_, hr, hc⟩, hs, (foldl_after_eq_record_iff _).mp hm⟩
  · rintro ⟨hq, ⟨r, hr, hc⟩, hs, hp⟩
    cases hq.symm.trans hr
    exact ⟨q, _, leads_of_steps h hq hc hs, call?_eq_some.mpr ⟨hc, rfl⟩,
      (foldl_after_eq_record_iff _).mpr hp⟩

/-! ## The first class -/

/-- Filtering by a total function keeps the places in a list. -/
theorem getElem?_filterMap_of_isSome {α β : Type} {f : α → Option β} {xs : List α}
    (h : ∀ x ∈ xs, (f x).isSome = true) (k : Nat) :
    (xs.filterMap f)[k]? = xs[k]?.bind f := by
  induction xs generalizing k with
  | nil => rfl
  | cons x xs ih =>
    obtain ⟨y, hy⟩ := Option.isSome_iff_exists.mp (h x List.mem_cons_self)
    have ih := ih fun z hz => h z (List.mem_cons_of_mem x hz)
    rw [List.filterMap_cons_some hy]
    cases k with
    | zero => exact hy.symm
    | succ k => exact ih k

theorem mem_children_of_mem_namedChildren {c : Tree} {p : Tree → Bool}
    (hc : c ∈ t.namedChildren.filter p) : c ∈ t.children :=
  List.mem_of_mem_filter (List.mem_of_mem_filter hc)

/-- The members of a body that are methods. -/
def methodNodes (body : Tree) : List Tree :=
  body.namedChildren.filter fun m => m.kind == "method_declaration"

theorem methodOf?_isSome_of_mem (source : List Char) {body m : Tree} (h : grammar.Valid body)
    (hm : m ∈ methodNodes body) : (methodOf? source m).isSome = true := by
  have hv := h.of_child (mem_children_of_mem_namedChildren hm)
  have hk : m.kind = "method_declaration" := eq_of_beq (List.mem_filter.mp hm).2
  obtain ⟨method, hmethod⟩ := methodOf?_isSome source (method_name_isSome hv.licenses hk)
  rw [hmethod]
  rfl

/-- The first class that stands at the top of a tree. -/
def firstClass? (root : Tree) : Option Tree :=
  (root.namedChildren.filter fun c => c.kind == "class_declaration").head?

theorem classOf?_methods (source : List Char) {c body : Tree} (h : grammar.Valid c)
    (hk : c.kind = "class_declaration") (hb : c.childIn "body" = some body) :
    ∃ cls, classOf? source c = some cls ∧
      cls.methods = (methodNodes body).filterMap (methodOf? source) := by
  obtain ⟨name, hname⟩ := Option.isSome_iff_exists.mp (class_name_isSome h.licenses hk)
  rw [classOf?, hname, hb]
  exact ⟨_, rfl, rfl⟩

/-- The methods in the metadata are those in the body of the first class. -/
theorem extract_methods {root c body : Tree} (h : grammar.Valid root)
    (hc : firstClass? root = some c) (hb : c.childIn "body" = some body) (fileName : String) :
    (extract (unitOf source root) fileName).methods =
      ((methodNodes body).filterMap (methodOf? source)).map summaryOf := by
  obtain ⟨cs, hcs⟩ := List.head?_eq_some_iff.mp hc
  have hmem : c ∈ root.namedChildren.filter fun c => c.kind == "class_declaration" := by
    rw [hcs]
    exact List.mem_cons_self
  have hcv := h.of_child (mem_children_of_mem_namedChildren hmem)
  obtain ⟨cls, hcls, hmethods⟩ := classOf?_methods source hcv
    (eq_of_beq (List.mem_filter.mp hmem).2) hb
  rw [extract, unitOf, hcs, List.filterMap_cons_some hcls, ← hmethods]
  rfl

/-- The calls of a method of the first class: each call in its body to which a recorded way leads,
once, and no other one. -/
theorem calls_recorded {root c body m b : Tree} {k : Nat} (h : grammar.Valid root)
    (hc : firstClass? root = some c) (hbody : c.childIn "body" = some body)
    (hm : (methodNodes body)[k]? = some m) (hb : m.childIn "body" = some b)
    (fileName : String) :
    ∃ s, (extract (unitOf source root) fileName).methods[k]? = some s ∧
      ∃ ps : List (List Nat), ps.Nodup ∧ (∀ p, p ∈ ps ↔ IsRecorded b p) ∧
        List.Forall₂ (fun p call => ∃ t, nodeAt? b p = some t ∧ call = callOf source t)
          ps s.calls := by
  have hbodyv : grammar.Valid body := by
    have hmem := mem_children_of_mem_namedChildren (List.mem_of_mem_head? hc)
    exact (h.of_child hmem).of_child (List.mem_of_find?_eq_some hbody)
  have hmmem := List.mem_of_getElem? hm
  have hbv : grammar.Valid b := (hbodyv.of_child
    (mem_children_of_mem_namedChildren hmmem)).of_child (List.mem_of_find?_eq_some hb)
  obtain ⟨method, hmethod⟩ := Option.isSome_iff_exists.mp
    (methodOf?_isSome_of_mem source hbodyv hmmem)
  refine ⟨summaryOf method, ?_, (treeBranching.actions .record b).map Prod.fst,
    treeBranching.nodup_actions .record b, fun p => ?_, ?_⟩
  · rw [extract_methods h hc hbody, List.getElem?_map, getElem?_filterMap_of_isSome
      (fun x hx => methodOf?_isSome_of_mem source hbodyv hx), hm, Option.bind_some, hmethod]
    rfl
  · constructor
    · intro hp
      obtain ⟨⟨_, q⟩, hq, rfl⟩ := List.mem_map.mp hp
      exact ((mem_actions_iff_isRecorded hbv).mp hq).2
    · intro hp
      obtain ⟨q, hq, -⟩ := hp.1
      exact List.mem_map.mpr ⟨(p, q), (mem_actions_iff_isRecorded hbv).mpr ⟨hq, hp⟩, rfl⟩
  · rw [calls_methodOf? hmethod hb hbv, List.forall₂_map_left_iff, List.forall₂_map_right_iff,
      List.forall₂_same]
    rintro ⟨p, q⟩ hq
    exact ⟨q, ((mem_actions_iff_isRecorded hbv).mp hq).1, rfl⟩

theorem calls_recorded_sample : grammar.Valid sample ∧ firstClass? sample = some sampleClass ∧
    ∃ s, (extract (unitOf sampleSource sample) "A.java").methods[0]? = some s ∧
      ∃ ps : List (List Nat), ps.Nodup ∧ (∀ p, p ∈ ps ↔ IsRecorded sampleBody p) ∧
        List.Forall₂ (fun p call => ∃ t, nodeAt? sampleBody p = some t ∧
          call = callOf sampleSource t) ps s.calls := by
  have hc : firstClass? sample = some sampleClass := rfl
  have hbody : sampleClass.childIn "body" = some sampleClassBody := rfl
  have hm : (methodNodes sampleClassBody)[0]? = some sampleMethod := rfl
  exact ⟨valid_sample, hc, calls_recorded valid_sample hc hbody hm rfl "A.java"⟩

/-! ## Calls in strings -/

def templateSource : List Char :=
  "class A \x7b void m() \x7b t.\"\\\x7bf()\x7d\"; \x7d \x7d".toList

/-- The only statement is `t."\{f()}";`. -/
def templateBody : Tree :=
  branchAt "block" (some "body") 19 34 [
    textAt "\x7b" 19,
    branchAt "expression_statement" none 21 32 [
      branchAt "template_expression" none 21 31 [
        nameAt (some "template_processor") 21,
        textAt "." 22,
        branchAt "string_literal" (some "template_argument") 23 31 [
          textAt "\"" 23,
          branchAt "string_interpolation" none 24 30 [
            textAt "\\\x7b" 24,
            branchAt "method_invocation" none 26 29 [
              nameAt (some "name") 26,
              branchAt "argument_list" (some "arguments") 27 29 [
                textAt "(" 27, textAt ")" 28]],
            textAt "\x7d" 29],
          textAt "\"" 30]],
      textAt ";" 31],
    textAt "\x7d" 33]

def templateMethod : Tree :=
  branchAt "method_declaration" none 10 34 [
    .node ⟨"void_type", true, false, false, some "type", ⟨10, 14⟩⟩ [],
    nameAt (some "name") 15,
    branchAt "formal_parameters" (some "parameters") 16 18 [textAt "(" 16, textAt ")" 17],
    templateBody]

/-- The call of `f` is no argument, but it stands in a string, and no call of `m` is recorded. -/
theorem template_call_lost :
    let way := [1, 0, 2, 1, 1]
    grammar.Valid templateMethod ∧ (nodeAt? templateBody way).any isCall = true ∧
      (∀ s ∈ stepsTo templateBody way, (descentTo s.1 s.2).part = .other) ∧
        ∃ method, methodOf? templateSource templateMethod = some method ∧
          (summaryOf method).calls = [] := by
  intro way
  have h : grammar.Valid templateMethod := Grammar.valid_of_recognises 8 (by decide +kernel)
  have hb : templateMethod.childIn "body" = some templateBody := rfl
  have hbv := h.of_child (List.mem_of_find?_eq_some hb)
  obtain ⟨method, hmethod⟩ := methodOf?_isSome templateSource (t := templateMethod) rfl
  refine ⟨h, by decide +kernel, by decide +kernel, method, hmethod, ?_⟩
  have hl : NoLambdaOperand templateBody := by
    unfold NoLambdaOperand
    decide +kernel
  rw [calls_methodOf? hmethod hb hbv, ← walkWithin_eq_map_actions hbv hl]
  rfl

end TestConversion.Java
