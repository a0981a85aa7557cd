import TestConversion.Proofs.Code.Occurrences
import TestConversion.Proofs.Java.Receivers

/-!
# Chains of calls

In lowered code a call carries the calls made on its result as a flat list: they have nothing of
their own that they are made on, and no calls chained onto them. A chain of any length is lowered to
its first call in that way.

* `Place.everywhere_iff`: what holds of every call in a piece of code, part by part.
* `allFlat_lower_of_children`: a node is lowered to flat calls if its children are.
* `lowered_calls_flat`: every call in a lowered tree is flat, for every tree.
* `lower_call_of_call`, `lower_call_of_base`: what a call is lowered to.
* `chain_flattened`: what a chain of calls is lowered to.
-/

namespace TestConversion.Code

/-! ## Calls everywhere -/

/-- A property of every call in a piece of code, wherever it stands. -/
def Place.Everywhere (p : Invocation → Prop) (x : Place) : Prop :=
  ∀ turns i, x.follow turns = some (.call i) → p i

namespace Place

variable {p : Invocation → Prop}

theorem everywhere_iff {x : Place} : x.Everywhere p ↔
    (∀ i, x = .call i → p i) ∧ ∀ y ∈ x.before ++ x.after, y.2.Everywhere p := by
  constructor
  · intro h
    refine ⟨?_, ?_⟩
    · rintro i rfl
      exact h [] i rfl
    · rintro ⟨t, y⟩ hy turns i hi
      refine h (t :: turns) i ?_
      rw [follow, mem_parts_iff.mp hy]
      exact hi
  · rintro ⟨hx, hparts⟩ turns i hi
    cases turns with
    | nil => exact hx i (Option.some.inj hi)
    | cons t turns =>
      obtain ⟨y, hy, hi⟩ := Option.bind_eq_some_iff.mp hi
      exact hparts (t, y) (mem_parts_iff.mpr hy) turns i hi

theorem everywhere_literal (t : String) : (node (.literal t)).Everywhere p := by
  rw [everywhere_iff]
  simp [before, after]

theorem everywhere_reference (q : Option String) (m : String) :
    (node (.reference q m)).Everywhere p := by
  rw [everywhere_iff]
  simp [before, after]

theorem everywhere_binary {l r : Node} {o : String} : (node (.binary l o r)).Everywhere p ↔
    (node l).Everywhere p ∧ (node r).Everywhere p := by
  rw [everywhere_iff]
  simp [before, after]

theorem everywhere_invocation {i : Invocation} :
    (node (.invocation i)).Everywhere p ↔ (call i).Everywhere p := by
  rw [everywhere_iff]
  simp [before, after]

/-- What holds of the members of a list, each taken with its number. -/
theorem forall_mem_zipIdx_iff {α : Type} (q : α → Prop) (xs : List α) :
    (∀ x ∈ xs.zipIdx, q x.1) ↔ ∀ x ∈ xs, q x := by
  have h : (∀ x ∈ xs.zipIdx.map Prod.fst, q x) ↔ ∀ x ∈ xs.zipIdx, q x.1 := List.forall_mem_map
  rw [← h, List.zipIdx_map_fst]

theorem everywhere_parts {c : Child} {i : Nat} : (∀ x ∈ c.parts i, x.2.Everywhere p) ↔
    ∀ n ∈ Java.nodesOf c, (node n).Everywhere p := by
  cases c with
  | node n => simp [Child.parts, Java.nodesOf]
  | sequence ns =>
    rw [Child.parts, List.forall_mem_map]
    exact forall_mem_zipIdx_iff (fun n => (node n).Everywhere p) ns
  | token t => simp [Child.parts, Java.nodesOf]

theorem everywhere_other {k : String} {t : Text.SourceText} {cs : List Child} :
    (node (.other k t cs)).Everywhere p ↔
      ∀ c ∈ cs, ∀ n ∈ Java.nodesOf c, (node n).Everywhere p := by
  have hchildren := forall_mem_zipIdx_iff (fun c => ∀ n ∈ Java.nodesOf c, (node n).Everywhere p) cs
  rw [everywhere_iff, ← hchildren, before, after, List.append_nil, List.forall_mem_flatMap]
  simp only [everywhere_parts, reduceCtorEq, false_implies, implies_true, true_and]

theorem everywhere_call {i : Invocation} : (call i).Everywhere p ↔ p i ∧
    (∀ n ∈ i.receiver, (node n).Everywhere p) ∧ (∀ n ∈ i.arguments, (node n).Everywhere p) ∧
      ∀ s ∈ i.selectors, (call s).Everywhere p := by
  have harguments := forall_mem_zipIdx_iff (fun n => (node n).Everywhere p) i.arguments
  have hselectors := forall_mem_zipIdx_iff (fun s => (call s).Everywhere p) i.selectors
  rw [everywhere_iff, before, after, List.forall_mem_append, List.forall_mem_append,
    List.forall_mem_map, List.forall_mem_map, List.forall_mem_map, ← harguments, ← hselectors]
  simp

end Place

/-! ## Flat calls -/

/-- Nothing is made on a path and on another expression at once, nor on a path or call in the form
of an expression, and the calls made on the result lie side by side. -/
structure Invocation.IsFlat (i : Invocation) : Prop where
  qualifier_or_receiver : i.qualifier = none ∨ i.receiver = none
  receiver_reference : ∀ q m, i.receiver ≠ some (.reference q m)
  receiver_invocation : ∀ j, i.receiver ≠ some (.invocation j)
  selectors_bare : ∀ s ∈ i.selectors, s.qualifier = none ∧ s.receiver = none ∧ s.selectors = []

namespace Invocation

/-- A call on nothing but perhaps a path. -/
theorem isFlat_of_receiver_eq_none {m : String} {q : Option String} {as : List Node}
    {t : Text.SourceText} : (mk m q as [] none t).IsFlat where
  qualifier_or_receiver := Or.inr rfl
  receiver_reference := by simp [receiver]
  receiver_invocation := by simp [receiver]
  selectors_bare := by simp [selectors]

theorem IsFlat.chain {base selector : Invocation} (h : base.IsFlat)
    (hs : selector.qualifier = none ∧ selector.receiver = none ∧ selector.selectors = [])
    (text : Text.SourceText) : (base.chain selector text).IsFlat where
  qualifier_or_receiver := h.qualifier_or_receiver
  receiver_reference := h.receiver_reference
  receiver_invocation := h.receiver_invocation
  selectors_bare := by
    intro s hmem
    rcases List.mem_append.mp hmem with hmem | hmem
    · exact h.selectors_bare s hmem
    · exact List.mem_singleton.mp hmem ▸ hs

end Invocation

theorem Place.everywhere_chain {p : Invocation → Prop} {base selector : Invocation}
    {text : Text.SourceText} (h : (call base).Everywhere p) (hs : (call selector).Everywhere p)
    (hp : p (base.chain selector text)) : (call (base.chain selector text)).Everywhere p := by
  obtain ⟨-, hreceiver, harguments, hselectors⟩ := everywhere_call.mp h
  refine everywhere_call.mpr ⟨hp, hreceiver, harguments, fun s hmem => ?_⟩
  rcases List.mem_append.mp hmem with hmem | hmem
  · exact hselectors s hmem
  · exact List.mem_singleton.mp hmem ▸ hs

end TestConversion.Code

namespace TestConversion.Java

open Text Syntax Code

variable {source : List Char} {t : Tree} {children : List Lowered}

/-! ## A sample -/

def chainSource : String := "class A \x7b void m() \x7b (p).f(q).g(); \x7d \x7d"

/-- The call `(p).f(q)`. -/
def innerCall : Tree :=
  branchAt "method_invocation" (some "object") 21 29 [
    branchAt "parenthesized_expression" (some "object") 21 24 [
      textAt "(" 21, nameAt none 22, textAt ")" 23],
    textAt "." 24,
    nameAt (some "name") 25,
    branchAt "argument_list" (some "arguments") 26 29 [
      textAt "(" 26, nameAt none 27, textAt ")" 28]]

/-- The call `(p).f(q).g()`. -/
def outerCall : Tree :=
  branchAt "method_invocation" none 21 33 [
    innerCall, textAt "." 29, nameAt (some "name") 30,
    branchAt "argument_list" (some "arguments") 31 33 [textAt "(" 31, textAt ")" 32]]

def chainTree : Tree :=
  programAround (branchAt "expression_statement" none 21 34 [outerCall, textAt ";" 33])

theorem valid_outerCall : grammar.Valid outerCall := by
  have h : grammar.Valid chainTree := Grammar.valid_of_recognises 8 (by decide +kernel)
  exact h.of_mem (Tree.mem_preorder_trans (mem_programAround _)
    (Tree.mem_preorder_of_child List.mem_cons_self))

theorem lower_outerCall : lower chainSource.toList outerCall = .node (.invocation (.mk "f" none
    [.name "q"] [.mk "g" none [] [] none ⟨chainSource.toList, 30, 33⟩]
    (some (.other "parenthesized_expression" ⟨chainSource.toList, 21, 24⟩
      [.token "(", .node (.name "p"), .token ")"])) ⟨chainSource.toList, 21, 33⟩)) := by
  rw [lower_eq_lowerUp]
  rfl

/-! ## Lowered calls are flat -/

/-- All calls in a child are flat. -/
def AllFlat (c : Child) : Prop := ∀ n ∈ nodesOf c, (Place.node n).Everywhere Invocation.IsFlat

theorem allFlat_node {n : Node} :
    AllFlat (.node n) ↔ (Place.node n).Everywhere Invocation.IsFlat := by
  simp [AllFlat, nodesOf]

theorem mem_of_nodeIn {field : String} {n : Node} (h : nodeIn field children = some n) :
    ∃ c ∈ children, c.2 = .node n := by
  obtain ⟨⟨f, c⟩, hc, h⟩ := List.exists_of_findSome?_eq_some h
  refine ⟨(f, c), List.mem_reverse.mp hc, ?_⟩
  cases c with
  | node m =>
    simp only [Option.ite_none_right_eq_some, Option.some.injEq] at h
    rw [h.2]
  | sequence | token => cases h

theorem mem_of_childIn {field : String} {c : Child} (h : childIn field children = some c) :
    ∃ d ∈ children, d.2 = c := by
  obtain ⟨d, hd, h⟩ := List.exists_of_findSome?_eq_some h
  simp only [Option.ite_none_right_eq_some, Option.some.injEq] at h
  exact ⟨d, List.mem_reverse.mp hd, h.2⟩

theorem exists_of_mem_getD_nil {α : Type} {o : Option (List α)} {x : α} (h : x ∈ o.getD []) :
    ∃ xs, o = some xs ∧ x ∈ xs := by
  cases o with
  | none => cases h
  | some xs => exact ⟨xs, rfl, h⟩

theorem mem_of_mem_argumentsOf {n : Node} (h : n ∈ argumentsOf children) :
    ∃ c ∈ children, n ∈ nodesOf c.2 := by
  obtain ⟨ns, hns, hn⟩ := exists_of_mem_getD_nil h
  obtain ⟨d, hd, hform⟩ := List.exists_of_findSome?_eq_some hns
  refine ⟨d, List.mem_reverse.mp hd, ?_⟩
  split at hform
  · cases hform
    exact hn
  · cases hform

/-- A call is flat if all that it is made from is. -/
theorem allFlat_invocation? {n : Node} (h : ∀ c ∈ children, AllFlat c.2)
    (hn : invocation? source t children = some n) : AllFlat (.node n) := by
  obtain ⟨name, -, hn⟩ := Option.bind_eq_some_iff.mp hn
  cases hn
  rw [allFlat_node, Place.everywhere_invocation]
  have harguments : ∀ a ∈ argumentsOf children, (Place.node a).Everywhere Invocation.IsFlat := by
    intro a ha
    obtain ⟨c, hc, ha⟩ := mem_of_mem_argumentsOf ha
    exact h c hc a ha
  have hplain (m : String) (q : Option String) (text : SourceText) :
      (Place.call (.mk m q (argumentsOf children) [] none text)).Everywhere Invocation.IsFlat :=
    Place.everywhere_call.mpr
      ⟨Invocation.isFlat_of_receiver_eq_none, by simp [Invocation.receiver], harguments,
        by simp [Invocation.selectors]⟩
  split
  · -- made on another call
    rename_i base hobject
    obtain ⟨d, hd, hbase⟩ := mem_of_childIn hobject
    have hflat := h d hd
    rw [hbase, allFlat_node, Place.everywhere_invocation] at hflat
    refine Place.everywhere_chain hflat (hplain _ _ _) ?_
    exact (Place.everywhere_call.mp hflat).1.chain ⟨rfl, rfl, rfl⟩ _
  · exact hplain _ _ _
  · exact hplain _ _ _
  · -- made on an expression that is neither a call nor a path
    rename_i receiver hcall hpath hname hobject
    obtain ⟨d, hd, hreceiver⟩ := mem_of_childIn hobject
    have hflat := h d hd
    rw [hreceiver, allFlat_node] at hflat
    refine Place.everywhere_call.mpr ⟨?_, ?_, harguments, by simp [Invocation.selectors]⟩
    · exact {
        qualifier_or_receiver := Or.inl rfl
        receiver_reference := by
          intro q m hr
          cases q with
          | some q => exact hpath q m (Option.some.inj hr)
          | none => exact hname m (Option.some.inj hr)
        receiver_invocation := fun j hr => hcall j (Option.some.inj hr)
        selectors_bare := by simp [Invocation.selectors] }
    · rintro r hr
      cases Option.mem_some.mp hr
      exact hflat
  · exact hplain _ _ _

theorem allFlat_binary? {n : Node} (h : ∀ c ∈ children, AllFlat c.2)
    (hn : binary? children = some n) : AllFlat (.node n) := by
  obtain ⟨l, hl, hn⟩ := Option.bind_eq_some_iff.mp hn
  obtain ⟨o, -, hn⟩ := Option.bind_eq_some_iff.mp hn
  obtain ⟨r, hr, hn⟩ := Option.bind_eq_some_iff.mp hn
  cases hn
  obtain ⟨c, hc, hcl⟩ := mem_of_nodeIn hl
  obtain ⟨d, hd, hdr⟩ := mem_of_nodeIn hr
  have hleft := h c hc
  have hright := h d hd
  rw [hcl] at hleft
  rw [hdr] at hright
  exact allFlat_node.mpr
    (Place.everywhere_binary.mpr ⟨allFlat_node.mp hleft, allFlat_node.mp hright⟩)

theorem allFlat_fieldAccess? {n : Node} (hn : fieldAccess? source t children = some n) :
    AllFlat (.node n) := by
  rw [fieldAccess?_eq] at hn
  obtain ⟨field, -, hn⟩ := Option.bind_eq_some_iff.mp hn
  obtain ⟨r, -, rfl⟩ := Option.map_eq_some_iff.mp hn
  exact allFlat_node.mpr (Place.everywhere_reference _ _)

/-- A tree is lowered to flat calls if its children are. -/
theorem allFlat_lower_of_children (h : ∀ c ∈ keptChildren t, AllFlat (lower source c)) :
    AllFlat (lower source t) := by
  have hlowered : ∀ c ∈ (keptChildren t).map (lowered source), AllFlat c.2 :=
    List.forall_mem_map.mpr h
  refine lower_cases source t (motive := AllFlat) ?token ?literal ?name ?sequence ?other
  case token =>
    intro _ n hn
    cases hn
  case literal => exact fun _ _ => allFlat_node.mpr (Place.everywhere_literal _)
  case name => exact fun _ _ _ => allFlat_node.mpr (Place.everywhere_reference _ _)
  case sequence =>
    intro _ _ _ _ n hn
    obtain ⟨c, hc, hn⟩ := List.mem_flatMap.mp hn
    exact h c hc n hn
  case other =>
    intro _ _ _ _
    cases hform : ownForm? source t with
    | none =>
      refine allFlat_node.mpr (Place.everywhere_other.mpr fun c hc => ?_)
      obtain ⟨d, hd, rfl⟩ := List.mem_map.mp hc
      exact h d hd
    | some n =>
      rcases ownForm?_cases hform with ⟨hk, -⟩ | ⟨hk, -⟩ | ⟨hk, -⟩ <;>
        simp only [ownForm?, hk, String.reduceBEq, if_true, if_false, Bool.false_eq_true] at hform
      · exact allFlat_fieldAccess? hform
      · exact allFlat_binary? hlowered hform
      · exact allFlat_invocation? hlowered hform

theorem allFlat_lower (source : List Char) (t : Tree) : AllFlat (lower source t) := by
  induction t using Tree.induction with
  | node t ih =>
    exact allFlat_lower_of_children fun c hc => ih c (List.mem_of_mem_filter hc)

/-- Every call in a lowered tree is flat, wherever it stands: in a statement or sequence, as an
operand, an argument or a receiver, or chained onto another call. -/
theorem lowered_calls_flat (source : List Char) (t : Tree) {n : Node}
    (hn : n ∈ nodesOf (lower source t)) (turns : List Turn) {i : Invocation}
    (hi : (Place.node n).follow turns = some (.call i)) : i.IsFlat :=
  allFlat_lower source t n hn turns i hi

theorem lowered_calls_flat_sample : ∃ n ∈ nodesOf (lower chainSource.toList outerCall), ∃ f g,
    (Place.node n).follow [.base] = some (.call f) ∧ f.IsFlat ∧
      (Place.node n).follow [.base, .selector 0] = some (.call g) ∧ g.IsFlat := by
  have hn := (congrArg (_ ∈ nodesOf ·) lower_outerCall).mpr (List.mem_singleton_self _)
  exact ⟨_, hn, _, _, rfl, lowered_calls_flat _ _ hn [.base] rfl,
    rfl, lowered_calls_flat _ _ hn [.base, .selector 0] rfl⟩

/-! ## Lowered chains -/

/-- The name of a call. -/
def memberOf (source : List Char) (t : Tree) : String :=
  ((t.childIn "name").map (nodeText source)).getD ""

/-- The text of a call from its name on. -/
def textFromName (source : List Char) (t : Tree) : SourceText :=
  ⟨source, ((t.childIn "name").map (·.span.start)).getD 0, t.span.stop⟩

/-- What a call on the result of another one is chained onto that one as. -/
def selectorOf (source : List Char) (t : Tree) : Invocation :=
  .mk (memberOf source t) none (argumentNodes source t) [] none (textFromName source t)

/-- The expression that a call is made on, if it is neither a path nor a call. -/
def receiverOf : Child → Option Node
  | .node (.reference _ _) => none
  | .node (.invocation _) => none
  | .node n => some n
  | _ => none

theorem lower_of_invocation? {i : Invocation} (hn : t.named = true) (hc : isCall t = true)
    (h : invocation? source t ((keptChildren t).map (lowered source)) = some (.invocation i)) :
    lower source t = .node (.invocation i) := by
  have hk : t.kind = "method_invocation" := eq_of_beq hc
  apply lower_of_ownForm? hn
  simp [ownForm?, hk, h]

/-- A call on the result of another one joins the calls chained onto that one. -/
theorem lower_call_of_call {o : Tree} {base : Invocation} (h : grammar.Valid t)
    (hc : isCall t = true) (ho : t.childIn "object" = some o)
    (hbase : lower source o = .node (.invocation base)) :
    lower source t = .node (.invocation
      (base.chain (selectorOf source t) (sourceTextOf source t))) := by
  obtain ⟨hn, object, between, name, arguments, s⟩ := exists_callShape h.licenses (eq_of_beq hc)
  apply lower_of_invocation? hn hc
  obtain rfl : object = some o := (s.childIn_object h).symm.trans ho
  rw [invocation?, s.childIn_name h, s.argumentsOf_eq, s.childIn_lowered_object, Option.map_some,
    hbase, selectorOf, memberOf, argumentNodes, textFromName, s.childIn_name h,
    s.childIn_arguments h]
  rfl

/-- A call on anything but a call. -/
theorem lower_call_of_base (h : grammar.Valid t) (hc : isCall t = true)
    (hbase : ∀ o ∈ t.childIn "object", ∀ i, lower source o ≠ .node (.invocation i)) :
    lower source t = .node (.invocation (.mk (memberOf source t)
      ((t.childIn "object").bind fun o => qualifierOf (lower source o)) (argumentNodes source t) []
      ((t.childIn "object").bind fun o => receiverOf (lower source o))
      (sourceTextOf source t))) := by
  obtain ⟨hn, object, between, name, arguments, s⟩ := exists_callShape h.licenses (eq_of_beq hc)
  apply lower_of_invocation? hn hc
  rw [s.childIn_object h] at hbase ⊢
  rw [invocation?, s.childIn_name h, s.argumentsOf_eq, s.childIn_lowered_object, memberOf,
    argumentNodes, s.childIn_name h, s.childIn_arguments h]
  cases object with
  | none => rfl
  | some o =>
    obtain ⟨n, hlower⟩ := (s.object_expression o rfl).lower_eq_node source
    rw [Option.map_some, hlower, Option.bind_some, Option.bind_some, hlower]
    cases n with
    | invocation i => exact absurd hlower (hbase o rfl i)
    | reference q m => cases q <;> rfl
    | literal | binary | other => rfl

/-! ## What calls are made on -/

/-- Only calls are lowered to calls. -/
theorem isCall_of_lower_eq {i : Invocation} (h : lower source t = .node (.invocation i)) :
    isCall t = true := by
  revert h
  refine lower_cases source t (motive := fun c => c = .node (.invocation i) → isCall t = true)
    ?token ?literal ?name ?sequence ?other
  case token =>
    intro _ h
    cases h
  case literal =>
    intro _ _ h
    cases h
  case name =>
    intro _ _ _ h
    cases h
  case sequence =>
    intro _ _ _ _ h
    cases h
  case other =>
    intro _ _ _ _ h
    cases hform : ownForm? source t with
    | none =>
      rw [hform] at h
      cases h
    | some n =>
      rw [hform] at h
      cases h
      rcases ownForm?_cases hform with ⟨-, _, _, h⟩ | ⟨-, _, _, _, h⟩ | ⟨hk, -⟩
      · cases h
      · cases h
      · exact beq_iff_eq.mpr hk

/-- Only names and field accesses are lowered to references. -/
theorem of_isSome_reference? (h : (reference? (lower source t)).isSome = true) :
    t.named = true ∧ (isName t = true ∨ t.kind = "field_access") := by
  rw [reference?_lower] at h
  split at h
  · cases h
  · rename_i hn
    rw [Bool.not_eq_true, Bool.or_eq_false_iff, Bool.not_eq_false'] at hn
    refine ⟨hn.1, ?_⟩
    split at h
    · rename_i hk
      exact Or.inl (by rw [isName, hn.1, hk, Bool.and_self])
    · split at h
      · rename_i hk
        exact Or.inr (eq_of_beq hk)
      · cases h

/-- The named children of a field access are paths if the first one is. -/
theorem FieldShape.isPath {object field : Tree} {dots : List Tree}
    (s : FieldShape t object dots field) (hk : t.kind = "field_access") (ho : IsPath object) :
    IsPath t := by
  refine .access hk fun c hc hnamed => ?_
  rw [s.kept] at hc
  rcases List.mem_cons.mp hc with rfl | hc
  · exact ho
  · rcases List.mem_append.mp hc with hc | hc
    · rcases s.dots.isNode hc with hd | hs
      · rw [hd.named] at hnamed
        cases hnamed
      · exact .name (isName_super hs)
    · exact .name (List.mem_singleton.mp hc ▸ s.field_name)

/-- Only paths are lowered to references. -/
theorem isPath_of_isSome_reference? (h : grammar.Valid t)
    (hr : (reference? (lower source t)).isSome = true) : IsPath t := by
  induction t using Tree.induction with
  | node t ih =>
    obtain ⟨hn, hname | hk⟩ := of_isSome_reference? hr
    · exact .name hname
    · obtain ⟨-, object, dots, field, s⟩ := exists_fieldShape h.licenses hk
      have hobject : object ∈ t.children := mem_children_of_kept s.kept List.mem_cons_self
      rw [s.reference?_lower h hn hk, Option.isSome_map] at hr
      exact s.isPath hk (ih object hobject (h.of_child hobject) hr)

/-! ## Chains -/

/-- Calls of which each is made on the result of the one before: the first one, which is not made on
a call, the others in order, and the last of all. -/
inductive CallChain (first : Tree) : List Tree → Tree → Prop
  | one (hc : isCall first = true) (ho : ∀ o ∈ first.childIn "object", isCall o = false) :
    CallChain first [] first
  | call {rest : List Tree} {last t : Tree} (h : CallChain first rest last)
    (hc : isCall t = true) (ho : t.childIn "object" = some last) :
    CallChain first (rest ++ [t]) t

theorem callChain_outerCall : CallChain innerCall [outerCall] outerCall := by
  have ho : ∀ o ∈ innerCall.childIn "object", isCall o = false := by
    intro o ho
    cases Option.mem_some.mp ho
    rfl
  exact .call (.one rfl ho) rfl rfl

/-- A lowered call has the name and the lowered arguments of a call in the tree. -/
structure HasOwnParts (source : List Char) (t : Tree) (i : Invocation) : Prop where
  member : (t.childIn "name").map (nodeText source) = some i.member
  arguments : List.Forall₂ (fun e n => lower source e = .node n) (argumentExpressions t) i.arguments

/-- A lowered call is made on what a call in the tree is made on: on nothing, on a path as its
qualifier, or on any other expression as its receiver. -/
structure IsBase (source : List Char) (t : Tree) (i : Invocation) : Prop
    extends HasOwnParts source t i where
  bare : t.childIn "object" = none → i.qualifier = none ∧ i.receiver = none
  path : ∀ o, t.childIn "object" = some o → IsPath o →
    i.qualifier = some (".".intercalate (namesShown source o)) ∧ i.receiver = none
  other : ∀ o, t.childIn "object" = some o → ¬ IsPath o →
    i.qualifier = none ∧ ∃ n, lower source o = .node n ∧ i.receiver = some n

/-- A lowered call stands for a call on the result of another one, and its text goes from its own
name to its own end. -/
structure IsSelector (source : List Char) (t : Tree) (i : Invocation) : Prop
    extends HasOwnParts source t i where
  bare : i.qualifier = none ∧ i.receiver = none ∧ i.selectors = []
  text : ∃ name, t.childIn "name" = some name ∧ i.text = ⟨source, name.span.start, t.span.stop⟩

theorem receiverOf_of_reference? {c : Child} (h : (reference? c).isSome = true) :
    receiverOf c = none := by
  cases c with
  | node n =>
    cases n with
    | reference q m => rfl
    | literal | binary | invocation | other => cases h
  | sequence | token => rfl

theorem receiverOf_node {n : Node} (hr : reference? (.node n) = none)
    (hi : ∀ i, n ≠ .invocation i) : receiverOf (.node n) = some n := by
  cases n with
  | reference q m => cases hr
  | invocation i => exact absurd rfl (hi i)
  | literal | binary | other => rfl

theorem hasOwnParts (h : grammar.Valid t) (hc : isCall t = true) (source : List Char)
    (q : Option String) (ss : List Invocation) (r : Option Node) (text : SourceText) :
    HasOwnParts source t (.mk (memberOf source t) q (argumentNodes source t) ss r text) where
  member := by
    obtain ⟨-, object, between, name, arguments, s⟩ := exists_callShape h.licenses (eq_of_beq hc)
    rw [memberOf, s.childIn_name h]
    rfl
  arguments := (forall₂_argumentNodes h hc source).2

theorem isSelector_selectorOf (h : grammar.Valid t) (hc : isCall t = true) (source : List Char) :
    IsSelector source t (selectorOf source t) where
  toHasOwnParts := hasOwnParts h hc source _ _ _ _
  bare := ⟨rfl, rfl, rfl⟩
  text := by
    obtain ⟨-, object, between, name, arguments, s⟩ := exists_callShape h.licenses (eq_of_beq hc)
    refine ⟨name, s.childIn_name h, ?_⟩
    rw [selectorOf, textFromName, s.childIn_name h]
    rfl

/-- The first call of a chain on its own. -/
theorem exists_isBase (h : grammar.Valid t) (hc : isCall t = true)
    (ho : ∀ o ∈ t.childIn "object", isCall o = false) (source : List Char) :
    ∃ base, lower source t = .node (.invocation base) ∧ IsBase source t base ∧
      base.selectors = [] ∧ base.text = sourceTextOf source t := by
  have hnot : ∀ o ∈ t.childIn "object", ∀ i, lower source o ≠ .node (.invocation i) := by
    intro o hmem i hlower
    have hcall := isCall_of_lower_eq hlower
    rw [ho o hmem] at hcall
    cases hcall
  refine ⟨_, lower_call_of_base h hc hnot, ?_, rfl, rfl⟩
  refine {
    toHasOwnParts := hasOwnParts h hc source _ _ _ _
    bare := fun hnone => ?_
    path := fun o hmem hp => ?_
    other := fun o hmem hp => ?_ }
  · simp only [Invocation.qualifier, Invocation.receiver, hnone, Option.bind_none, and_self]
  · obtain ⟨-, r, hr, hdotted⟩ := lower_path (h.of_mem (mem_preorder_of_childIn hmem)) hp source
    simp only [Invocation.qualifier, Invocation.receiver, hmem, Option.bind_some]
    rw [qualifierOf_eq, receiverOf_of_reference? (by rw [hr]; rfl), hr, Option.map_some, hdotted]
    exact ⟨rfl, rfl⟩
  · obtain ⟨-, object, between, name, arguments, s⟩ := exists_callShape h.licenses (eq_of_beq hc)
    have hobject := (s.childIn_object h).symm.trans hmem
    obtain ⟨n, hlower⟩ := (s.object_expression o hobject).lower_eq_node source
    have hreference : reference? (lower source o) = none := by
      rw [← Option.not_isSome_iff_eq_none]
      exact fun hr => hp (isPath_of_isSome_reference? (h.of_mem (mem_preorder_of_childIn hmem)) hr)
    rw [hlower] at hreference
    have hreceiver := receiverOf_node hreference fun i hi => hnot o hmem i (hi ▸ hlower)
    simp only [Invocation.qualifier, Invocation.receiver, hmem, Option.bind_some, hlower,
      qualifierOf_eq, hreference, hreceiver, Option.map_none, true_and]
    exact ⟨n, rfl, rfl⟩

/-- One more call on the result of a chain. -/
theorem IsBase.chain {base selector : Invocation} (h : IsBase source t base) (text : SourceText) :
    IsBase source t (base.chain selector text) :=
  ⟨⟨h.member, h.arguments⟩, h.bare, h.path, h.other⟩

/-- A chain of calls, of any length and on anything, is lowered to one call, the first one. It keeps
what that one is made on and its arguments, carries all others in order with their own names,
arguments and texts, and has the text of the whole chain, which it is spelled as in an argument. -/
theorem chain_flattened {first last : Tree} {rest : List Tree} (hchain : CallChain first rest last)
    (h : grammar.Valid last) (source : List Char) :
    ∃ base, lower source last = .node (.invocation base) ∧ IsBase source first base ∧
      List.Forall₂ (IsSelector source) rest base.selectors ∧
      base.text = sourceTextOf source last ∧
      (Node.invocation base).spelling = collapse (nodeText source last) := by
  suffices hbase : ∃ base, lower source last = .node (.invocation base) ∧
      IsBase source first base ∧ List.Forall₂ (IsSelector source) rest base.selectors ∧
        base.text = sourceTextOf source last by
    obtain ⟨base, hlower, hfirst, hrest, htext⟩ := hbase
    refine ⟨base, hlower, hfirst, hrest, htext, ?_⟩
    rw [Node.spelling_invocation, htext]
    rfl
  induction hchain with
  | one hc ho =>
    obtain ⟨base, hlower, hfirst, hselectors, htext⟩ := exists_isBase h hc ho source
    exact ⟨base, hlower, hfirst, by rw [hselectors]; exact .nil, htext⟩
  | call _ hc ho ih =>
    obtain ⟨base, hlower, hfirst, hrest, -⟩ := ih (h.of_mem (mem_preorder_of_childIn ho))
    refine ⟨_, lower_call_of_call h hc ho hlower, hfirst.chain _, ?_, rfl⟩
    exact List.rel_append hrest (.cons (isSelector_selectorOf h hc source) .nil)

theorem chain_flattened_sample :
    CallChain innerCall [outerCall] outerCall ∧ grammar.Valid outerCall ∧
      ∃ base, lower chainSource.toList outerCall = .node (.invocation base) ∧
        IsBase chainSource.toList innerCall base ∧
        List.Forall₂ (IsSelector chainSource.toList) [outerCall] base.selectors ∧
        base.text = sourceTextOf chainSource.toList outerCall ∧
        (Node.invocation base).spelling = collapse (nodeText chainSource.toList outerCall) :=
  ⟨callChain_outerCall, valid_outerCall,
    chain_flattened callChain_outerCall valid_outerCall chainSource.toList⟩

end TestConversion.Java
