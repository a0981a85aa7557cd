import TestConversion.Proofs.Java.Lowering
import TestConversion.Proofs.Java.Shape

/-!
# Calls of lowered forms

Calls, operations and field accesses of a valid tree are lowered to forms of their own. What is
found in such a form is found in the lowered children of the node.

* `callOf`: what a call is recorded as.
* `CallShape.calls_invocation?`: a call is found after what it is made on and before its arguments,
  whether or not it is chained onto another one.
* `BinaryShape.calls_binary?`: operations.
* `AccessShape.calls_eq_nil`: a field access that reads as a path loses no call.
-/

namespace TestConversion.Java

open Text Syntax Code

variable {source : List Char} {t : Tree}

/-! ## Children by field -/

theorem find?_filter_of_imp {α : Type} {p q : α → Bool} {xs : List α}
    (h : ∀ x ∈ xs, p x = true → q x = true) : (xs.filter q).find? p = xs.find? p := by
  induction xs with
  | nil => rfl
  | cons x xs ih =>
    have ih := ih fun y hy => h y (List.mem_cons_of_mem x hy)
    have hx := h x List.mem_cons_self
    rw [List.filter_cons, List.find?_cons]
    cases hp : p x with
    | true => rw [if_pos (hx hp), List.find?_cons, hp]
    | false =>
      split
      · rw [List.find?_cons, hp, ih]
      · exact ih

/-- The children that fill a field. -/
def fillers (field : String) (t : Tree) : List Tree :=
  (keptChildren t).filter fun c => c.field == some field

/-- Comments fill no field. -/
theorem childIn_eq (h : grammar.Valid t) (field : String) :
    t.childIn field = (fillers field t).head? := by
  rw [fillers, List.head?_filter, Tree.childIn, keptChildren, find?_filter_of_imp]
  intro c hc hf
  cases hx : c.extra with
  | false => rfl
  | true =>
    obtain ⟨-, hn, -⟩ := (h.of_child hc).licenses.named_of_extra hx
    rw [hn] at hf
    cases hf

namespace CallShape

variable {object : Option Tree} {between : List Tree} {name arguments : Tree}

theorem filter_between (s : CallShape t object between name arguments) {field : String}
    (hf : field ≠ "type_arguments") :
    between.filter (fun c => c.field == some field) = [] := by
  rw [List.filter_eq_nil_iff]
  intro c hc
  rcases s.between_field c hc with ⟨h, -⟩ | h
  · simp [h]
  · simpa [h] using hf.symm

theorem fillers_object (s : CallShape t object between name arguments) :
    fillers "object" t = object.toList := by
  rw [fillers, s.kept, List.filter_append, List.filter_append, s.filter_between (by decide)]
  cases object with
  | none => simp [s.name_field, s.arguments_field]
  | some o => simp [s.name_field, s.arguments_field, s.object_field o rfl]

theorem fillers_name (s : CallShape t object between name arguments) :
    fillers "name" t = [name] := by
  rw [fillers, s.kept, List.filter_append, List.filter_append, s.filter_between (by decide)]
  cases object with
  | none => simp [s.name_field, s.arguments_field]
  | some o => simp [s.name_field, s.arguments_field, s.object_field o rfl]

theorem fillers_arguments (s : CallShape t object between name arguments) :
    fillers "arguments" t = [arguments] := by
  rw [fillers, s.kept, List.filter_append, List.filter_append, s.filter_between (by decide)]
  cases object with
  | none => simp [s.name_field, s.arguments_field]
  | some o => simp [s.name_field, s.arguments_field, s.object_field o rfl]

theorem childIn_object (s : CallShape t object between name arguments) (h : grammar.Valid t) :
    t.childIn "object" = object := by
  rw [childIn_eq h, s.fillers_object]
  cases object <;> rfl

theorem childIn_name (s : CallShape t object between name arguments) (h : grammar.Valid t) :
    t.childIn "name" = some name := by
  rw [childIn_eq h, s.fillers_name]
  rfl

theorem childIn_arguments (s : CallShape t object between name arguments)
    (h : grammar.Valid t) : t.childIn "arguments" = some arguments := by
  rw [childIn_eq h, s.fillers_arguments]
  rfl

/-! ## Calls -/

theorem lower_arguments (source : List Char)
    (s : CallShape t object between name arguments) :
    ∃ ns, lower source arguments = .sequence ns := by
  refine ⟨_, lower_of_sequence source s.arguments_named ?_ ?_ ?_⟩ <;>
    rw [s.arguments_kind] <;> decide +kernel

theorem argumentsOf_eq (s : CallShape t object between name arguments) :
    argumentsOf ((keptChildren t).map (lowered source)) = nodesOf (lower source arguments) := by
  obtain ⟨ns, hns⟩ := s.lower_arguments source
  rw [argumentsOf, s.kept]
  simp [lowered, s.arguments_field, hns, nodesOf]

theorem childIn_lowered_object (s : CallShape t object between name arguments) :
    Java.childIn "object" ((keptChildren t).map (lowered source)) =
      object.map (lower source) := by
  have hbetween : (between.map (lowered source)).reverse.findSome?
      (fun c => if c.1 == some "object" then some c.2 else none) = none := by
    rw [List.findSome?_eq_none_iff]
    intro c hc
    obtain ⟨d, hd, rfl⟩ := List.mem_map.mp (List.mem_reverse.mp hc)
    rcases s.between_field d hd with ⟨h, -⟩ | h <;> simp [lowered, h]
  rw [Java.childIn, s.kept, List.map_append, List.map_append, List.reverse_append,
    List.reverse_append, List.findSome?_append, List.findSome?_append, hbetween]
  cases object with
  | none => simp [lowered, s.name_field, s.arguments_field]
  | some o => simp [lowered, s.name_field, s.arguments_field, s.object_field o rfl]

end CallShape

/-- The path that a lowered expression spells, if it is a name or a dotted path. -/
def qualifierOf : Child → Option String
  | .node (.reference (some q) last) => some (q ++ "." ++ last)
  | .node (.reference none last) => some last
  | _ => none

/-- What a node of a call is recorded as. -/
def callOf (source : List Char) (t : Tree) : Call where
  method := ((t.childIn "name").map (nodeText source)).getD ""
  qualifier := (t.childIn "object").bind fun o => qualifierOf (lower source o)
  arguments := ((t.childIn "arguments").map fun a =>
    (nodesOf (lower source a)).map Node.spelling).getD []

theorem IsExpression.lower_eq_node {o : Tree} (h : IsExpression o) (source : List Char) :
    ∃ n, lower source o = .node n := by
  refine lower_cases source o (motive := fun c => ∃ n, c = .node n)
    ?token ?literal ?name ?sequence ?other
  case token =>
    intro hn
    rw [h.named] at hn
    cases hn
  case literal => exact fun _ _ => ⟨_, rfl⟩
  case name => exact fun _ _ _ => ⟨_, rfl⟩
  case sequence =>
    intro _ _ _ hs
    have hkind := h.kind
    rw [isNodeKind, hs] at hkind
    cases hkind
  case other => exact fun _ _ _ _ => ⟨_, rfl⟩

/-- The calls of a call: those of what it is made on, itself, and those of its arguments. -/
theorem CallShape.calls_invocation? {object : Option Tree} {between : List Tree}
    {name arguments : Tree} (s : CallShape t object between name arguments)
    (h : grammar.Valid t) (source : List Char) : ∃ i,
      invocation? source t ((keptChildren t).map (lowered source)) = some (.invocation i) ∧
      ∀ mode, i.calls mode =
        (object.toList.flatMap fun o => (lower source o).calls mode) ++
          ((if mode = .record then [callOf source t] else []) ++
            (lower source arguments).calls .argument) := by
  have hcall : callOf source t = ⟨nodeText source name,
      object.bind fun o => qualifierOf (lower source o),
      (nodesOf (lower source arguments)).map Node.spelling⟩ := by
    rw [callOf, s.childIn_name h, s.childIn_object h, s.childIn_arguments h]
    rfl
  rw [invocation?, s.childIn_name h, s.argumentsOf_eq, s.childIn_lowered_object, hcall]
  refine ⟨_, rfl, fun mode => ?_⟩
  rw [← callsOfList_nodesOf (lower source arguments)]
  cases object with
  | none =>
    rw [Option.map_none]
    simp only
    rw [Invocation.calls_mk]
    rfl
  | some o =>
    obtain ⟨n, hn⟩ := (s.object_expression o rfl).lower_eq_node source
    rw [Option.map_some, hn]
    simp only [Option.toList_some, List.flatMap_singleton, hn, Child.calls, Option.bind_some]
    cases n with
    | invocation i =>
      -- chained onto the call that it is made on
      rw [Invocation.calls_chain, Invocation.calls_mk]
      rfl
    | reference q last => cases q <;> simp only [Invocation.calls_mk] <;> rfl
    | literal | binary | other =>
      simp only [Invocation.calls_mk, Option.toList_some, List.flatMap_singleton]
      rfl

/-! ## Operations and field accesses -/

theorem literalKinds_of_nameKinds {kind : String} (h : nameKinds.contains kind = true) :
    literalKinds.contains kind = false := by
  have hall : nameKinds.all (fun k => !literalKinds.contains k) = true := by decide +kernel
  have := List.all_eq_true.mp hall kind (List.contains_iff_mem.mp h)
  rwa [Bool.not_eq_true'] at this

theorem IsWord.calls_lower {c : Tree} (h : IsWord c) (mode : Mode) :
    (lower source c).calls mode = [] ∧ (lower source c).callsWithin mode = [] := by
  cases hn : c.named with
  | false =>
    rw [lower_of_not_named source hn]
    exact ⟨rfl, rfl⟩
  | true =>
    have hk : nameKinds.contains c.kind = true := by
      rcases h with h | h
      · rw [hn] at h
        cases h
      · exact h
    rw [lower_of_name source hn (literalKinds_of_nameKinds hk) hk]
    simp [Child.calls, Child.callsWithin, Node.name, Node.calls]

/-- An operation is lowered to one of its lowered operands. -/
theorem BinaryShape.binary?_eq {left operator right : Tree}
    (s : BinaryShape t left operator right) (source : List Char) : ∃ l r,
      lower source left = .node l ∧ lower source right = .node r ∧
        binary? ((keptChildren t).map (lowered source)) =
          some (.binary l (nodeText source operator) r) := by
  obtain ⟨l, hl⟩ := s.left_expression.lower_eq_node source
  obtain ⟨r, hr⟩ := s.right_expression.lower_eq_node source
  have ho := lower_of_not_named source s.operator_named
  refine ⟨l, r, hl, hr, ?_⟩
  rw [s.kept]
  simp [binary?, nodeIn, tokenIn, lowered, s.left_field, s.operator_field, s.right_field, hl, ho, hr]

/-- The calls of an operation are those of its operands. -/
theorem BinaryShape.calls_binary? {left operator right : Tree}
    (s : BinaryShape t left operator right) (source : List Char) : ∃ n,
      binary? ((keptChildren t).map (lowered source)) = some n ∧ ∀ mode, n.calls mode =
        (lower source left).callsWithin mode ++ (lower source right).callsWithin mode := by
  obtain ⟨l, r, hl, hr, hn⟩ := s.binary?_eq source
  refine ⟨_, hn, fun mode => ?_⟩
  rw [hl, hr]
  rfl

/-- A field access that reads as a path has no calls in it. -/
theorem AccessShape.calls_eq_nil {object : Tree} {rest : List Tree}
    (s : AccessShape t object rest) {n : Node}
    (hn : fieldAccess? source t ((keptChildren t).map (lowered source)) = some n) (mode : Mode) :
    n.calls mode = [] ∧ ∀ c ∈ keptChildren t, (lower source c).calls mode = [] := by
  rw [fieldAccess?] at hn
  obtain ⟨field, -, hn⟩ := Option.bind_eq_some_iff.mp hn
  obtain ⟨⟨q, m⟩, hq, hn⟩ := Option.bind_eq_some_iff.mp hn
  cases hn
  refine ⟨rfl, fun c hc => ?_⟩
  obtain ⟨d, hd, hform⟩ := List.exists_of_findSome?_eq_some hq
  obtain ⟨o, ho, rfl⟩ := List.mem_map.mp hd
  have hobject : o.field = some "object" ∧ ∃ q m, lower source o = .node (.reference q m) := by
    rw [lowered] at hform
    split at hform
    · rename_i heq
      rw [Prod.mk.injEq] at heq
      exact ⟨heq.1, _, _, heq.2⟩
    · cases hform
  rw [s.kept] at hc ho
  rcases List.mem_cons.mp hc with rfl | hc
  · rcases List.mem_cons.mp ho with rfl | ho
    · obtain ⟨-, _, _, hlower⟩ := hobject
      rw [hlower]
      rfl
    · exact absurd hobject.1 (s.rest_words o ho).2
  · exact ((s.rest_words c hc).1.calls_lower mode).1

end TestConversion.Java
