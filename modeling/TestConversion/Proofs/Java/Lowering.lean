import TestConversion.Proofs.Java.Listing
import TestConversion.Proofs.Code.Discovery

/-!
# Lowering by recursion

A node is assembled from the lowered forms of its own children, so what a node is lowered to depends
on its kind and on those alone.

* `lower_eq`: the lowered form of a tree in terms of those of its children.
* `callsOf_methodOf?`: the calls of a method are those of the lowered form of its body.
-/

namespace TestConversion.Java

open Text Syntax Code

/-- A lowered tree with the field that it fills. -/
def lowered (source : List Char) (t : Tree) : Lowered := (t.field, lower source t)

theorem lower_eq (source : List Char) (t : Tree) :
    lower source t = assemble source t ((keptChildren t).map (lowered source)) := by
  have hlowered : lowered source = loweredUp source := by
    funext t
    rw [lowered, lower_eq_lowerUp, loweredUp]
  rw [hlowered, lower_eq_lowerUp, lowerUp_eq]

/-! ## Forms of kinds -/

theorem lower_of_not_named (source : List Char) {t : Tree} (hn : t.named = false) :
    lower source t = .token (nodeText source t) := by
  rw [lower_eq, assemble, hn]
  rfl

theorem lower_of_literal (source : List Char) {t : Tree} (hn : t.named = true)
    (hl : literalKinds.contains t.kind = true) :
    lower source t = .node (.literal (nodeText source t)) := by
  rw [lower_eq, assemble, hn, hl]
  rfl

theorem lower_of_name (source : List Char) {t : Tree} (hn : t.named = true)
    (hl : literalKinds.contains t.kind = false) (hk : nameKinds.contains t.kind = true) :
    lower source t = .node (.name (nodeText source t)) := by
  rw [lower_eq, assemble, hn, hl, hk]
  rfl

theorem lower_of_sequence (source : List Char) {t : Tree} (hn : t.named = true)
    (hl : literalKinds.contains t.kind = false) (hk : nameKinds.contains t.kind = false)
    (hs : sequenceKinds.contains t.kind = true) :
    lower source t = .sequence ((keptChildren t).flatMap fun c => nodesOf (lower source c)) := by
  rw [lower_eq, assemble, hn, hl, hk, hs, List.flatMap_map]
  rfl

/-- Any other construct in its general form. -/
def generalForm (source : List Char) (t : Tree) : Node :=
  .other t.kind (sourceTextOf source t) ((keptChildren t).map (lower source))

/-- The form that a kind has of its own. -/
def ownForm? (source : List Char) (t : Tree) : Option Node :=
  let children := (keptChildren t).map (lowered source)
  if t.kind == "field_access" then fieldAccess? source t children
  else if t.kind == "binary_expression" then binary? children
  else if t.kind == "method_invocation" then invocation? source t children
  else none

theorem lower_of_other (source : List Char) {t : Tree} (hn : t.named = true)
    (hl : literalKinds.contains t.kind = false) (hk : nameKinds.contains t.kind = false)
    (hs : sequenceKinds.contains t.kind = false) :
    lower source t = .node ((ownForm? source t).getD (generalForm source t)) := by
  rw [lower_eq, assemble, hn, hl, hk, hs, generalForm, ownForm?, List.map_map]
  rfl

/-- What forms of their own can be. -/
theorem ownForm?_cases {source : List Char} {t : Tree} {n : Node} (h : ownForm? source t = some n) :
    (t.kind = "field_access" ∧ ∃ q m, n = .reference q m) ∨
      (t.kind = "binary_expression" ∧ ∃ l o r, n = .binary l o r) ∨
        t.kind = "method_invocation" ∧ ∃ i, n = .invocation i := by
  rw [ownForm?] at h
  split at h
  · rename_i hk
    rw [fieldAccess?] at h
    obtain ⟨_, -, h⟩ := Option.bind_eq_some_iff.mp h
    obtain ⟨_, -, h⟩ := Option.bind_eq_some_iff.mp h
    cases h
    exact Or.inl ⟨eq_of_beq hk, _, _, rfl⟩
  · split at h
    · rename_i hk
      rw [binary?] at h
      obtain ⟨_, -, h⟩ := Option.bind_eq_some_iff.mp h
      obtain ⟨_, -, h⟩ := Option.bind_eq_some_iff.mp h
      obtain ⟨_, -, h⟩ := Option.bind_eq_some_iff.mp h
      cases h
      exact Or.inr (Or.inl ⟨eq_of_beq hk, _, _, _, rfl⟩)
    · split at h
      · rename_i hk
        rw [invocation?] at h
        obtain ⟨_, -, h⟩ := Option.bind_eq_some_iff.mp h
        cases h
        exact Or.inr (Or.inr ⟨eq_of_beq hk, _, rfl⟩)
      · cases h

theorem lower_of_ownForm? {source : List Char} {t : Tree} {n : Node} (hn : t.named = true)
    (h : ownForm? source t = some n) : lower source t = .node n := by
  rw [lower_of_other source hn, h]
  · rfl
  all_goals
    rcases ownForm?_cases h with ⟨hk, -⟩ | ⟨hk, -⟩ | ⟨hk, -⟩ <;> rw [hk] <;> decide +kernel

/-- What lowered forms can be. -/
theorem lower_cases (source : List Char) (t : Tree) {motive : Child → Prop}
    (token : t.named = false → motive (.token (nodeText source t)))
    (literal : t.named = true → literalKinds.contains t.kind = true →
      motive (.node (.literal (nodeText source t))))
    (name : t.named = true → literalKinds.contains t.kind = false →
      nameKinds.contains t.kind = true → motive (.node (.name (nodeText source t))))
    (sequence : t.named = true → literalKinds.contains t.kind = false →
      nameKinds.contains t.kind = false → sequenceKinds.contains t.kind = true →
      motive (.sequence ((keptChildren t).flatMap fun c => nodesOf (lower source c))))
    (other : t.named = true → literalKinds.contains t.kind = false →
      nameKinds.contains t.kind = false → sequenceKinds.contains t.kind = false →
      motive (.node ((ownForm? source t).getD (generalForm source t)))) :
    motive (lower source t) := by
  cases hn : t.named with
  | false => exact (lower_of_not_named source hn) ▸ token hn
  | true =>
    cases hl : literalKinds.contains t.kind with
    | true => exact (lower_of_literal source hn hl) ▸ literal hn hl
    | false =>
      cases hk : nameKinds.contains t.kind with
      | true => exact (lower_of_name source hn hl hk) ▸ name hn hl hk
      | false =>
        cases hs : sequenceKinds.contains t.kind with
        | true => exact (lower_of_sequence source hn hl hk hs) ▸ sequence hn hl hk hs
        | false => exact (lower_of_other source hn hl hk hs) ▸ other hn hl hk hs

/-! ## Calls -/

theorem callsOfList_nodesOf (c : Child) (mode : Mode) :
    Node.callsOfList (nodesOf c) mode = c.calls mode := by
  cases c with
  | node n => simp [nodesOf, Node.callsOfList, Child.calls]
  | sequence ns => rfl
  | token s => rfl

theorem calls_generalForm (source : List Char) (t : Tree) (mode : Mode) :
    (generalForm source t).calls mode =
      (keptChildren t).flatMap fun c => (lower source c).calls mode := by
  rw [generalForm, Node.calls, Child.callsOfList_eq, List.flatMap_map]

theorem callsOf_methodOf? {source : List Char} {t b : Tree} {m : Method}
    (hm : methodOf? source t = some m) (hb : t.childIn "body" = some b) :
    callsOf m = (lower source b).callsWithin .record := by
  rw [methodOf?, hb] at hm
  obtain ⟨name, -, hm⟩ := Option.bind_eq_some_iff.mp hm
  cases hm
  rw [callsOf_eq, ← Child.calls_record, ← callsOfList_nodesOf]
  rfl

theorem methodOf?_isSome (source : List Char) {t : Tree} (h : (t.childIn "name").isSome = true) :
    ∃ m, methodOf? source t = some m := by
  obtain ⟨name, hname⟩ := Option.isSome_iff_exists.mp h
  rw [methodOf?, hname]
  exact ⟨_, rfl⟩

end TestConversion.Java
