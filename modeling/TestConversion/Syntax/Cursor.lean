import TestConversion.Syntax.Tree

/-!
# Cursors

A cursor stands at a node of a tree and knows what stands to the right of it and of each node above
it. It moves to the first child, to the next sibling or back to the parent. By these moves it comes
to the nodes one after another, each before its children.

* `pending_eq`: a move takes one node off those that are still to come.
-/

namespace TestConversion.Syntax

structure Cursor where
  node : Tree
  /-- The siblings to the right. -/
  right : List Tree
  /-- The nodes above, the nearest first, each with its siblings to the right. -/
  above : List (Tree × List Tree)

namespace Cursor

/-- At the root there is nothing beside the node and nothing above it. -/
def start (root : Tree) : Cursor := ⟨root, [], []⟩

/-! ## Moves -/

def firstChild? (c : Cursor) : Option Cursor :=
  match c.node.children with
  | [] => none
  | t :: ts => some ⟨t, ts, (c.node, c.right) :: c.above⟩

def nextSibling? (c : Cursor) : Option Cursor :=
  match c.right with
  | [] => none
  | t :: ts => some ⟨t, ts, c.above⟩

def parent? (c : Cursor) : Option Cursor :=
  match c.above with
  | [] => none
  | (t, ts) :: above => some ⟨t, ts, above⟩

theorem above_of_parent? {c d : Cursor} (h : c.parent? = some d) :
    d.above.length < c.above.length := by
  unfold parent? at h
  split at h
  · cases h
  · rename_i heq
    cases h
    rw [heq]
    exact Nat.lt_succ_self _

/-- To the next sibling of the node, or of the nearest node above it that has one. -/
def skip? (c : Cursor) : Option Cursor :=
  match c.nextSibling? with
  | some d => some d
  | none =>
    match _move : c.parent? with
    | some d => d.skip?
    | none => none
termination_by c.above.length
decreasing_by exact above_of_parent? _move

/-- To the first child, and from a node without children past it. -/
def next? (c : Cursor) : Option Cursor :=
  match c.firstChild? with
  | some d => some d
  | none => c.skip?

/-! ## What is still to come -/

/-- The nodes behind the node and all that is below it. -/
def behind (c : Cursor) : List Tree :=
  Tree.preorderList c.right ++ c.above.flatMap fun a => Tree.preorderList a.2

/-- The node, and the nodes that come after it. -/
def pending (c : Cursor) : List Tree := c.node.preorder ++ c.behind

theorem behind_eq (c : Cursor) : c.behind = (c.skip?.map pending).getD [] := by
  fun_induction skip? c with
  | case1 c d hd =>
    obtain ⟨t, right, above⟩ := c
    cases right with
    | nil => cases hd
    | cons s right =>
      cases hd
      simp [pending, behind, Tree.preorderList]
  | case2 c hd d hp ih =>
    obtain ⟨t, right, above⟩ := c
    cases right with
    | cons s right => cases hd
    | nil =>
      cases above with
      | nil => cases hp
      | cons a above =>
        cases hp
        rw [← ih]
        simp [behind, Tree.preorderList]
  | case3 c hd hp =>
    obtain ⟨t, right, above⟩ := c
    cases right with
    | cons s right => cases hd
    | nil =>
      cases above with
      | nil => rfl
      | cons a above => cases hp

/-- A move takes one node off those that are still to come; without a move it is the last one. -/
theorem pending_eq (c : Cursor) : c.pending = c.node :: (c.next?.map pending).getD [] := by
  obtain ⟨⟨l, cs⟩, right, above⟩ := c
  cases cs with
  | nil =>
    have hnext : next? ⟨.node l [], right, above⟩ = skip? ⟨.node l [], right, above⟩ := rfl
    rw [hnext, ← behind_eq]
    rfl
  | cons t ts =>
    have hnext : next? ⟨.node l (t :: ts), right, above⟩ =
        some ⟨t, ts, (.node l (t :: ts), right) :: above⟩ := rfl
    rw [hnext]
    simp [pending, behind, Tree.preorder, Tree.preorderList]

theorem pending_of_next? {c d : Cursor} (h : c.next? = some d) :
    d.pending.length < c.pending.length := by
  rw [c.pending_eq, h]
  exact Nat.lt_succ_self _

/-! ## Searches -/

/-- The first node with a property that a cursor comes to. -/
def search (p : Tree → Bool) (c : Cursor) : Option Tree :=
  if p c.node then some c.node
  else
    match _move : c.next? with
    | some d => d.search p
    | none => none
termination_by c.pending.length
decreasing_by exact pending_of_next? _move

end Cursor

end TestConversion.Syntax
