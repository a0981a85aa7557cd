import TestConversion.Code.Spelling
import TestConversion.Metadata.Basic

/-!
# Calls of a piece of code

Calls are collected from a list of work still to be done. A call is recorded before its arguments
and before the calls chained onto it, and after the expression it is made on. Calls in argument
values are summarised by the spelling of the argument and not recorded, unless they stand in a
lambda or class body: that is code of its own.
-/

namespace TestConversion.Code

/-- Whether calls found here are recorded. -/
inductive Mode where
  | record
  | argument
  deriving DecidableEq

/-- Code blocks are recorded in every position. -/
def Node.modeIn (n : Node) (mode : Mode) : Mode := if n.isCodeBlock then .record else mode

def Invocation.call (i : Invocation) : Call :=
  ⟨i.member, i.qualifier, i.arguments.map Node.spelling⟩

/-! ## Work -/

inductive Work where
  | visit (n : Node) (mode : Mode)
  | invoke (i : Invocation) (mode : Mode)
  | emit (i : Invocation)

/-- Visits to nodes in the mode of the place where they stand. The last node is put in front of the
other work first, so that the first one comes next. -/
def pushVisits (mode : Mode) (ns : List Node) (ws : List Work) : List Work :=
  ns.foldr (fun n ws => .visit n (n.modeIn mode) :: ws) ws

/-- The visits that a child asks for. -/
def Child.push (c : Child) (mode : Mode) (ws : List Work) : List Work :=
  match c with
  | .node n => .visit n (n.modeIn mode) :: ws
  | .sequence ns => pushVisits mode ns ws
  | .token _ => ws

def pushChildren (mode : Mode) (cs : List Child) (ws : List Work) : List Work :=
  cs.foldr (fun c ws => c.push mode ws) ws

/-- The work of an invocation, put in front of the other work in reverse: its selectors, its
arguments, itself and its receiver. -/
def Invocation.push (i : Invocation) (mode : Mode) (ws : List Work) : List Work :=
  let ws := i.selectors.foldr (fun s ws => .invoke s mode :: ws) ws
  let ws := pushVisits .argument i.arguments ws
  let ws := if mode = .record then .emit i :: ws else ws
  match i.receiver with
  | some r => .visit r (r.modeIn mode) :: ws
  | none => ws

/-- The work of a node. -/
def Node.push (n : Node) (mode : Mode) (ws : List Work) : List Work :=
  match n with
  | .literal _ => ws
  | .reference _ _ => ws
  | .binary l _ r => .visit l mode :: .visit r mode :: ws
  | .invocation i => .invoke i mode :: ws
  | .other _ _ cs => pushChildren mode cs ws

/-! ## Weight -/

def Work.weight : Work → Nat
  | .visit n _ => 2 * n.size
  | .invoke i _ => 2 * i.size
  | .emit _ => 1

def Work.weights : List Work → Nat
  | [] => 0
  | w :: ws => w.weight + Work.weights ws

theorem weights_pushVisits (mode : Mode) (ns : List Node) (ws : List Work) :
    Work.weights (pushVisits mode ns ws) = 2 * Node.sizeList ns + Work.weights ws := by
  induction ns with
  | nil => simp [pushVisits, Node.sizeList]
  | cons n ns ih =>
    rw [pushVisits] at ih ⊢
    rw [List.foldr_cons, Work.weights, Work.weight, ih, Node.sizeList]
    omega

theorem Child.weights_push (c : Child) (mode : Mode) (ws : List Work) :
    Work.weights (c.push mode ws) ≤ 2 * c.size + Work.weights ws := by
  cases c with
  | node n => simp only [Child.push, Work.weights, Work.weight, Child.size]; omega
  | sequence ns => simp only [Child.push, weights_pushVisits, Child.size]; omega
  | token t => simp only [Child.push]; omega

theorem weights_pushChildren (mode : Mode) (cs : List Child) (ws : List Work) :
    Work.weights (pushChildren mode cs ws) ≤ 2 * Child.sizeList cs + Work.weights ws := by
  induction cs with
  | nil => simp [pushChildren, Child.sizeList]
  | cons c cs ih =>
    have := c.weights_push mode (pushChildren mode cs ws)
    rw [pushChildren] at ih this ⊢
    rw [List.foldr_cons, Child.sizeList]
    omega

theorem weights_invokes (mode : Mode) (is : List Invocation) (ws : List Work) :
    Work.weights (is.foldr (fun s ws => .invoke s mode :: ws) ws) =
      2 * Invocation.sizeList is + Work.weights ws := by
  induction is with
  | nil => simp [Invocation.sizeList]
  | cons i is ih =>
    rw [List.foldr_cons, Work.weights, Work.weight, ih, Invocation.sizeList]
    omega

theorem Invocation.weights_push (i : Invocation) (mode : Mode) (ws : List Work) :
    Work.weights (i.push mode ws) < 2 * i.size + Work.weights ws := by
  obtain ⟨m, q, as, ss, r, t⟩ := i
  simp only [Invocation.push, Invocation.receiver, Invocation.arguments, Invocation.selectors,
    Invocation.size]
  cases r <;> cases mode <;>
    simp only [reduceCtorEq, if_true, if_false, Work.weights, Work.weight, weights_pushVisits,
      weights_invokes, Node.sizeOption] <;> omega

theorem Node.weights_push (n : Node) (mode : Mode) (ws : List Work) :
    Work.weights (n.push mode ws) < 2 * n.size + Work.weights ws := by
  cases n with
  | literal t => simp only [Node.push, Node.size]; omega
  | reference q m => simp only [Node.push, Node.size]; omega
  | binary l o r => simp only [Node.push, Work.weights, Work.weight, Node.size]; omega
  | invocation i => simp only [Node.push, Work.weights, Work.weight, Node.size]; omega
  | other k t cs =>
    have := weights_pushChildren mode cs ws
    simp only [Node.push, Node.size]
    omega

/-! ## Collecting -/

/-- The calls found so far, the last one first, and the work still to be done. -/
structure Collection where
  found : List Call
  todo : List Work

namespace Collection

/-- What the next piece of work makes of a collection; none if all work is done. -/
def step (c : Collection) : Option Collection :=
  match c.todo with
  | [] => none
  | .emit i :: ws => some ⟨i.call :: c.found, ws⟩
  | .invoke i mode :: ws => some ⟨c.found, i.push mode ws⟩
  | .visit n mode :: ws => some ⟨c.found, n.push mode ws⟩

theorem weights_step {c d : Collection} (h : c.step = some d) :
    Work.weights d.todo < Work.weights c.todo := by
  obtain ⟨found, todo⟩ := c
  cases todo with
  | nil => cases h
  | cons w ws =>
    cases w with
    | emit i =>
      cases h
      simp only [Work.weights, Work.weight]
      omega
    | invoke i mode =>
      cases h
      exact i.weights_push mode ws
    | visit n mode =>
      cases h
      exact n.weights_push mode ws

/-- The calls that are found when all work is done. -/
def run (c : Collection) : List Call :=
  match _ : c.step with
  | none => c.found.reverse
  | some d => d.run
termination_by Work.weights c.todo
decreasing_by exact weights_step (by assumption)

end Collection

/-- The calls that a node performs, behind those already collected. -/
def collectCalls (calls : List Call) (n : Node) : List Call :=
  Collection.run ⟨calls.reverse, [.visit n .record]⟩

end TestConversion.Code
