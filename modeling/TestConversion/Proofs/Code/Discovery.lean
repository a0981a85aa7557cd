import TestConversion.Metadata.Extract
import Mathlib.Data.List.Basic

/-!
# Calls by recursion

The calls of a piece of code, found by recursion on it: those of the receiver come before the call
itself, those of the arguments and of the calls chained onto it come after it. The list of work
gives the same calls in the same order.

* `Collection.calls_step`: each piece of work keeps the calls that a collection comes to.
* `collected_by_recursion`: the calls that are collected from a node, and when the work ends.
* `collectCalls_eq`, `callsOf_eq`: the calls of a node and of a method.
-/

namespace TestConversion.Code

mutual

/-- The calls of a node that stands in some mode. -/
def Node.calls : Node → Mode → List Call
  | .literal _, _ => []
  | .reference _ _, _ => []
  | .binary l _ r, mode => l.calls mode ++ r.calls mode
  | .invocation i, mode => i.calls mode
  | .other _ _ cs, mode => Child.callsOfList cs mode

/-- The calls of a child of a node in some mode. -/
def Child.calls : Child → Mode → List Call
  | .node n, mode => n.calls (n.modeIn mode)
  | .sequence ns, mode => Node.callsOfList ns mode
  | .token _, _ => []

def Invocation.calls : Invocation → Mode → List Call
  | .mk m q as ss r t, mode =>
    Node.callsOfOption r mode ++
      ((if mode = .record then [(Invocation.mk m q as ss r t).call] else []) ++
      (Node.callsOfList as .argument ++ Invocation.callsOfList ss mode))

def Node.callsOfList : List Node → Mode → List Call
  | [], _ => []
  | n :: ns, mode => n.calls (n.modeIn mode) ++ Node.callsOfList ns mode

def Child.callsOfList : List Child → Mode → List Call
  | [], _ => []
  | c :: cs, mode => c.calls mode ++ Child.callsOfList cs mode

def Invocation.callsOfList : List Invocation → Mode → List Call
  | [], _ => []
  | i :: is, mode => i.calls mode ++ Invocation.callsOfList is mode

def Node.callsOfOption : Option Node → Mode → List Call
  | none, _ => []
  | some n, mode => n.calls (n.modeIn mode)

end

/-! ## Lists -/

theorem Node.callsOfList_eq (ns : List Node) (mode : Mode) :
    Node.callsOfList ns mode = ns.flatMap fun n => n.calls (n.modeIn mode) := by
  induction ns with
  | nil => rfl
  | cons n ns ih => rw [Node.callsOfList, ih, List.flatMap_cons]

theorem Child.callsOfList_eq (cs : List Child) (mode : Mode) :
    Child.callsOfList cs mode = cs.flatMap fun c => c.calls mode := by
  induction cs with
  | nil => rfl
  | cons c cs ih => rw [Child.callsOfList, ih, List.flatMap_cons]

theorem Invocation.callsOfList_eq (is : List Invocation) (mode : Mode) :
    Invocation.callsOfList is mode = is.flatMap fun i => i.calls mode := by
  induction is with
  | nil => rfl
  | cons i is ih => rw [Invocation.callsOfList, ih, List.flatMap_cons]

theorem Node.callsOfOption_eq (r : Option Node) (mode : Mode) :
    Node.callsOfOption r mode = r.toList.flatMap fun n => n.calls (n.modeIn mode) := by
  cases r <;> simp [Node.callsOfOption]

theorem Invocation.calls_eq (i : Invocation) (mode : Mode) :
    i.calls mode = (i.receiver.toList.flatMap fun n => n.calls (n.modeIn mode)) ++
      ((if mode = .record then [i.call] else []) ++
      ((i.arguments.flatMap fun n => n.calls (n.modeIn .argument)) ++
        i.selectors.flatMap fun s => s.calls mode)) := by
  obtain ⟨m, q, as, ss, r, t⟩ := i
  rw [Invocation.calls, Node.callsOfOption_eq, Node.callsOfList_eq, Invocation.callsOfList_eq]
  rfl

/-- The calls of a call that nothing is chained onto. -/
theorem Invocation.calls_mk (m : String) (q : Option String) (as : List Node) (r : Option Node)
    (t : Text.SourceText) (mode : Mode) : (Invocation.mk m q as [] r t).calls mode =
      (r.toList.flatMap fun n => n.calls (n.modeIn mode)) ++
      ((if mode = .record then [⟨m, q, as.map Node.spelling⟩] else []) ++
        Node.callsOfList as .argument) := by
  rw [Invocation.calls, Node.callsOfOption_eq, Invocation.callsOfList, List.append_nil]
  rfl

/-- A call chained onto others is found after them. -/
theorem Invocation.calls_chain (base selector : Invocation) (text : Text.SourceText) (mode : Mode) :
    (base.chain selector text).calls mode = base.calls mode ++ selector.calls mode := by
  rw [Invocation.calls_eq, Invocation.calls_eq base]
  simp [Invocation.chain, Invocation.receiver, Invocation.arguments, Invocation.selectors,
    Invocation.call, Invocation.member, Invocation.qualifier]

/-! ### Children -/

/-- The calls of a child when the mode in it is set. -/
def Child.callsWithin : Child → Mode → List Call
  | .node n, mode => n.calls mode
  | .sequence ns, mode => Node.callsOfList ns mode
  | .token _, _ => []

def Child.isCodeBlock : Child → Bool
  | .node n => n.isCodeBlock
  | _ => false

theorem Child.calls_eq (c : Child) (mode : Mode) :
    c.calls mode = c.callsWithin (if c.isCodeBlock then .record else mode) := by
  cases c <;> rfl

theorem Child.calls_record (c : Child) : c.calls .record = c.callsWithin .record := by
  rw [Child.calls_eq]
  split <;> rfl

/-! ## The list of work -/

/-- The calls that a piece of work finds. -/
def Work.calls : Work → List Call
  | .visit n mode => n.calls mode
  | .invoke i mode => i.calls mode
  | .emit i => [i.call]

theorem calls_pushVisits (mode : Mode) (ns : List Node) (ws : List Work) :
    (pushVisits mode ns ws).flatMap Work.calls =
      Node.callsOfList ns mode ++ ws.flatMap Work.calls := by
  induction ns with
  | nil => rfl
  | cons n ns ih =>
    rw [pushVisits] at ih ⊢
    rw [List.foldr_cons, List.flatMap_cons, ih, Node.callsOfList, List.append_assoc]
    rfl

theorem Child.calls_push (c : Child) (mode : Mode) (ws : List Work) :
    (c.push mode ws).flatMap Work.calls = c.calls mode ++ ws.flatMap Work.calls := by
  cases c with
  | node n => rfl
  | sequence ns => exact calls_pushVisits mode ns ws
  | token t => rfl

theorem calls_pushChildren (mode : Mode) (cs : List Child) (ws : List Work) :
    (pushChildren mode cs ws).flatMap Work.calls =
      Child.callsOfList cs mode ++ ws.flatMap Work.calls := by
  induction cs with
  | nil => rfl
  | cons c cs ih =>
    rw [pushChildren] at ih ⊢
    rw [List.foldr_cons, Child.calls_push, ih, Child.callsOfList, List.append_assoc]

theorem calls_invokes (mode : Mode) (is : List Invocation) (ws : List Work) :
    (is.foldr (fun s ws => .invoke s mode :: ws) ws).flatMap Work.calls =
      Invocation.callsOfList is mode ++ ws.flatMap Work.calls := by
  induction is with
  | nil => rfl
  | cons i is ih =>
    rw [List.foldr_cons, List.flatMap_cons, ih, Invocation.callsOfList, List.append_assoc]
    rfl

/-- The work of an invocation finds its calls before those of the other work. -/
theorem Invocation.calls_push (i : Invocation) (mode : Mode) (ws : List Work) :
    (i.push mode ws).flatMap Work.calls = i.calls mode ++ ws.flatMap Work.calls := by
  obtain ⟨m, q, as, ss, r, t⟩ := i
  simp only [Invocation.push, Invocation.receiver, Invocation.arguments, Invocation.selectors]
  have hrest := calls_pushVisits .argument as (ss.foldr (fun s ws => .invoke s mode :: ws) ws)
  rw [calls_invokes] at hrest
  generalize pushVisits .argument as _ = rest at hrest ⊢
  rw [Invocation.calls]
  cases r <;> cases mode <;> simp [Node.callsOfOption, Work.calls, hrest]

theorem Node.calls_push (n : Node) (mode : Mode) (ws : List Work) :
    (n.push mode ws).flatMap Work.calls = n.calls mode ++ ws.flatMap Work.calls := by
  cases n with
  | literal t => rfl
  | reference q m => rfl
  | binary l o r => simp [Node.push, Node.calls, Work.calls]
  | invocation i => rfl
  | other k t cs => exact calls_pushChildren mode cs ws

namespace Collection

/-- The calls that a collection comes to: those found, and those of the work that is left. -/
def calls (c : Collection) : List Call := c.found.reverse ++ c.todo.flatMap Work.calls

theorem todo_of_step_eq_none {c : Collection} (h : c.step = none) : c.todo = [] := by
  obtain ⟨found, todo⟩ := c
  cases todo with
  | nil => rfl
  | cons w ws => cases w <;> cases h

/-- No piece of work changes the calls that a collection comes to. -/
theorem calls_step {c d : Collection} (h : c.step = some d) : d.calls = c.calls := by
  obtain ⟨found, todo⟩ := c
  cases todo with
  | nil => cases h
  | cons w ws =>
    cases w with
    | emit i =>
      cases h
      simp [calls, Work.calls]
    | invoke i mode =>
      cases h
      rw [calls, calls, i.calls_push, List.flatMap_cons]
      rfl
    | visit n mode =>
      cases h
      rw [calls, calls, n.calls_push, List.flatMap_cons]
      rfl

theorem run_eq (c : Collection) : c.run = c.calls := by
  fun_induction run c with
  | case1 c h => rw [calls, todo_of_step_eq_none h, List.flatMap_nil, List.append_nil]
  | case2 c d h ih => rw [ih, calls_step h]

/-- A collection after some number of pieces of work; none if there are not so many. -/
def after : Nat → Collection → Option Collection
  | 0, c => some c
  | k + 1, c => c.step.bind (after k)

/-- The work comes to an end, each piece of it taking off some weight. -/
theorem exists_after_eq (c : Collection) :
    ∃ k ≤ Work.weights c.todo, c.after k = some ⟨c.calls.reverse, []⟩ := by
  fun_induction run c with
  | case1 c h =>
    have htodo := todo_of_step_eq_none h
    refine ⟨0, Nat.zero_le _, ?_⟩
    rw [after, calls, htodo, List.flatMap_nil, List.append_nil, List.reverse_reverse, ← htodo]
  | case2 c d h ih =>
    obtain ⟨k, hk, hafter⟩ := ih
    have := weights_step h
    refine ⟨k + 1, by omega, ?_⟩
    rw [after, h, Option.bind_some, hafter, calls_step h]

end Collection

theorem collectCalls_eq (calls : List Call) (n : Node) :
    collectCalls calls n = calls ++ n.calls .record := by
  simp [collectCalls, Collection.run_eq, Collection.calls, Work.calls]

/-- Collecting puts behind the calls already there what recursion on the node gives, and no other
calls, after at most two pieces of work for each part of the node. -/
theorem collected_by_recursion (calls : List Call) (n : Node) :
    collectCalls calls n = calls ++ n.calls .record ∧
      ∃ k ≤ 2 * n.size, Collection.after k ⟨calls.reverse, [.visit n .record]⟩ =
        some ⟨(calls ++ n.calls .record).reverse, []⟩ := by
  refine ⟨collectCalls_eq calls n, ?_⟩
  have h := Collection.exists_after_eq ⟨calls.reverse, [.visit n .record]⟩
  simpa [Collection.calls, Work.weights, Work.weight, Work.calls] using h

theorem foldl_collectCalls (calls : List Call) (ns : List Node) :
    ns.foldl collectCalls calls = calls ++ ns.flatMap fun n => n.calls .record := by
  induction ns generalizing calls with
  | nil => simp
  | cons n ns ih => rw [List.foldl_cons, ih, collectCalls_eq, List.flatMap_cons, List.append_assoc]

theorem modeIn_record (n : Node) : n.modeIn .record = .record := by
  unfold Node.modeIn
  split <;> rfl

/-- The calls of a method are those of its statements, one after the other. -/
theorem callsOf_eq (m : Method) : callsOf m = Node.callsOfList (m.body.getD []) .record := by
  rw [callsOf, foldl_collectCalls, Node.callsOfList_eq, List.nil_append]
  exact List.flatMap_congr fun n _ => by rw [modeIn_record]

end TestConversion.Code
