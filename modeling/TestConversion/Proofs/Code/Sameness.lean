import TestConversion.Proofs.Code.Discovery
import TestConversion.Proofs.Code.Spelling
import Mathlib.Data.List.Forall2

/-!
# Nodes that are the same

Nodes are compared by the covered characters of their source texts, wherever these come from. A node
can be detached from its source: then each source text is just what it covers. Nodes are the same
exactly if they are equal once they are detached, and nothing that reads nodes can tell a node from
its detached form.

* `Node.same_iff`: sameness as equality of detached nodes.
* `Node.spelling_detached`, `Node.calls_detached`: what is read of a detached node.
* `same_nodes_read_alike`: sameness is an equivalence that all readings respect.
-/

namespace TestConversion

/-! ## Source texts -/

namespace Text.SourceText

/-- The covered text alone. -/
def detached (t : SourceText) : SourceText := ofString (String.ofList t.raw)

theorem raw_detached (t : SourceText) : t.detached.raw = t.raw := by
  rw [detached, raw_ofString, String.toList_ofList]

theorem render_detached (t : SourceText) : t.detached.render = t.render := by
  rw [render, render, raw_detached]

theorem same_iff (a b : SourceText) : a.same b = true ↔ a.detached = b.detached := by
  rw [same, beq_iff_eq]
  constructor
  · intro h
    rw [detached, detached, h]
  · intro h
    rw [← a.raw_detached, ← b.raw_detached, h]

end Text.SourceText

namespace Code

/-! ## Detached nodes -/

mutual

/-- The node with each source text alone. -/
def Node.detached : Node → Node
  | .literal t => .literal t
  | .reference q m => .reference q m
  | .binary l o r => .binary l.detached o r.detached
  | .invocation i => .invocation i.detached
  | .other k t cs => .other k t.detached (Child.detachedList cs)

def Child.detached : Child → Child
  | .node n => .node n.detached
  | .sequence ns => .sequence (Node.detachedList ns)
  | .token t => .token t

def Invocation.detached : Invocation → Invocation
  | .mk m q as ss r t =>
    .mk m q (Node.detachedList as) (Invocation.detachedList ss) (Node.detachedOption r) t.detached

def Node.detachedList : List Node → List Node
  | [] => []
  | n :: ns => n.detached :: Node.detachedList ns

def Child.detachedList : List Child → List Child
  | [] => []
  | c :: cs => c.detached :: Child.detachedList cs

def Invocation.detachedList : List Invocation → List Invocation
  | [] => []
  | i :: is => i.detached :: Invocation.detachedList is

def Node.detachedOption : Option Node → Option Node
  | none => none
  | some n => some n.detached

end

theorem Node.detachedList_eq (ns : List Node) : Node.detachedList ns = ns.map Node.detached := by
  induction ns with
  | nil => rfl
  | cons n ns ih => rw [Node.detachedList, ih, List.map_cons]

theorem Child.detachedList_eq (cs : List Child) :
    Child.detachedList cs = cs.map Child.detached := by
  induction cs with
  | nil => rfl
  | cons c cs ih => rw [Child.detachedList, ih, List.map_cons]

/-! ## Sameness as equality -/

mutual

theorem Node.same_iff (a b : Node) : a.same b = true ↔ a.detached = b.detached := by
  match a with
  | .literal s => cases b <;> simp [Node.same, Node.detached]
  | .reference q m => cases b <;> simp [Node.same, Node.detached]
  | .binary l o r =>
    cases b with
    | binary l' o' r' =>
      simp [Node.same, Node.detached, Node.same_iff l l', Node.same_iff r r', and_assoc]
    | _ => simp [Node.same, Node.detached]
  | .invocation i =>
    cases b with
    | invocation j => simp [Node.same, Node.detached, Invocation.same_iff i j]
    | _ => simp [Node.same, Node.detached]
  | .other k t cs =>
    cases b with
    | other k' t' cs' =>
      simp [Node.same, Node.detached, t.same_iff t', Child.sameList_iff cs cs', and_assoc]
    | _ => simp [Node.same, Node.detached]

theorem Child.same_iff (c d : Child) : c.same d = true ↔ c.detached = d.detached := by
  match c with
  | .node n =>
    cases d with
    | node m => simp [Child.same, Child.detached, Node.same_iff n m]
    | _ => simp [Child.same, Child.detached]
  | .sequence ns =>
    cases d with
    | sequence ms => simp [Child.same, Child.detached, Node.sameList_iff ns ms]
    | _ => simp [Child.same, Child.detached]
  | .token s => cases d <;> simp [Child.same, Child.detached]

theorem Invocation.same_iff (i j : Invocation) : i.same j = true ↔ i.detached = j.detached := by
  match i with
  | .mk m q as ss r t =>
    obtain ⟨m', q', as', ss', r', t'⟩ := j
    simp [Invocation.same, Invocation.detached, Node.sameList_iff as as',
      Invocation.sameList_iff ss ss', Node.sameOption_iff r r', t.same_iff t', and_assoc]

theorem Node.sameList_iff (ns ms : List Node) :
    Node.sameList ns ms = true ↔ Node.detachedList ns = Node.detachedList ms := by
  match ns with
  | [] => cases ms <;> simp [Node.sameList, Node.detachedList]
  | n :: ns =>
    cases ms with
    | nil => simp [Node.sameList, Node.detachedList]
    | cons m ms =>
      simp [Node.sameList, Node.detachedList, Node.same_iff n m, Node.sameList_iff ns ms]

theorem Child.sameList_iff (cs ds : List Child) :
    Child.sameList cs ds = true ↔ Child.detachedList cs = Child.detachedList ds := by
  match cs with
  | [] => cases ds <;> simp [Child.sameList, Child.detachedList]
  | c :: cs =>
    cases ds with
    | nil => simp [Child.sameList, Child.detachedList]
    | cons d ds =>
      simp [Child.sameList, Child.detachedList, Child.same_iff c d, Child.sameList_iff cs ds]

theorem Invocation.sameList_iff (is js : List Invocation) :
    Invocation.sameList is js = true ↔ Invocation.detachedList is = Invocation.detachedList js := by
  match is with
  | [] => cases js <;> simp [Invocation.sameList, Invocation.detachedList]
  | i :: is =>
    cases js with
    | nil => simp [Invocation.sameList, Invocation.detachedList]
    | cons j js =>
      simp [Invocation.sameList, Invocation.detachedList, Invocation.same_iff i j,
        Invocation.sameList_iff is js]

theorem Node.sameOption_iff (r s : Option Node) :
    Node.sameOption r s = true ↔ Node.detachedOption r = Node.detachedOption s := by
  match r with
  | none => cases s <;> simp [Node.sameOption, Node.detachedOption]
  | some n =>
    cases s with
    | none => simp [Node.sameOption, Node.detachedOption]
    | some m => simp [Node.sameOption, Node.detachedOption, Node.same_iff n m]

end

/-! ## Reading detached nodes -/

theorem Node.isCodeBlock_detached (n : Node) : n.detached.isCodeBlock = n.isCodeBlock := by
  cases n <;> rfl

theorem Node.modeIn_detached (n : Node) (mode : Mode) : n.detached.modeIn mode = n.modeIn mode := by
  rw [modeIn, modeIn, isCodeBlock_detached]

theorem Node.children_detached (n : Node) :
    n.detached.children = n.children.map Child.detached := by
  cases n with
  | other k t cs => exact Child.detachedList_eq cs
  | _ => rfl

theorem Node.spelling_detached : ∀ n : Node, n.detached.spelling = n.spelling
  | .literal _ => rfl
  | .reference _ _ => rfl
  | .binary l o r => by
    rw [detached, spelling_binary, spelling_binary, l.spelling_detached, r.spelling_detached]
  | .invocation i => by
    obtain ⟨m, q, as, ss, r, t⟩ := i
    rw [detached, Invocation.detached, spelling_invocation, spelling_invocation]
    exact t.render_detached
  | .other k t cs => by
    rw [detached, spelling_other, spelling_other]
    exact t.render_detached

theorem Invocation.call_detached (i : Invocation) : i.detached.call = i.call := by
  obtain ⟨m, q, as, ss, r, t⟩ := i
  have harguments : (as.map Node.detached).map Node.spelling = as.map Node.spelling := by
    rw [List.map_map]
    exact List.map_congr_left fun n _ => n.spelling_detached
  rw [Invocation.detached, Node.detachedList_eq]
  exact congrArg (Call.mk m q) harguments

mutual

theorem Node.calls_detached (n : Node) (mode : Mode) : n.detached.calls mode = n.calls mode := by
  match n with
  | .literal _ => rfl
  | .reference _ _ => rfl
  | .binary l o r =>
    rw [Node.detached, Node.calls, Node.calls, Node.calls_detached l, Node.calls_detached r]
  | .invocation i => exact Invocation.calls_detached i mode
  | .other k t cs => exact Child.callsOfList_detached cs mode

theorem Child.calls_detached (c : Child) (mode : Mode) : c.detached.calls mode = c.calls mode := by
  match c with
  | .node n =>
    rw [Child.detached, Child.calls, Child.calls, n.modeIn_detached, Node.calls_detached n]
  | .sequence ns => exact Node.callsOfList_detached ns mode
  | .token _ => rfl

theorem Invocation.calls_detached (i : Invocation) (mode : Mode) :
    i.detached.calls mode = i.calls mode := by
  match i with
  | .mk m q as ss r t =>
    have hcall := Invocation.call_detached (.mk m q as ss r t)
    rw [Invocation.detached] at hcall ⊢
    rw [Invocation.calls, Invocation.calls, hcall, Node.callsOfOption_detached r,
      Node.callsOfList_detached as, Invocation.callsOfList_detached ss]

theorem Node.callsOfList_detached (ns : List Node) (mode : Mode) :
    Node.callsOfList (Node.detachedList ns) mode = Node.callsOfList ns mode := by
  match ns with
  | [] => rfl
  | n :: ns =>
    rw [Node.detachedList, Node.callsOfList, Node.callsOfList, n.modeIn_detached,
      Node.calls_detached n, Node.callsOfList_detached ns]

theorem Child.callsOfList_detached (cs : List Child) (mode : Mode) :
    Child.callsOfList (Child.detachedList cs) mode = Child.callsOfList cs mode := by
  match cs with
  | [] => rfl
  | c :: cs =>
    rw [Child.detachedList, Child.callsOfList, Child.callsOfList, Child.calls_detached c,
      Child.callsOfList_detached cs]

theorem Invocation.callsOfList_detached (is : List Invocation) (mode : Mode) :
    Invocation.callsOfList (Invocation.detachedList is) mode = Invocation.callsOfList is mode := by
  match is with
  | [] => rfl
  | i :: is =>
    rw [Invocation.detachedList, Invocation.callsOfList, Invocation.callsOfList,
      Invocation.calls_detached i, Invocation.callsOfList_detached is]

theorem Node.callsOfOption_detached (r : Option Node) (mode : Mode) :
    Node.callsOfOption (Node.detachedOption r) mode = Node.callsOfOption r mode := by
  match r with
  | none => rfl
  | some n =>
    rw [Node.detachedOption, Node.callsOfOption, Node.callsOfOption, n.modeIn_detached,
      Node.calls_detached n]

end

theorem Node.collectCalls_detached (calls : List Call) (n : Node) :
    collectCalls calls n.detached = collectCalls calls n := by
  rw [collectCalls_eq, collectCalls_eq, n.calls_detached]

/-! ## Sameness -/

theorem Node.same_equivalence : Equivalence fun a b : Node => a.same b = true where
  refl a := (a.same_iff a).mpr rfl
  symm h := (same_iff _ _).mpr ((same_iff _ _).mp h).symm
  trans h h' := (same_iff _ _).mpr (((same_iff _ _).mp h).trans ((same_iff _ _).mp h'))

/-- The children of nodes that are the same are the same in pairs. -/
theorem Node.forall₂_children {a b : Node} (h : a.detached = b.detached) :
    List.Forall₂ (fun c d : Child => c.same d = true) a.children b.children := by
  have hchildren : a.children.map Child.detached = b.children.map Child.detached := by
    rw [← children_detached, ← children_detached, h]
  have hequal : List.Forall₂ (· = ·) (a.children.map Child.detached)
      (b.children.map Child.detached) := by
    rw [hchildren]
    exact List.forall₂_refl _
  rw [List.forall₂_map_left_iff, List.forall₂_map_right_iff] at hequal
  exact hequal.imp fun c d hcd => (c.same_iff d).mpr hcd

/-- Sameness of nodes looks at nothing but the characters that their source texts cover, be it none
because the range is none of the text. It is an equivalence, and nodes that are the same cannot be
told apart: they are spelled alike, the same calls are collected from them, they are blocks of code
together, and they have equally many children, which are the same in pairs. -/
theorem same_nodes_read_alike :
    (∀ a b : Node, a.same b = true ↔ a.detached = b.detached) ∧
    Equivalence (fun a b : Node => a.same b = true) ∧
    ∀ a b : Node, a.same b = true →
      a.spelling = b.spelling ∧
      (∀ calls, collectCalls calls a = collectCalls calls b) ∧
      a.isCodeBlock = b.isCodeBlock ∧
      a.children.length = b.children.length ∧
      List.Forall₂ (fun c d : Child => c.same d = true) a.children b.children := by
  refine ⟨Node.same_iff, Node.same_equivalence, ?_⟩
  intro a b hsame
  have h := (a.same_iff b).mp hsame
  have hchildren := Node.forall₂_children h
  refine ⟨?_, fun calls => ?_, ?_, hchildren.length_eq, hchildren⟩
  · rw [← a.spelling_detached, ← b.spelling_detached, h]
  · rw [← a.collectCalls_detached, ← b.collectCalls_detached, h]
  · rw [← a.isCodeBlock_detached, ← b.isCodeBlock_detached, h]

/-- A call with a lambda as its argument, and a call in the lambda. -/
def callWithLambda (lambda inner : Text.SourceText) : Node :=
  .invocation (.mk "until" (some "wait")
    [.other "lambda_expression" lambda
      [.node (.name "d"), .token "->",
        .node (.invocation (.mk "isDisplayed" (some "d") [] [] none inner))]]
    [] none (.ofString "wait.until()"))

/-- The lambda comes from two sources. The call in it covers no text: in one source the range starts
inside a character, and in the other one it ends before its start. -/
theorem same_nodes_read_alike_moved :
    let a := callWithLambda ⟨"d -> d.isDisplayed()".toList, 0, 20⟩ ⟨"é".toList, 1, 2⟩
    let b := callWithLambda ⟨"f(d -> d.isDisplayed())".toList, 2, 22⟩ ⟨"d".toList, 1, 0⟩
    a.same b = true ∧ a ≠ b ∧ a.spelling = b.spelling ∧
      collectCalls [] a = collectCalls [] b := by
  intro a b
  have hsame : a.same b = true := by decide +kernel
  have halike := same_nodes_read_alike.2.2 a b hsame
  refine ⟨hsame, ?_, halike.1, halike.2.1 []⟩
  simp [a, b, callWithLambda]

end Code

end TestConversion
