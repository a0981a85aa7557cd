import TestConversion.Proofs.Code.Spelling
import Mathlib.Algebra.Ring.Nat
import Mathlib.Logic.Relation

/-!
# Expressions as operator trees

An expression is a tree of operations over operands that are none. It is spelled from the left to
the right: its operands with the operators between them. So the tree may be regrouped, as long as
operands and operators keep their order: what is spelled stays the same.

* `Spelling.after_turns`: the pieces are used up after a number of turns that is known beforehand.
* `Node.reading_eq_interleave`: the recursive reading is the operands with the operators between
  them.
* `Node.regrouped_iff`: trees that can be regrouped into each other are those with the same operands
  and operators in the same order.
* `spelling_in_order`: how expressions are spelled.
-/

namespace TestConversion.Code

/-! ## Operands and operators -/

namespace Node

def isOperation : Node → Bool
  | .binary _ _ _ => true
  | _ => false

/-- Induction on the tree of operations. -/
theorem operationInduction {P : Node → Prop} (operand : ∀ n, n.isOperation = false → P n)
    (operation : ∀ l o r, P l → P r → P (.binary l o r)) : ∀ n, P n
  | .binary l o r => operation l o r (operationInduction operand operation l)
      (operationInduction operand operation r)
  | .literal t => operand (.literal t) rfl
  | .reference q m => operand (.reference q m) rfl
  | .invocation i => operand (.invocation i) rfl
  | .other k t cs => operand (.other k t cs) rfl

/-- The operands of a tree of operations, from the left to the right. -/
def operands : Node → List Node
  | .binary l _ r => l.operands ++ r.operands
  | n => [n]

/-- The operators of a tree of operations, from the left to the right. -/
def operators : Node → List String
  | .binary l o r => l.operators ++ o :: r.operators
  | _ => []

/-- What an expression is read as: an operation as its operands with its operator between them, all
else as it is written. -/
def reading : Node → String
  | .binary l o r => l.reading ++ " " ++ o ++ " " ++ r.reading
  | .literal t => t
  | .reference (some q) m => q ++ "." ++ m
  | .reference none m => m
  | .invocation i => i.text.render
  | .other _ t _ => t.render

theorem operands_of_not_isOperation {n : Node} (h : n.isOperation = false) : n.operands = [n] := by
  cases n with
  | binary l o r => cases h
  | _ => rfl

theorem operators_of_not_isOperation {n : Node} (h : n.isOperation = false) :
    n.operators = [] := by
  cases n with
  | binary l o r => cases h
  | _ => rfl

theorem length_operands (n : Node) : n.operands.length = n.operators.length + 1 := by
  induction n using operationInduction with
  | operand n h => rw [operands_of_not_isOperation h, operators_of_not_isOperation h]; rfl
  | operation l o r hl hr =>
    rw [operands, operators, List.length_append, List.length_append, List.length_cons, hl, hr]
    omega

theorem isOperation_of_mem_operands (n : Node) : ∀ m ∈ n.operands, m.isOperation = false := by
  induction n using operationInduction with
  | operand n h =>
    rw [operands_of_not_isOperation h]
    intro m hm
    rw [List.mem_singleton.mp hm]
    exact h
  | operation l o r hl hr =>
    intro m hm
    rcases List.mem_append.mp hm with hm | hm
    · exact hl m hm
    · exact hr m hm

end Node

/-! ## Turn by turn -/

/-- The texts that are spelled, the last one first, and the pieces that are still to be spelled. -/
structure Spelling where
  done : List String
  todo : List Piece

namespace Spelling

/-- What is made of the next piece; none if there is no piece left. An operation is taken apart, and
of an operand and an operator the text is spelled. -/
def turn (s : Spelling) : Option Spelling :=
  match s.todo with
  | [] => none
  | .operator o :: ps => some ⟨(" " ++ o ++ " ") :: s.done, ps⟩
  | .node (.binary l o r) :: ps => some ⟨s.done, .node l :: .operator o :: .node r :: ps⟩
  | .node n :: ps => some ⟨n.reading :: s.done, ps⟩

/-- A spelling after some number of turns; none if there are not so many. -/
def after : Nat → Spelling → Option Spelling
  | 0, s => some s
  | k + 1, s => s.turn.bind (after k)

/-- How many turns a piece takes. -/
def turnsOf : Piece → Nat
  | .node n => 3 * n.operators.length + 1
  | .operator _ => 1

def turns (ps : List Piece) : Nat := (ps.map turnsOf).sum

theorem after_succ {s s' : Spelling} (h : s.turn = some s') (k : Nat) :
    s.after (k + 1) = s'.after k := by
  rw [after, h, Option.bind_some]

/-- A piece that is spelled in one turn. -/
theorem after_one {done : List String} {p : Piece} {ps : List Piece} {t : String}
    {result : Option Spelling} (hturn : turn ⟨done, p :: ps⟩ = some ⟨t :: done, ps⟩)
    (hp : turnsOf p = 1) (ih : after (turns ps) ⟨t :: done, ps⟩ = result) :
    after (turns (p :: ps)) ⟨done, p :: ps⟩ = result := by
  have hturns : turns (p :: ps) = turns ps + 1 := by
    rw [turns, List.map_cons, List.sum_cons, hp, Nat.add_comm]
    rfl
  rw [hturns, after_succ hturn, ih]

/-- The pieces are used up after just so many turns, and then all of them are spelled. -/
theorem after_turns (done : List String) (ps : List Piece) :
    after (turns ps) ⟨done, ps⟩ = some ⟨(spellFrom done ps).reverse, []⟩ := by
  fun_induction spellFrom done ps with
  | case1 done => rw [List.reverse_reverse]; rfl
  | case2 done o ps ih => exact after_one rfl rfl ih
  | case3 done l o r ps ih =>
    -- an operation takes one turn more than its operands and its operator
    have hturns : turns (.node (.binary l o r) :: ps) =
        turns (.node l :: .operator o :: .node r :: ps) + 1 := by
      simp only [turns, turnsOf, Node.operators, List.map_cons, List.sum_cons, List.length_append,
        List.length_cons]
      omega
    rw [hturns, after_succ rfl, ih]
  | case4 done t ps ih => exact after_one rfl rfl ih
  | case5 done q m ps ih => cases q <;> exact after_one rfl rfl ih
  | case6 done i ps ih => exact after_one rfl rfl ih
  | case7 done k t cs ps ih => exact after_one rfl rfl ih

end Spelling

/-! ## The order of operands and operators -/

/-- Texts with operators between them. -/
def interleave : List String → List String → String
  | t :: ts, o :: os => t ++ " " ++ o ++ " " ++ interleave ts os
  | ts, _ => String.join ts

theorem interleave_append {ts os : List String} (h : ts.length = os.length + 1)
    (us : List String) (o : String) (ps : List String) :
    interleave (ts ++ us) (os ++ o :: ps) =
      interleave ts os ++ " " ++ o ++ " " ++ interleave us ps := by
  induction os generalizing ts with
  | nil =>
    obtain ⟨t, rfl⟩ := List.length_eq_one_iff.mp h
    simp [interleave]
  | cons p os ih =>
    obtain ⟨t, ts, rfl⟩ := List.exists_cons_of_length_eq_add_one h
    have hts : ts.length = os.length + 1 := Nat.succ.inj h
    simp only [List.cons_append, interleave, ih hts, String.append_assoc]

namespace Node

theorem spelling_eq_reading (n : Node) : n.spelling = n.reading := by
  induction n using operationInduction with
  | operand n h =>
    cases n with
    | binary l o r => cases h
    | literal t => exact spelling_literal t
    | reference q m => cases q <;> simp [spelling_reference, reading]
    | invocation i => exact spelling_invocation i
    | other k t cs => exact spelling_other k t cs
  | operation l o r hl hr =>
    rw [spelling_binary, hl, hr, reading]
    simp only [String.append_assoc]

theorem reading_eq_interleave (n : Node) :
    n.reading = interleave (n.operands.map reading) n.operators := by
  induction n using operationInduction with
  | operand n h =>
    rw [operands_of_not_isOperation h, operators_of_not_isOperation h]
    simp [interleave]
  | operation l o r hl hr =>
    have hlength : (l.operands.map reading).length = l.operators.length + 1 := by
      rw [List.length_map, length_operands]
    rw [operands, operators, List.map_append, interleave_append hlength, ← hl, ← hr, reading]

/-! ## Regrouping -/

/-- Somewhere in the tree, the operation that is the left operand of another one takes it over on
its right. -/
inductive Rotates : Node → Node → Prop
  | here (a : Node) (o : String) (b : Node) (p : String) (c : Node) :
      Rotates (.binary (.binary a o b) p c) (.binary a o (.binary b p c))
  | left {l l' : Node} (h : Rotates l l') (o : String) (r : Node) :
      Rotates (.binary l o r) (.binary l' o r)
  | right (l : Node) (o : String) {r r' : Node} (h : Rotates r r') :
      Rotates (.binary l o r) (.binary l o r')

/-- Trees that rotations, there and back, lead into each other. -/
def Regrouped : Node → Node → Prop := Relation.EqvGen Rotates

theorem Rotates.same_order {m n : Node} (h : Rotates m n) :
    m.operands = n.operands ∧ m.operators = n.operators := by
  induction h with
  | here a o b p c => simp [operands, operators]
  | left h o r ih => rw [operands, operands, operators, operators, ih.1, ih.2]; exact ⟨rfl, rfl⟩
  | right l o h ih => rw [operands, operands, operators, operators, ih.1, ih.2]; exact ⟨rfl, rfl⟩

theorem Regrouped.same_order {m n : Node} (h : Regrouped m n) :
    m.operands = n.operands ∧ m.operators = n.operators := by
  induction h with
  | rel m n h => exact h.same_order
  | refl n => exact ⟨rfl, rfl⟩
  | symm m n _ ih => exact ⟨ih.1.symm, ih.2.symm⟩
  | trans k m n _ _ ih ih' => exact ⟨ih.1.trans ih'.1, ih.2.trans ih'.2⟩

theorem Regrouped.left {l l' : Node} (h : Regrouped l l') (o : String) (r : Node) :
    Regrouped (.binary l o r) (.binary l' o r) := by
  induction h with
  | rel l l' h => exact .rel _ _ (.left h o r)
  | refl l => exact .refl _
  | symm l l' _ ih => exact .symm _ _ ih
  | trans k l l' _ _ ih ih' => exact .trans _ _ _ ih ih'

/-! ### Trees that are grouped to the left -/

/-- The first operand of a tree. -/
def first : Node → Node
  | .binary l _ _ => l.first
  | n => n

/-- The operands behind the first one, each with the operator in front of it. -/
def rest : Node → List (String × Node)
  | .binary l o r => l.rest ++ (o, r.first) :: r.rest
  | _ => []

/-- Operations one after the other, each on what comes of those before it. -/
def grouped (n : Node) (rest : List (String × Node)) : Node :=
  rest.foldl (fun l x => .binary l x.1 x.2) n

theorem order_eq (n : Node) :
    n.operands = n.first :: n.rest.map Prod.snd ∧ n.operators = n.rest.map Prod.fst := by
  induction n using operationInduction with
  | operand n h =>
    cases n with
    | binary l o r => cases h
    | _ => exact ⟨rfl, rfl⟩
  | operation l o r hl hr =>
    rw [operands, operators, hl.1, hl.2, hr.1, hr.2]
    simp [first, rest]

theorem Regrouped.grouped {l l' : Node} (h : Regrouped l l') (rest : List (String × Node)) :
    Regrouped (l.grouped rest) (l'.grouped rest) := by
  induction rest generalizing l l' with
  | nil => exact h
  | cons x rest ih => exact ih (h.left x.1 x.2)

/-- The right operand of an operation can be regrouped to the left. -/
theorem regrouped_binary (a : Node) (o : String) (n : Node) :
    Regrouped (.binary a o n) ((Node.binary a o n.first).grouped n.rest) := by
  induction n using operationInduction generalizing a o with
  | operand n h =>
    cases n with
    | binary l p r => cases h
    | _ => exact .refl _
  | operation l p r hl hr =>
    have hturn : Regrouped (.binary a o (.binary l p r)) (.binary (.binary a o l) p r) :=
      .symm _ _ (.rel _ _ (.here a o l p r))
    have hright := hr (.binary a o l) p
    have hleft := ((hl a o).left p r.first).grouped r.rest
    rw [first, rest, Node.grouped, List.foldl_append]
    exact .trans _ _ _ hturn (.trans _ _ _ hright hleft)

theorem regrouped_grouped (n : Node) : Regrouped n (n.first.grouped n.rest) := by
  induction n using operationInduction with
  | operand n h =>
    cases n with
    | binary l o r => cases h
    | _ => exact .refl _
  | operation l o r hl _ =>
    have hleft := (hl.left o r.first).grouped r.rest
    rw [first, rest, Node.grouped, List.foldl_append]
    exact .trans _ _ _ (regrouped_binary l o r) hleft

/-- Trees can be regrouped into each other exactly if their operands and operators are in the same
order. -/
theorem regrouped_iff (m n : Node) :
    Regrouped m n ↔ m.operands = n.operands ∧ m.operators = n.operators := by
  constructor
  · exact Regrouped.same_order
  · rintro ⟨hoperands, hoperators⟩
    rw [m.order_eq.1, n.order_eq.1, List.cons.injEq] at hoperands
    rw [m.order_eq.2, n.order_eq.2] at hoperators
    obtain ⟨hfirst, hrest⟩ := hoperands
    have hpairs : m.rest = n.rest := by
      rw [← List.zip_unzip m.rest, ← List.zip_unzip n.rest, List.unzip_eq_map, List.unzip_eq_map,
        hoperators, hrest]
    have hm := regrouped_grouped m
    rw [hfirst, hpairs] at hm
    exact .trans _ _ _ hm (.symm _ _ (regrouped_grouped n))

end Node

/-- For every expression, whatever the shape and the depth of its tree, the list of pieces is used
up after a number of turns that the operators give, and what is spelled by then is what recursion
reads: the operands, which are no operations, with the operators between them. It depends on nothing
but the texts of the operands, the operators and their order, so regrouping does not change it; and
the trees that an expression can be regrouped into are all those with the same operands and
operators in the same order. -/
theorem spelling_in_order (n : Node) :
    (∃ done, Spelling.after (3 * n.operators.length + 1) ⟨[], [.node n]⟩ = some ⟨done, []⟩ ∧
      n.spelling = String.join done.reverse) ∧
    n.spelling = n.reading ∧
    n.spelling = interleave (n.operands.map Node.reading) n.operators ∧
    (n.operands.length = n.operators.length + 1 ∧ ∀ m ∈ n.operands, m.isOperation = false) ∧
    (∀ m : Node, m.operands.map Node.reading = n.operands.map Node.reading →
      m.operators = n.operators → m.spelling = n.spelling) ∧
    ∀ m, (Node.Regrouped n m ↔ n.operands = m.operands ∧ n.operators = m.operators) ∧
      (Node.Regrouped n m → m.spelling = n.spelling) := by
  have horder (m : Node) : m.spelling = interleave (m.operands.map Node.reading) m.operators := by
    rw [m.spelling_eq_reading, m.reading_eq_interleave]
  have hsame (m : Node) (hreading : m.operands.map Node.reading = n.operands.map Node.reading)
      (hoperators : m.operators = n.operators) : m.spelling = n.spelling := by
    rw [horder m, horder n, hreading, hoperators]
  refine ⟨⟨(spellFrom [] [.node n]).reverse, ?_, ?_⟩, n.spelling_eq_reading, horder n,
    ⟨n.length_operands, n.isOperation_of_mem_operands⟩, hsame, fun m => ⟨n.regrouped_iff m, ?_⟩⟩
  · exact Spelling.after_turns [] [.node n]
  · rw [List.reverse_reverse, Node.spelling]
  · intro h
    obtain ⟨hoperands, hoperators⟩ := h.same_order
    exact hsame m (by rw [hoperands]) hoperators.symm

/-- Three terms, grouped to the left, grouped to the right, and with another node that reads like the
last one. -/
theorem spelling_in_order_terms :
    let a := Node.name "a"
    let b := Node.literal "\"/b\""
    let c := Node.reference (some "C") "D"
    let left := Node.binary (.binary a "+" b) "-" c
    let right := Node.binary a "+" (.binary b "-" c)
    let other := Node.binary a "+" (.binary b "-" (.literal "C.D"))
    Node.Regrouped left right ∧ right.spelling = left.spelling ∧
      (other.operands.map Node.reading = left.operands.map Node.reading ∧
        other.operators = left.operators ∧ other.spelling = left.spelling) ∧
      left.spelling = "a + \"/b\" - C.D" := by
  intro a b c left right other
  have hright : Node.Regrouped left right := .rel _ _ (.here a "+" b "-" c)
  have hreading : other.operands.map Node.reading = left.operands.map Node.reading := by
    decide +kernel
  have horder := spelling_in_order left
  exact ⟨hright, (horder.2.2.2.2.2 right).2 hright,
    ⟨hreading, rfl, horder.2.2.2.2.1 other hreading rfl⟩, horder.2.1.trans (by decide +kernel)⟩

end TestConversion.Code
