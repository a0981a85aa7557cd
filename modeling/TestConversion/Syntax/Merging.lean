import TestConversion.Syntax.Settling
import TestConversion.Syntax.Clash

/-!
# Merging states

States with the same items that differ only in what may come after them are merged where this
changes no choice: where a lexeme has moves in both, the moves agree, and no lexeme of one clashes
with a lexeme of the other. What has to stay apart is found by splitting groups of states.
-/

namespace TestConversion.Syntax

/-! ## Splitting groups -/

/-- Keeps the members that agree with all kept ones before them; the others come second. -/
def separate {α : Type} (apart : α → α → Bool) : List α → List α × List α
  | [] => ([], [])
  | a :: rest =>
    let parts := separate apart (rest.partition (apart a)).2
    (a :: parts.1, (rest.partition (apart a)).1 ++ parts.2)
termination_by members => members.length
decreasing_by
  rw [List.partition_eq_filter_filter]
  exact Nat.lt_succ_of_le (List.length_filter_le _ _)

/-- A partition of the states `0, 1, …` into groups. -/
structure Grouping where
  members : Array (List Nat)
  /-- The group of each state. -/
  groupOf : Array Nat

/-- The group of a state. -/
def Grouping.of (g : Grouping) (state : Nat) : Nat := g.groupOf[state]?.getD 0

/-- Splits the groups from number `i` on; the members that leave a group form a new one. -/
def Grouping.splitFrom (apart : Grouping → Nat → Nat → Bool) : Nat → Nat → Grouping → Grouping
  | 0, _, g => g
  | fuel + 1, i, g =>
    match g.members[i]? with
    | none => g
    | some all =>
      match separate (apart g) all with
      | (_, []) => splitFrom apart fuel (i + 1) g
      | (kept, gone) =>
        let number := g.members.size
        splitFrom apart fuel (i + 1)
          { members := (g.members.set! i kept).push gone,
            groupOf := gone.foldl (fun groupOf s => groupOf.set! s number) g.groupOf }

/-- Splits every group once. There are never more groups than states. -/
def Grouping.split (apart : Grouping → Nat → Nat → Bool) (g : Grouping) : Grouping :=
  g.splitFrom apart (g.groupOf.size + 1) 0

/-- Splits until nothing changes. -/
def Grouping.refine (apart : Grouping → Nat → Nat → Bool) : Nat → Grouping → Grouping
  | 0, g => g
  | fuel + 1, g =>
    let finer := g.split apart
    if finer.members.size == g.members.size then g else refine apart fuel finer

/-- One group for each value of a key, in order of the first states. -/
def Grouping.byKey {κ : Type} [BEq κ] [Hashable κ] (keys : Array κ) : Grouping := Id.run do
  let mut number : Std.HashMap κ Nat := {}
  let mut members : Array (List Nat) := #[]
  let mut groupOf : Array Nat := #[]
  for i in [0:keys.size] do
    match keys[i]? with
    | none => pure ()
    | some key =>
      match number[key]? with
      | some n =>
        members := members.modify n (i :: ·)
        groupOf := groupOf.push n
      | none =>
        number := number.insert key members.size
        groupOf := groupOf.push members.size
        members := members.push [i]
  return { members := members.map List.reverse, groupOf }

/-! ## What keeps states apart -/

/-- Whether two lists in order of keys have values that do not go together under one key. -/
def clashAt {α : Type} (apart : α → α → Bool) : List (Nat × α) → List (Nat × α) → Bool
  | [], _ => false
  | _, [] => false
  | (i, x) :: xs, (j, y) :: ys =>
    if i < j then clashAt apart xs ((j, y) :: ys)
    else if j < i then clashAt apart ((i, x) :: xs) ys
    else apart x y || clashAt apart xs ys
termination_by xs ys => xs.length + ys.length

/-- Moves agree if they are equal up to the group of the state they lead to. -/
def Grouping.agree (g : Grouping) : List Move → List Move → Bool
  | [], [] => true
  | .shift s :: a, .shift t :: b => g.of s == g.of t && g.agree a b
  | x :: a, y :: b => x == y && g.agree a b
  | _, _ => false

/-- A state as far as merging looks at it. -/
structure Outline where
  row : Row
  /-- The states after the symbols that can be read or completed. -/
  links : List (Nat × Nat)
  /-- The lexemes that have moves. -/
  lexemes : Bits
  /-- The lexemes that clash with one of those. -/
  clashing : Bits

def State.outline (s : State) (firstName : Nat) (clashes : Array (Nat × Bits)) (row : Row) :
    Outline :=
  let shifts := row.filterMap fun (lexeme, moves) =>
    moves.findSome? fun
      | .shift t => some (lexeme, t)
      | _ => none
  let read := s.targets.foldl
    (fun (b : Bits) t => if t.1 < firstName then b ||| Bits.single t.1 else b) 0
  let lexemes := s.completed.foldl (fun b c => b ||| c.2) read
  let clashing := clashes.foldl
    (fun (b : Bits) (long, shorter) =>
      if shorter &&& lexemes == 0 then b else b ||| Bits.single long) 0
  { row, links := shifts ++ s.targets.filter fun t => firstName ≤ t.1, lexemes, clashing }

/-- Whether two states have different moves for a lexeme, or one of them a lexeme of its own that
clashes with the other state. -/
def Outline.conflict (g : Grouping) (a b : Outline) : Bool :=
  let shared := a.lexemes &&& b.lexemes
  (a.lexemes ^^^ shared) &&& b.clashing != 0 || (b.lexemes ^^^ shared) &&& a.clashing != 0 ||
    clashAt (fun x y => !g.agree x y) a.row b.row

/-- Whether one symbol leads from two states to states of different groups. -/
def Outline.part (g : Grouping) (a b : Outline) : Bool :=
  clashAt (fun s t => g.of s != g.of t) a.links b.links

/-- The groups of states that are merged. -/
def mergeable (cores : Array (Array Nat)) (outlines : Array Outline) : Grouping :=
  let test := fun (p : Grouping → Outline → Outline → Bool) (g : Grouping) (i j : Nat) =>
    match outlines[i]?, outlines[j]? with
    | some a, some b => p g a b
    | _, _ => false
  (((Grouping.byKey cores).split (test Outline.conflict)).refine (test Outline.part) cores.size)

end TestConversion.Syntax
