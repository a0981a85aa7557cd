import TestConversion.Syntax.State

/-!
# Settling conflicts

Each state has, for every lexeme, the list of moves that remain after binding levels and sides have
settled what they can: none, one, or several where only the rest of the text can tell.
-/

namespace TestConversion.Syntax

inductive Move where
  /-- Read the lexeme and go to a state. -/
  | shift (target : Nat)
  /-- Read a lexeme that may stand anywhere and stay. -/
  | skip
  /-- Complete a production. -/
  | reduce (production : Nat)
  | accept
  deriving DecidableEq

/-- The moves of a state by lexeme, in order of lexemes; a lexeme without moves is left out. -/
abbrev Row := List (Nat × List Move)

/-! ## Completions -/

/-- The completions of a state, one for each production. -/
def State.completions (s : State) : Array (Nat × Bits) :=
  s.completed.foldl (fun all c => Kernel.add all c.1 c.2) #[]

/-- Orders productions by length and then by name. -/
def Productions.completionOrder (g : Productions) (a b : Nat × Bits) : Bool :=
  match g.productions[a.1]?, g.productions[b.1]? with
  | some p, some q =>
    p.steps.size < q.steps.size ||
      (p.steps.size == q.steps.size && (p.head < q.head || (p.head == q.head && a.1 < b.1)))
  | _, _ => a.1 < b.1

/-- The completions of a state by lexeme, in order. -/
def Productions.completionsAt (g : Productions) (s : State) : Array (List Nat) :=
  let all := s.completions.qsort g.completionOrder
  let none_ : Array (List Nat) := Array.replicate g.firstName []
  all.toList.reverse.foldl
    (fun table (p, lexemes) =>
      (Bits.below g.firstName lexemes).foldl (fun table l => table.modify l (p :: ·)) table)
    none_

/-- Completions compete by binding level; those of the highest level stay, in order. -/
def Productions.bestCompletions (g : Productions) (candidates : List Nat) : List Nat :=
  let level := fun p => (g.productions[p]?.map fun q => q.bindingAt q.steps.size).getD 0
  let top := candidates.foldl (fun m p => max m (level p)) ((candidates.head?.map level).getD 0)
  candidates.filter fun p => level p == top

/-! ## Reading or completing -/

/-- Items entered into the state that are about to read the lexeme. -/
def Productions.readers (g : Productions) (items : Items) (first : Array Bits) (s : State)
    (lexeme : Nat) : List (Production × Nat) :=
  s.core.toList.filterMap fun it =>
    match items.next[it]?.getD none, g.productions[items.production[it]?.getD 0]? with
    | some symbol, some p =>
      if (first[symbol]?.getD 0).has lexeme then some (p, items.dot[it]?.getD 0) else none
    | _, _ => none

/-- Whether a state keeps its completions, its reading move or both for a lexeme that allows both.
A repetition that could go on or be grouped is grouped to the left. Otherwise the higher binding
level wins, and on a tie the side on which the completed productions group. -/
def settle (g : Productions) (completions : List Nat) (readers : List (Production × Nat)) :
    Bool × Bool :=
  let done := completions.filterMap fun p => g.productions[p]?
  let heads := done.map (·.head) ++ readers.map (·.1.head)
  let grouping :=
    match heads with
    | [] => false
    | h :: rest => g.auxiliary ≤ h && rest.all (· == h)
  if grouping then (true, false)
  else
    let level := (done.head?.map fun p => p.bindingAt p.steps.size).getD 0
    let more := readers.any fun r => level < r.1.bindingAt r.2
    let less := readers.any fun r => r.1.bindingAt r.2 < level
    if more && !less then (false, true)
    else if less && !more then (true, false)
    else if !more && !less then
      let sides := done.map fun p => p.assocAt p.steps.size
      if sides.all (· == some .left) then (true, false)
      else if sides.all (· == some .right) then (false, true)
      else (true, true)
    else (true, true)

/-- What a state may do at a lexeme for which it has completions. -/
def Productions.movesAt (g : Productions) (items : Items) (first : Array Bits) (s : State)
    (completions : List Nat) (lexeme : Nat) : List Move :=
  let best := g.bestCompletions completions
  let reduces := best.map fun p =>
    if (g.productions[p]?.map (·.head)) = some (g.firstName + g.whole) then Move.accept
    else Move.reduce p
  match s.target? lexeme with
  | none => reduces
  | some t =>
    let (keepDone, keepShift) := settle g best (g.readers items first s lexeme)
    (if keepDone then reduces else []) ++ (if keepShift then [.shift t] else [])

/-- The settled moves of a state. -/
def Productions.row (g : Productions) (items : Items) (first : Array Bits) (s : State) : Row :=
  if s.completed.isEmpty then
    (s.targets.filter fun t => t.1 < g.firstName).map fun t => (t.1, [.shift t.2])
  else
    (g.completionsAt s).zipIdx.toList.filterMap fun
      | ([], lexeme) => (s.target? lexeme).map fun t => (lexeme, [.shift t])
      | (completions, lexeme) => some (lexeme, g.movesAt items first s completions lexeme)

end TestConversion.Syntax
