import TestConversion.Syntax.Merging

/-!
# The parsing automaton of a grammar

The states of a grammar with their settled moves, merged as far as that changes no choice.
-/

namespace TestConversion.Syntax

structure Automaton where
  grammar : Productions
  /-- The moves of each state by lexeme. -/
  moves : Array (Array (List Move))
  /-- The state after each symbol, by state. -/
  targets : Array (Std.HashMap Nat Nat)

/-- Moves between groups of states. -/
def Grouping.move (g : Grouping) : Move → Move
  | .shift t => .shift (g.of t)
  | m => m

/-- The moves of a group by lexeme: those of its states, which agree, and for lexemes that may stand
anywhere the move that reads them. -/
def Grouping.moves (g : Grouping) (outlines : Array Outline) (lexemes : Nat) (extras : List Nat)
    (group : List Nat) : Array (List Move) :=
  let bare : Array (List Move) := Array.replicate lexemes []
  let row := group.foldl
    (fun row s =>
      ((outlines[s]?.map (·.row)).getD []).foldl
        (fun row (lexeme, moves) => row.set! lexeme (moves.map g.move)) row)
    bare
  extras.foldl
    (fun row lexeme => if (row[lexeme]?.getD []).isEmpty then row.set! lexeme [.skip] else row) row

/-- The group after each symbol. -/
def Grouping.targets (g : Grouping) (states : Array State) (group : List Nat) :
    Std.HashMap Nat Nat :=
  group.foldl
    (fun targets s =>
      ((states[s]?.map (·.targets)).getD []).foldl
        (fun targets (symbol, t) => targets.insert symbol (g.of t)) targets)
    {}

/-- The automaton of a grammar. -/
def Grammar.automaton (grammar : Grammar) : Automaton :=
  let g := grammar.productions
  let items := g.items grammar.isSilent
  let first := g.first
  let states := g.states items first
  let clashes := g.clashes (g.following first g.last)
  let outlines := states.map fun s => s.outline g.firstName clashes (g.row items first s)
  let groups := mergeable (states.map (·.core)) outlines
  let extras := (List.range g.lexemes.size).filter fun i =>
    grammar.extras.contains ((g.lexemes[i]?.map (·.name)).getD "")
  { grammar := g,
    moves := groups.members.map (groups.moves outlines g.firstName extras),
    targets := groups.members.map (groups.targets states) }

end TestConversion.Syntax
