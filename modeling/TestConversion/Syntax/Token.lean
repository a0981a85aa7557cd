import TestConversion.Syntax.Automaton
import TestConversion.Syntax.Tree

/-!
# Tokens

The next token of a text depends on the state of the automaton: only the lexemes that have a move
there are tried, so a word is a keyword exactly where the grammar has a use for that keyword.
-/

namespace TestConversion.Syntax

structure Token where
  lexeme : Nat
  span : Span
  /-- The text after the token. -/
  rest : List Char
  /-- A word that was read as a keyword. -/
  keyword : Bool

/-- An automaton together with what its states need to read tokens. -/
structure Reader where
  automaton : Automaton
  /-- The lexemes that each state tries; keywords are left to the word lexeme. -/
  tried : Array (Array Nat)
  /-- The keywords by text. -/
  keywords : Std.HashMap String Nat
  word : Nat

/-- The characters between tokens. -/
def isGap (c : Char) : Bool := c == ' ' || ('\t' ≤ c && c ≤ '\r')

def byteLength (cs : List Char) : Nat := cs.foldl (fun n c => n + c.utf8Size) 0

def Automaton.movesAt (a : Automaton) (state lexeme : Nat) : List Move :=
  ((a.moves[state]?.getD #[])[lexeme]?).getD []

/-- The reader of a grammar. -/
def Grammar.reader (g : Grammar) : Reader :=
  let a := g.automaton
  let lexemes := a.grammar.lexemes
  let word := (lexemes.findIdx? (·.name == g.word)).getD 0
  let keywords := lexemes.zipIdx.toList.filterMap fun (l, i) =>
    match lexemes[word]? with
    | none => none
    | some w => if l.isKeyword w then l.text?.map fun cs => (String.ofList cs, i) else none
  let words := lexemes.map fun l => (lexemes[word]?.map l.isKeyword).getD false
  let tried := a.moves.map fun row =>
    let open_ := (Array.range lexemes.size).filter fun i => !(row[i]?.getD []).isEmpty
    let plain := open_.filter fun i => !(words[i]?.getD false)
    if plain.contains word || open_.size == plain.size then plain else plain.push word
  { automaton := a, tried, keywords := Std.HashMap.ofList keywords, word }

/-- A lexeme that could be read: its rank, where it ends, whether it is a fixed text. -/
structure Candidate where
  lexeme : Nat
  rank : Int
  skipped : Nat
  length : Nat
  fixed : Bool

/-- Rank comes first, then length, then fixed texts; of equals the earlier lexeme stays. -/
def Candidate.better (a b : Candidate) : Bool :=
  a.rank > b.rank ||
    (a.rank == b.rank &&
      (a.skipped + a.length > b.skipped + b.length ||
        (a.skipped + a.length == b.skipped + b.length && a.fixed && !b.fixed)))

/-- The lexeme at a place, directly or after the gap that follows. -/
def Lexeme.candidate (l : Lexeme) (lexeme gap : Nat) (text afterGap : List Char) :
    Option Candidate :=
  match l.pattern.longest text with
  | some (n + 1) => some ⟨lexeme, l.rank, 0, n + 1, l.fixed⟩
  | _ =>
    if l.adjoining || gap == 0 then none
    else
      match l.pattern.longest afterGap with
      | some (n + 1) => some ⟨lexeme, l.rank, gap, n + 1, l.fixed⟩
      | _ => none

/-- The token that a state reads at an offset, if there is one. -/
def Reader.token (r : Reader) (state offset : Nat) (text : List Char) : Option Token :=
  let lexemes := r.automaton.grammar.lexemes
  let between := text.takeWhile isGap
  let afterGap := text.drop between.length
  let best := (r.tried[state]?.getD #[]).foldl
    (fun best i =>
      match lexemes[i]?.bind (·.candidate i between.length text afterGap), best with
      | none, _ => best
      | some c, none => some c
      | some c, some b => if c.better b then some c else some b)
    none
  match best with
  | none =>
    if afterGap.isEmpty then
      let stop := offset + byteLength between
      some ⟨r.automaton.grammar.endSymbol, ⟨stop, stop⟩, [], false⟩
    else none
  | some c =>
    let start := offset + byteLength (text.take c.skipped)
    let body := (text.drop c.skipped).take c.length
    let stop := start + byteLength body
    let rest := (text.drop c.skipped).drop c.length
    if c.lexeme == r.word then
      match r.keywords[String.ofList body]? with
      | some k =>
        if (r.automaton.movesAt state k).isEmpty then some ⟨r.word, ⟨start, stop⟩, rest, false⟩
        else some ⟨k, ⟨start, stop⟩, rest, true⟩
      | none => some ⟨r.word, ⟨start, stop⟩, rest, false⟩
    else some ⟨c.lexeme, ⟨start, stop⟩, rest, false⟩

end TestConversion.Syntax
