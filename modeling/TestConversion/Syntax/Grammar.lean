import TestConversion.Syntax.Pattern

/-!
# Grammars

A grammar is data: named lexemes with their patterns, and named rules over lexemes, fixed texts and
other rules. Rules carry what a reader of trees needs (field names, other kinds for a node) and
what settles ambiguous readings (binding levels and weights).
-/

namespace TestConversion.Syntax

inductive Assoc where
  | left
  | right
  deriving DecidableEq, Hashable

/-- The right side of a rule. -/
inductive Rule where
  | blank
  | token (text : String)
  | sym (name : String)
  | seq (a b : Rule)
  | choice (a b : Rule)
  | many1 (r : Rule)
  /-- Labels every child that the rule gives. -/
  | field (name : String) (r : Rule)
  /-- Gives the node of the rule another kind. -/
  | relabel (kind : String) (r : Rule)
  /-- Binds at a level, compared with other rules where one reading has to be chosen. -/
  | level (assoc : Option Assoc) (binding : Int) (r : Rule)
  /-- Adds weight to every reading that uses the rule. -/
  | weight (amount : Int) (r : Rule)
  deriving DecidableEq

/-- A kind of token with a name of its own or, if `named` is false, with its text as name. -/
structure Lexeme where
  name : String
  named : Bool
  pattern : Pattern
  /-- A fixed text is preferred to a pattern that matches the same text. -/
  fixed : Bool
  /-- An adjoining token follows the one before it without blanks or comments. -/
  adjoining : Bool
  /-- A token of higher rank is preferred to a longer one. -/
  rank : Int

structure Grammar where
  lexemes : List Lexeme
  /-- The rules by name; the first one is where a text starts. -/
  rules : List (String × Rule)
  /-- Lexemes that may stand between any two tokens. -/
  extras : List String
  /-- Rules without a node of their own, beside those whose names start with `_`. -/
  silent : List String
  /-- Rules that are replaced by their right sides before a parser is built. -/
  inlined : List String
  /-- The lexeme whose texts include the keywords. -/
  word : String

namespace Rule

def seqs : List Rule → Rule
  | [] => blank
  | [r] => r
  | r :: rs => seq r (seqs rs)

def choices : List Rule → Rule
  | [] => blank
  | [r] => r
  | r :: rs => choice r (choices rs)

def optional (r : Rule) : Rule := choice r blank

def many (r : Rule) : Rule := optional (many1 r)

/-- One or more `r` with `separator` between them. -/
def sepBy1 (r separator : Rule) : Rule := seq r (many (seq separator r))

def commas1 (r : Rule) : Rule := sepBy1 r (token ",")

def commas (r : Rule) : Rule := optional (commas1 r)

/-- The fixed texts of a rule, in order, repetitions included. -/
def tokens : Rule → List String
  | blank => []
  | token t => [t]
  | sym _ => []
  | seq a b | choice a b => a.tokens ++ b.tokens
  | many1 r | field _ r | relabel _ r | level _ _ r | weight _ r => r.tokens

end Rule

instance : Coe String Rule := ⟨Rule.token⟩

namespace Lexeme

/-- A token without a name, written as its text. -/
def ofText (text : String) : Lexeme :=
  { name := text, named := false, pattern := .ofString text, fixed := true, adjoining := false,
    rank := 0 }

/-- A named token that is always written the same. -/
def word (name text : String) : Lexeme :=
  { name, named := true, pattern := .ofString text, fixed := true, adjoining := false, rank := 0 }

def ofPattern (name : String) (pattern : Pattern) : Lexeme :=
  { name, named := true, pattern, fixed := false, adjoining := false, rank := 0 }

/-- The text of a lexeme that is always written the same. -/
def text? (l : Lexeme) : Option (List Char) :=
  match l.fixed, l.pattern with
  | true, .text cs => some cs
  | _, _ => none

/-- A keyword is a fixed text that is also a word. -/
def isKeyword (l word : Lexeme) : Bool := l.text?.any word.pattern.accepts

end Lexeme

namespace Grammar

/-- All lexemes: the named ones, then the fixed texts in the order of their first use. -/
def allLexemes (g : Grammar) : List Lexeme :=
  g.lexemes ++ ((g.rules.flatMap fun r => r.2.tokens).eraseDups.map Lexeme.ofText)

/-- A silent rule gives its children to the node above it. -/
def isSilent (g : Grammar) (name : String) : Bool :=
  name.startsWith "_" || g.silent.contains name

end Grammar

end TestConversion.Syntax
