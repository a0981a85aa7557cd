import TestConversion.Syntax.Tree
import TestConversion.Text.SourceText

/-!
# What is wrong with a source text

A source text is turned down because something is missing, because something does not fit the
grammar, or because the grammar allows a construct that Java does not. The message names the
construct and its place.
-/

namespace TestConversion.Java

open Text Syntax

inductive Problem where
  /-- A token of some kind is missing. -/
  | missing (kind : String) (place : Place)
  /-- A part of the text fits nowhere; `text` is what it reads with blanks collapsed. -/
  | misfit (text : List Char) (place : Place)
  /-- A construct of the grammar that Java does not allow there. -/
  | forbidden (text : List Char) (place : Place)
  /-- The text is not in the language, and nothing shows where. -/
  | unplaced
  deriving DecidableEq

/-- The characters that a message shows of a construct. -/
def snippetLength : Nat := 40

/-- What a message says about a construct. -/
def unexpectedText (text : List Char) : String :=
  let snippet := text.take snippetLength
  if snippet.isEmpty then "unexpected input"
  else if byteSize snippet < byteSize text then
    "unexpected \"" ++ String.ofList snippet ++ "...\""
  else "unexpected \"" ++ String.ofList snippet ++ "\""

def atPlace (what : String) (place : Place) : String :=
  what ++ " at line " ++ toString place.line ++ ", column " ++ toString place.column

def Problem.message : Problem → String
  | .missing kind place => atPlace ("missing \"" ++ kind ++ "\"") place
  | .misfit text place => atPlace (unexpectedText text) place
  | .forbidden text place => atPlace (unexpectedText text) place
  | .unplaced => "source could not be parsed"

/-- The text is not in the language of the grammar. -/
def Problem.isSyntactic : Problem → Bool
  | .forbidden _ _ => false
  | _ => true

/-- A problem of a source text that has a label, which may be empty. -/
structure SyntaxError where
  label : String
  problem : Problem
  deriving DecidableEq

def SyntaxError.message (e : SyntaxError) : String :=
  if e.label.isEmpty then e.problem.message else e.label ++ ": " ++ e.problem.message

/-- The message with the kind of the error in front. -/
def SyntaxError.display (e : SyntaxError) : String := "Java syntax error: " ++ e.message

end TestConversion.Java
