import TestConversion.Text.Blank

/-!
# Fences around answers

Models put code between lines of three backticks. A fence line opens with three backticks and may
name a language. If an answer starts with a fence line and ends with three backticks, the text
between them is the code.
-/

namespace TestConversion

open Text

def fence : List Char := ['`', '`', '`']

def isTagChar (c : Char) : Bool := c.isAlphanum || c == '_' || c == '+' || c == '-'

def isLineBlank (c : Char) : Bool := c == ' ' || c == '\t'

/-- What comes after the end of a line. -/
def afterLineEnd? : List Char → Option (List Char)
  | '\n' :: cs => some cs
  | '\r' :: '\n' :: cs => some cs
  | _ => none

/-- What comes after a fence line at the start of a text. -/
def afterFenceLine? : List Char → Option (List Char)
  | '`' :: '`' :: '`' :: cs => afterLineEnd? ((cs.dropWhile isTagChar).dropWhile isLineBlank)
  | _ => none

/-- The text before three backticks at the end of a text. -/
def beforeFence? (cs : List Char) : Option (List Char) :=
  match cs.reverse with
  | '`' :: '`' :: '`' :: rest => some rest.reverse
  | _ => none

/-- The code of an answer, without blanks at its ends. -/
def codeChars (answer : List Char) : List Char :=
  let trimmed := trim answer
  match (afterFenceLine? trimmed).bind beforeFence? with
  | some code => trim code
  | none => trimmed

def codeOf (answer : String) : String := String.ofList (codeChars answer.toList)

end TestConversion
