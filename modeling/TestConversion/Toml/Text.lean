import TestConversion.Json.Reader

/-!
# Texts, keys and blanks

A text stands between double quotes, with escapes, or between single quotes, as it is; both kinds
can run over several lines between three quotes. A reading gives what was read and the rest.
-/

namespace TestConversion.Toml

/-- A value that was read, with the text after it. -/
abbrev Scan (α : Type) := Option (α × List Char)

/-! ## Blanks -/

def isLineBlank (c : Char) : Bool := c == ' ' || c == '\t'

def skipBlanks (cs : List Char) : List Char := cs.dropWhile isLineBlank

/-- The character may stand in a comment or between single quotes. -/
def isPlain (c : Char) : Bool := c == '\t' || (0x20 ≤ c.toNat && c.toNat != 0x7F)

/-- What comes after the end of a line. -/
def afterNewline? : List Char → Option (List Char)
  | '\n' :: cs => some cs
  | '\r' :: '\n' :: cs => some cs
  | _ => none

/-- What comes after a comment. -/
def skipComment : List Char → List Char
  | '#' :: cs => cs.dropWhile isPlain
  | cs => cs

/-- What comes after the blanks, the comment and the end of a line. -/
def finishLine (cs : List Char) : Option (List Char) :=
  match skipComment (skipBlanks cs) with
  | [] => some []
  | cs => afterNewline? cs

/-- What comes after blanks, comments and ends of lines; a comment has to end with its line. -/
def skipLines : Nat → List Char → Option (List Char)
  | 0, _ => none
  | fuel + 1, cs =>
    match skipBlanks cs with
    | '#' :: cs =>
      match afterNewline? (skipComment ('#' :: cs)) with
      | some cs => skipLines fuel cs
      | none => none
    | cs =>
      match afterNewline? cs with
      | some cs => skipLines fuel cs
      | none => if cs.head? == some '\r' then none else some cs

def skipAllLines (cs : List Char) : Option (List Char) := skipLines (cs.length + 1) cs

/-! ## Escapes -/

/-- Some hexadecimal digits. -/
def hexNumber : Nat → Nat → List Char → Scan Nat
  | 0, n, cs => some (n, cs)
  | count + 1, n, c :: cs =>
    match Json.hexValue c with
    | some d => hexNumber count (16 * n + d) cs
    | none => none
  | _ + 1, _, [] => none

def scalar (digits : Nat) (cs : List Char) : Scan Char :=
  match hexNumber digits 0 cs with
  | some (n, rest) => if n.isValidChar then some (Char.ofNat n, rest) else none
  | none => none

/-- The character of an escape whose backslash has been read. -/
def escape : List Char → Scan Char
  | 'b' :: cs => some ('\x08', cs)
  | 't' :: cs => some ('\t', cs)
  | 'n' :: cs => some ('\n', cs)
  | 'f' :: cs => some ('\x0c', cs)
  | 'r' :: cs => some ('\r', cs)
  | '"' :: cs => some ('"', cs)
  | '\\' :: cs => some ('\\', cs)
  | 'u' :: cs => scalar 4 cs
  | 'U' :: cs => scalar 8 cs
  | _ => none

/-! ## Texts -/

/-- The rest of a text in double quotes; `done` is what was read of it, reversed. -/
def quotedFrom : Nat → List Char → List Char → Scan String
  | 0, _, _ => none
  | _ + 1, _, [] => none
  | _ + 1, done, '"' :: cs => some (String.ofList done.reverse, cs)
  | fuel + 1, done, '\\' :: cs =>
    match escape cs with
    | some (c, cs) => quotedFrom fuel (c :: done) cs
    | none => none
  | fuel + 1, done, c :: cs => if isPlain c then quotedFrom fuel (c :: done) cs else none

/-- The rest of a text in single quotes. -/
def literalFrom (done : List Char) : List Char → Scan String
  | [] => none
  | c :: cs =>
    if c == '\'' then some (String.ofList done.reverse, cs)
    else if isPlain c then literalFrom (c :: done) cs
    else none

/-- What comes after blanks and ends of lines. -/
def skipSpace : List Char → List Char
  | '\r' :: '\n' :: cs => skipSpace cs
  | c :: cs => if isLineBlank c || c == '\n' then skipSpace cs else c :: cs
  | [] => []

/-- What comes after the blank end of a line and all blanks and empty lines after it. -/
def joinLines (cs : List Char) : Option (List Char) :=
  (afterNewline? (skipBlanks cs)).map skipSpace

/-- Three quotes end a text of several lines; up to two more before them belong to it. -/
def closeLines (quote : Char) (done cs : List Char) : Option (Option (String × List Char)) :=
  let run := (cs.takeWhile (· == quote)).length
  if run < 3 then none
  else
    let kept := min (run - 3) 2
    some (some (String.ofList (done.reverse ++ List.replicate kept quote), cs.drop (kept + 3)))

/-- The rest of a text of several lines. Ends of lines count as line feeds. -/
def linesFrom (quote : Char) : Nat → List Char → List Char → Scan String
  | 0, _, _ => none
  | _ + 1, _, [] => none
  | fuel + 1, done, c :: cs =>
    match closeLines quote done (c :: cs) with
    | some closed => closed
    | none =>
      if c == '\\' && quote == '"' then
        match joinLines cs with
        | some cs => linesFrom quote fuel done cs
        | none =>
          match escape cs with
          | some (c, cs) => linesFrom quote fuel (c :: done) cs
          | none => none
      else
        match afterNewline? (c :: cs) with
        | some cs => linesFrom quote fuel ('\n' :: done) cs
        | none => if isPlain c then linesFrom quote fuel (c :: done) cs else none

/-- A text of several lines; an end of line right after the quotes is left out. -/
def lines (quote : Char) (cs : List Char) : Scan String :=
  let cs := (afterNewline? cs).getD cs
  linesFrom quote (cs.length + 1) [] cs

def text : List Char → Scan String
  | '"' :: '"' :: '"' :: cs => lines '"' cs
  | '\'' :: '\'' :: '\'' :: cs => lines '\'' cs
  | '"' :: cs => quotedFrom (cs.length + 1) [] cs
  | '\'' :: cs => literalFrom [] cs
  | _ => none

/-! ## Keys -/

def isKeyChar (c : Char) : Bool := c.isAlphanum || c == '-' || c == '_'

/-- A part of a key: a word, or a text on one line. -/
def keyPart : List Char → Scan String
  | '"' :: cs => quotedFrom (cs.length + 1) [] cs
  | '\'' :: cs => literalFrom [] cs
  | cs =>
    let word := cs.takeWhile isKeyChar
    if word.isEmpty then none else some (String.ofList word, cs.drop word.length)

/-- How many parts a key may have, and how deep values may lie. -/
def depthLimit : Nat := 79

/-- A key of several parts with dots and blanks between them. -/
def keyFrom : Nat → List Char → Scan (List String)
  | 0, _ => none
  | fuel + 1, cs =>
    match keyPart (skipBlanks cs) with
    | none => none
    | some (part, cs) =>
      match skipBlanks cs with
      | '.' :: cs =>
        match keyFrom fuel cs with
        | some (parts, cs) => some (part :: parts, cs)
        | none => none
      | cs => some ([part], cs)

def key (cs : List Char) : Scan (List String) := keyFrom depthLimit cs

end TestConversion.Toml
