import TestConversion.Json.Basic

/-!
# Writing JSON

A value is written in front of a given rest, on one line or with one item a line and two blanks for
each level. Empty arrays and objects stay on one line, and of the characters only quotes,
backslashes and control characters are escaped.
-/

namespace TestConversion.Json

def hexDigit (n : Nat) : Char := if n < 10 then Char.ofNat (48 + n) else Char.ofNat (87 + n)

/-- A character as it stands between quotes. -/
def escapeChar (c : Char) : List Char :=
  match c with
  | '"' => ['\\', '"']
  | '\\' => ['\\', '\\']
  | '\x08' => ['\\', 'b']
  | '\x0c' => ['\\', 'f']
  | '\n' => ['\\', 'n']
  | '\r' => ['\\', 'r']
  | '\t' => ['\\', 't']
  | c =>
    if c.toNat < 0x20 then ['\\', 'u', '0', '0', hexDigit (c.toNat / 16), hexDigit (c.toNat % 16)]
    else [c]

def writeString (s : String) (rest : List Char) : List Char :=
  '"' :: s.toList.foldr (fun c r => escapeChar c ++ r) ('"' :: rest)

/-- How the parts of arrays and objects are set apart. -/
structure Layout where
  /-- What comes before an item at some depth. -/
  break_ : Nat → List Char
  /-- What comes between a key and its value. -/
  colon : List Char

def Layout.compact : Layout := ⟨fun _ => [], [':']⟩

def Layout.pretty : Layout := ⟨fun n => '\n' :: List.replicate (2 * n) ' ', [':', ' ']⟩

mutual

/-- Writes a value at a depth in front of the rest. -/
def write (l : Layout) (depth : Nat) : Json → List Char → List Char
  | null, rest => "null".toList ++ rest
  | bool true, rest => "true".toList ++ rest
  | bool false, rest => "false".toList ++ rest
  | number t, rest => t.toList ++ rest
  | string s, rest => writeString s rest
  | array [], rest => '[' :: ']' :: rest
  | array (v :: vs), rest =>
    '[' :: (l.break_ (depth + 1) ++
      write l (depth + 1) v (writeItems l (depth + 1) vs (l.break_ depth ++ ']' :: rest)))
  | object [], rest => '\x7b' :: '\x7d' :: rest
  | object ((k, v) :: ms), rest =>
    '\x7b' :: (l.break_ (depth + 1) ++
      writeString k (l.colon ++
        write l (depth + 1) v (writeMembers l (depth + 1) ms (l.break_ depth ++ '\x7d' :: rest))))

/-- Writes items after the first one. -/
def writeItems (l : Layout) (depth : Nat) : List Json → List Char → List Char
  | [], rest => rest
  | v :: vs, rest => ',' :: (l.break_ depth ++ write l depth v (writeItems l depth vs rest))

/-- Writes members after the first one. -/
def writeMembers (l : Layout) (depth : Nat) : List (String × Json) → List Char → List Char
  | [], rest => rest
  | (k, v) :: ms, rest =>
    ',' :: (l.break_ depth ++
      writeString k (l.colon ++ write l depth v (writeMembers l depth ms rest)))

end

/-- The value on one line. -/
def compact (v : Json) : String := String.ofList (write .compact 0 v [])

/-- The value with one item a line. -/
def pretty (v : Json) : String := String.ofList (write .pretty 0 v [])

end TestConversion.Json
