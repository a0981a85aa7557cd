import TestConversion.Text.UnseenTable

/-!
# Quoted texts

A text between double quotes in which quotes, backslashes and all characters that cannot be seen by
themselves are escaped.
-/

namespace TestConversion.Text

/-- The lower-case hexadecimal digits of a number. -/
def hexDigits (n : Nat) : List Char := Nat.toDigits 16 n

/-- The character does not show by itself. -/
def isUnseen (c : Char) : Bool := inRanges graphemeExtend c || inRanges unseen c

/-- A character as it stands between quotes. -/
def quoteChar (c : Char) : List Char :=
  match c with
  | '\x00' => ['\\', '0']
  | '\t' => ['\\', 't']
  | '\r' => ['\\', 'r']
  | '\n' => ['\\', 'n']
  | '"' => ['\\', '"']
  | '\\' => ['\\', '\\']
  | c => if isUnseen c then "\\u\x7b".toList ++ hexDigits c.toNat ++ ['\x7d'] else [c]

def quote (s : String) : String :=
  String.ofList ('"' :: s.toList.flatMap quoteChar ++ ['"'])

end TestConversion.Text
