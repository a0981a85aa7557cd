import TestConversion.Text.CaseTable

/-!
# Lower case

Characters have their lower case by themselves, except for the capital sigma of a text: it becomes a
final sigma where a word ends.
-/

namespace TestConversion.Text

def isUpper (c : Char) : Bool :=
  if c.toNat < 128 then c.isUpper else inRanges uppercase c

def LowerRun.covers (r : LowerRun) (n : Nat) : Bool :=
  r.first ≤ n && n ≤ r.last && (n - r.first) % r.step == 0

/-- The lower case of a character; only the capital I with a dot has two characters. -/
def lowerChar (c : Char) : List Char :=
  if c.toNat < 128 then [c.toLower]
  else if c == '\u0130' then ['i', '\u0307']
  else
    match lowerRuns.find? (·.covers c.toNat) with
    | some r => [Char.ofNat ((c.toNat : Int) + r.shift).toNat]
    | none => [c]

/-- A cased character comes next, apart from characters that do not matter for case. -/
def casedNext (cs : List Char) : Bool :=
  match cs.dropWhile (inRanges caseIgnorable) with
  | c :: _ => inRanges cased c
  | [] => false

/-- The lower case of a text; `before` is the text in front of it, reversed. -/
def lowerFrom (before : List Char) : List Char → List Char
  | [] => []
  | c :: cs =>
    (if c == '\u03a3' then
      if casedNext before && !casedNext cs then ['\u03c2'] else ['\u03c3']
    else lowerChar c) ++ lowerFrom (c :: before) cs

def toLower (s : String) : String := String.ofList (lowerFrom [] s.toList)

end TestConversion.Text
