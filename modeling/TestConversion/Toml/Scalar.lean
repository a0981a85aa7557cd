import TestConversion.Number.Decimal
import TestConversion.Toml.Table
import TestConversion.Toml.Text

/-!
# Numbers, dates and times

Digits can be set apart by underscores, each between two digits. An integer has to fit into 64 bits,
and a number with a point or an exponent must not be too large.
-/

namespace TestConversion.Toml

open Number

/-! ## Digits -/

/-- Digits with single underscores between them, which are left out. -/
def digitsFrom (isDigit : Char → Bool) : Nat → List Char → Scan (List Char)
  | 0, _ => none
  | fuel + 1, c :: cs =>
    if isDigit c then
      match cs with
      | '_' :: rest =>
        match digitsFrom isDigit fuel rest with
        | some (ds, rest) => some (c :: ds, rest)
        | none => none
      | d :: _ =>
        if isDigit d then
          match digitsFrom isDigit fuel cs with
          | some (ds, rest) => some (c :: ds, rest)
          | none => none
        else some ([c], cs)
      | [] => some ([c], [])
    else none
  | _ + 1, [] => none

def digits (isDigit : Char → Bool) (cs : List Char) : Scan (List Char) :=
  digitsFrom isDigit (cs.length + 1) cs

def sign : List Char → List Char × List Char
  | '+' :: cs => (['+'], cs)
  | '-' :: cs => (['-'], cs)
  | cs => ([], cs)

/-- Decimal digits without a zero in front of others. -/
def wholeDigits : List Char → Scan (List Char)
  | '0' :: cs => some (['0'], cs)
  | cs => digits Char.isDigit cs

/-! ## Integers -/

def baseOf : Char → Option Nat
  | 'x' => some 16
  | 'o' => some 8
  | 'b' => some 2
  | _ => none

def isDigitOf (base : Nat) (c : Char) : Bool :=
  match Json.hexValue c with
  | some d => d < base
  | none => false

/-- What an integer of 64 bits is below. -/
def integerLimit : Int := 9223372036854775808

/-- The integer fits into 64 bits. -/
def fitted (n : Int) : Option Value :=
  if -integerLimit ≤ n && n < integerLimit then some (.integer n) else none

def decimalInteger (cs : List Char) : Scan Value :=
  let (s, rest) := sign cs
  match wholeDigits rest with
  | none => none
  | some (ds, rest) =>
    let n : Int := ofDigits ds
    (fitted (if s == ['-'] then -n else n)).map fun v => (v, rest)

def integer (cs : List Char) : Scan Value :=
  match cs with
  | '0' :: c :: rest =>
    match baseOf c with
    | none => decimalInteger cs
    | some base =>
      match digits (isDigitOf base) rest with
      | none => none
      | some (ds, rest) =>
        let n := ds.foldl (fun n d => base * n + (Json.hexValue d).getD 0) 0
        (fitted n).map fun v => (v, rest)
  | cs => decimalInteger cs

/-! ## Numbers with a point or an exponent -/

def exponent : List Char → Scan (List Char)
  | c :: cs =>
    if c == 'e' || c == 'E' then
      let (s, rest) := sign cs
      match digits Char.isDigit rest with
      | some (ds, rest) => some ('e' :: s ++ ds, rest)
      | none => none
    else none
  | [] => none

/-- What follows the digits before the point: a fraction, an exponent or both. -/
def fraction : List Char → Scan (List Char)
  | '.' :: cs =>
    match digits Char.isDigit cs with
    | none => none
    | some (ds, rest) =>
      match exponent rest with
      | some (e, rest) => some ('.' :: ds ++ e, rest)
      | none =>
        if rest.head? == some 'e' || rest.head? == some 'E' then none else some ('.' :: ds, rest)
  | cs => exponent cs

def numeral (cs : List Char) : Scan (List Char) :=
  let (s, rest) := sign cs
  match wholeDigits rest with
  | none => none
  | some (whole, rest) =>
    match fraction rest with
    | none => none
    | some (f, rest) => some (s ++ whole ++ f, rest)

/-- The names of what is no finite number. -/
def named (cs : List Char) : Scan Value :=
  let (s, rest) := sign cs
  match rest with
  | 'i' :: 'n' :: 'f' :: rest => some (.number (.infinite (s == ['-'])), rest)
  | 'n' :: 'a' :: 'n' :: rest => some (.number .undefined, rest)
  | _ => none

def number (cs : List Char) : Scan Value :=
  match numeral cs with
  | some (text, rest) =>
    match (Decimal.ofNumeral text).toBinary double with
    | .infinite false => none
    | x => some (.number x, rest)
  | none => named cs

/-! ## Dates and times -/

def digitsInRange (count low high : Nat) (cs : List Char) : Scan Nat :=
  let ds := cs.take count
  let n := ofDigits ds
  if ds.length = count && ds.all Char.isDigit && low ≤ n && n ≤ high then some (n, cs.drop count)
  else none

def isLeapYear (year : Nat) : Bool := year % 4 = 0 && (year % 100 != 0 || year % 400 = 0)

def daysIn (year month : Nat) : Nat :=
  if month = 2 then if isLeapYear year then 29 else 28
  else if month = 4 || month = 6 || month = 9 || month = 11 then 30
  else 31

/-- What comes after a mark. -/
def expect (mark : Char) : List Char → Option (List Char)
  | c :: cs => if c == mark then some cs else none
  | [] => none

/-- What comes after a date. -/
def afterDate? (cs : List Char) : Option (List Char) := do
  let (year, cs) ← digitsInRange 4 0 9999 cs
  let (month, cs) ← digitsInRange 2 1 12 (← expect '-' cs)
  let (_, cs) ← digitsInRange 2 1 (daysIn year month) (← expect '-' cs)
  return cs

/-- What comes after a time. -/
def afterTime? (cs : List Char) : Option (List Char) := do
  let (_, cs) ← digitsInRange 2 0 23 cs
  let (_, cs) ← digitsInRange 2 0 59 (← expect ':' cs)
  let (_, cs) ← digitsInRange 2 0 60 (← expect ':' cs)
  match cs with
  | '.' :: after =>
    let ds := after.takeWhile Char.isDigit
    if ds.isEmpty then none else return after.drop ds.length
  | cs => return cs

/-- What comes after a difference to world time. -/
def afterOffset? : List Char → Option (List Char)
  | 'Z' :: cs => some cs
  | 'z' :: cs => some cs
  | c :: cs =>
    if c == '+' || c == '-' then do
      let (_, cs) ← digitsInRange 2 0 23 cs
      let (_, cs) ← digitsInRange 2 0 59 (← expect ':' cs)
      return cs
    else none
  | [] => none

def isTimeMark (c : Char) : Bool := c == 'T' || c == 't' || c == ' '

/-- A date, a time or both. -/
def moment (cs : List Char) : Scan Value :=
  match afterDate? cs with
  | some rest =>
    match rest with
    | c :: after =>
      match if isTimeMark c then afterTime? after else none with
      | some rest => some (.moment, (afterOffset? rest).getD rest)
      | none => some (.moment, rest)
    | [] => some (.moment, [])
  | none => (afterTime? cs).map fun rest => (.moment, rest)

def truth : List Char → Scan Value
  | 't' :: 'r' :: 'u' :: 'e' :: cs => some (.truth true, cs)
  | 'f' :: 'a' :: 'l' :: 's' :: 'e' :: cs => some (.truth false, cs)
  | _ => none

/-- A value of one word. -/
def word (cs : List Char) : Scan Value :=
  match truth cs with
  | some r => some r
  | none =>
    match moment cs with
    | some r => some r
    | none =>
      match number cs with
      | some r => some r
      | none => integer cs

end TestConversion.Toml
