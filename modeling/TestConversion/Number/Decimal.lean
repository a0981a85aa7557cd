import TestConversion.Number.Binary

/-!
# Decimal numbers

A decimal number is an integer times a power of ten. It is read from a numeral such as `-12.5e3`,
and taken to the nearest binary number.
-/

namespace TestConversion.Number

structure Decimal where
  negative : Bool
  digits : Nat
  exponent : Int
  deriving DecidableEq

def digitValue (c : Char) : Nat := c.toNat - '0'.toNat

/-- The number that a list of decimal digits writes. -/
def ofDigits (cs : List Char) : Nat := cs.foldl (fun n c => 10 * n + digitValue c) 0

/-- A sign that a numeral may start with, and the rest. -/
def takeSign : List Char → Bool × List Char
  | '-' :: cs => (true, cs)
  | '+' :: cs => (false, cs)
  | cs => (false, cs)

/-- The number that a numeral writes: digits, perhaps a point with digits, perhaps an exponent. -/
def Decimal.ofNumeral (cs : List Char) : Decimal :=
  let (negative, unsigned) := takeSign cs
  let whole := unsigned.takeWhile Char.isDigit
  let rest := unsigned.drop whole.length
  let (fraction, rest) :=
    match rest with
    | '.' :: after =>
      let fraction := after.takeWhile Char.isDigit
      (fraction, after.drop fraction.length)
    | rest => ([], rest)
  let (lower, size) := takeSign (rest.drop 1)
  let power : Int := ofDigits (size.takeWhile Char.isDigit)
  { negative
    digits := ofDigits (whole ++ fraction)
    exponent := (if lower then -power else power) - fraction.length }

/-- A power of ten above every finite number, and below every one if it is negated. -/
def reach : Int := 400

/-- The nearest number of a format that has no numbers beyond the reach. -/
def Decimal.toBinary (f : Format) (d : Decimal) : Binary :=
  let top : Int := digitCount 10 d.digits + d.exponent
  if d.digits = 0 || top < -reach then .finite d.negative 0 f.least
  else if reach < top then .infinite d.negative
  else f.round d.negative (.scaled d.digits 10 d.exponent)

end TestConversion.Number
