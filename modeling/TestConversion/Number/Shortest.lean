import TestConversion.Number.Decimal

/-!
# Shortest numerals

Of the decimal numbers that round to a binary number the ones with the fewest digits are taken, and
of these the nearest. Such a decimal number is written with or without an exponent.
-/

namespace TestConversion.Number

/-- Which of two equally near decimal numbers is taken. -/
inductive Tie where
  | even
  | up
  deriving DecidableEq

/-- The numbers that round to a positive binary number, all over one denominator. -/
structure Interval where
  low : Nat
  value : Nat
  high : Nat
  den : Nat
  /-- The ends round to the number as well. -/
  closed : Bool

/-- Below a power of two the numbers of a format are twice as dense. -/
def Format.interval (f : Format) (mantissa : Nat) (exponent : Int) : Interval :=
  let unit := Quotient.scaled 1 2 (exponent - 2)
  let below := if mantissa = Nat.pow 2 (f.precision - 1) && f.least < exponent then 1 else 2
  ⟨(4 * mantissa - below) * unit.num, 4 * mantissa * unit.num, (4 * mantissa + 2) * unit.num,
    unit.den, mantissa % 2 = 0⟩

def Interval.holds (i : Interval) (num den : Nat) : Bool :=
  let x := num * i.den
  if i.closed then i.low * den ≤ x && x ≤ i.high * den else i.low * den < x && x < i.high * den

/-- The multiple of a power of ten in the interval that is nearest to its value. -/
def Interval.onGrid (i : Interval) (tie : Tie) (power : Int) : Option Nat :=
  let grid := Quotient.scaled 1 10 power
  let num := i.value * grid.den
  let den := i.den * grid.num
  let n := num / den
  let rest := 2 * (num % den)
  let inside := fun n => i.holds (n * grid.num) grid.den
  let up := den < rest || (rest = den && (tie = .up || n % 2 = 1))
  match inside n, inside (n + 1) with
  | true, true => some (if up then n + 1 else n)
  | true, false => some n
  | false, true => some (n + 1)
  | false, false => none

/-- The digits without zeros at the end. -/
def trimZeros : Nat → Nat → Int → Nat × Int
  | 0, n, e => (n, e)
  | fuel + 1, n, e => if n % 10 = 0 then trimZeros fuel (n / 10) (e + 1) else (n, e)

/-- The digits on the first of the given grids that the interval meets. -/
def Interval.shortestFrom (i : Interval) (tie : Tie) (magnitude : Int) : Nat → Nat → Nat × Int
  | 0, _ => (0, 0)
  | fuel + 1, count =>
    let power := magnitude + 1 - (count : Int)
    match i.onGrid tie power with
    | some n => trimZeros (digitCount 10 n) n power
    | none => i.shortestFrom tie magnitude fuel (count + 1)

/-- The digits and the power of ten of the shortest decimal number for a positive binary number. -/
def Format.shortest (f : Format) (tie : Tie) (mantissa : Nat) (exponent : Int) : Nat × Int :=
  (f.interval mantissa exponent).shortestFrom tie
    ((Quotient.scaled mantissa 2 exponent).magnitude 10) (f.precision + 1) 1

/-! ## Writing -/

def zeros (n : Nat) : String := String.ofList (List.replicate n '0')

/-- All digits around the point, which is left out at the end. -/
def positional (digits : Nat) (power : Int) : String :=
  let ds := toString digits
  if 0 ≤ power then ds ++ zeros power.toNat
  else
    let places := (-power).toNat
    if places < ds.length then
      String.ofList (ds.toList.take (ds.length - places)) ++ "." ++
        String.ofList (ds.toList.drop (ds.length - places))
    else "0." ++ zeros (places - ds.length) ++ ds

/-- One digit in front of the point and an exponent. -/
def scientific (digits : Nat) (power : Int) : String :=
  let ds := (toString digits).toList
  let rest := ds.drop 1
  String.ofList (ds.take 1) ++ (if rest.isEmpty then "" else "." ++ String.ofList rest) ++ "e" ++
    toString (power + rest.length)

def signed (negative : Bool) (text : String) : String := if negative then "-" ++ text else text

/-- The shortest numeral of a single number, without an exponent. -/
def plainNumeral : Binary → String
  | .finite negative 0 _ => signed negative "0"
  | .finite negative m e =>
    let (digits, power) := single.shortest .up m e
    signed negative (positional digits power)
  | .infinite negative => signed negative "inf"
  | .undefined => "NaN"

/-- The exponents of ten, one above that of the first digit, that a record writes by position. -/
def isPositional (top : Int) : Bool := -6 < top && top ≤ 13

/-- The shortest numeral of a single number in a record; only a finite number has one. -/
def recordNumeral? : Binary → Option String
  | .finite negative 0 _ => some (signed negative "0.0")
  | .finite negative m e =>
    let (digits, power) := single.shortest .even m e
    let top := (toString digits).length + power
    some (signed negative
      (if isPositional top then
        positional digits power ++ (if 0 ≤ power then ".0" else "")
      else scientific digits power))
  | _ => none

end TestConversion.Number
