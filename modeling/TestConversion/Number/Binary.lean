/-!
# Binary numbers of limited precision

A finite number is a mantissa times a power of two. Rounding takes a quotient to the nearest number
of a format, of two that are equally near to the one with the even mantissa.
-/

namespace TestConversion.Number

structure Format where
  /-- How many binary digits a mantissa has at most. -/
  precision : Nat
  /-- The least exponent of a finite number. -/
  least : Int
  /-- The greatest exponent of a finite number. -/
  greatest : Int

def single : Format := ⟨24, -149, 104⟩

def double : Format := ⟨53, -1074, 971⟩

inductive Binary where
  | finite (negative : Bool) (mantissa : Nat) (exponent : Int)
  | infinite (negative : Bool)
  | undefined
  deriving DecidableEq

/-- A quotient of natural numbers; the denominator is positive. -/
structure Quotient where
  num : Nat
  den : Nat

/-- A natural number times a power of a base. -/
def Quotient.scaled (n base : Nat) (exponent : Int) : Quotient :=
  ⟨n * Nat.pow base exponent.toNat, Nat.pow base (-exponent).toNat⟩

/-- The quotient over a power of a base. -/
def Quotient.over (x : Quotient) (base : Nat) (exponent : Int) : Quotient :=
  ⟨x.num * Nat.pow base (-exponent).toNat, x.den * Nat.pow base exponent.toNat⟩

/-- How many digits a number has in a base, a zero one digit. -/
def digitCount (base n : Nat) : Nat := (Nat.toDigits base n).length

/-- The greatest power of a base that is at most a positive quotient. -/
def Quotient.magnitude (x : Quotient) (base : Nat) : Int :=
  let e : Int := (digitCount base x.num : Int) - digitCount base x.den
  let scaled := x.over base e
  if scaled.den ≤ scaled.num then e else e - 1

/-- The nearest natural number; a half goes to the even neighbour. -/
def roundHalfEven (num den : Nat) : Nat :=
  let q := num / den
  let r := num % den
  if 2 * r < den then q
  else if den < 2 * r then q + 1
  else if q % 2 = 0 then q else q + 1

/-- The number of a format that is nearest to a positive quotient. -/
def Format.round (f : Format) (negative : Bool) (x : Quotient) : Binary :=
  let exponent := max (x.magnitude 2 - (f.precision - 1 : Nat)) f.least
  let scaled := x.over 2 exponent
  let mantissa := roundHalfEven scaled.num scaled.den
  let (mantissa, exponent) :=
    if mantissa = Nat.pow 2 f.precision then (Nat.pow 2 (f.precision - 1), exponent + 1)
    else (mantissa, exponent)
  if f.greatest < exponent then .infinite negative else .finite negative mantissa exponent

/-- The number of a format that is nearest to a number of another format. -/
def Format.narrow (f : Format) : Binary → Binary
  | .finite negative 0 _ => .finite negative 0 f.least
  | .finite negative m e => f.round negative (.scaled m 2 e)
  | b => b

end TestConversion.Number
