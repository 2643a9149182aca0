/-!
Numbers with a fraction, as they are stored: fifty-three binary digits and a binary exponent. A
decimal is stored as the nearest such number, a tie as the one with the even last digit.
-/

namespace FirstMatch.Decimal

/-- The number `± mantissa * 2 ^ exponent`, or an infinity. Mantissas have fifty-three digits unless
the exponent is the least one. -/
inductive Double
  | finite (negative : Bool) (mantissa : Nat) (exponent : Int)
  | infinite (negative : Bool)
deriving DecidableEq, Inhabited

/-- The quotient of two numbers, rounded to the nearest whole number, a tie to the even one. -/
def roundDiv (num den : Nat) : Nat :=
  let q := num / den
  let r := num % den
  if 2 * r < den then q else if den < 2 * r then q + 1 else if q % 2 = 0 then q else q + 1

/-- `num / den * base ^ e` as a fraction. -/
def scale (base : Nat) (num den : Nat) (e : Int) : Nat × Nat :=
  if 0 ≤ e then (num * Nat.pow base e.toNat, den) else (num, den * Nat.pow base (-e).toNat)

namespace Double

def leastExponent : Int := -1074

def greatestExponent : Int := 971

/-- The least number of fifty-three binary digits. -/
def leastMantissa : Nat := 4503599627370496

/-- The stored form of a positive fraction. -/
def ofFraction (negative : Bool) (num den : Nat) : Double :=
  let guess : Int := (Nat.log2 num : Int) - Nat.log2 den - 52
  let (n, d) := scale 2 num den (-guess)
  let e := if n / d < leastMantissa then guess - 1 else guess
  let e := max e leastExponent
  let (n, d) := scale 2 num den (-e)
  let m := roundDiv n d
  let (m, e) := if m = 2 * leastMantissa then (leastMantissa, e + 1) else (m, e)
  if greatestExponent < e then infinite negative else finite negative m e

/-- The stored form of `± digits * 10 ^ exponent`. -/
def ofDecimal (negative : Bool) (digits : Nat) (exponent : Int) : Double :=
  if digits = 0 then finite negative 0 leastExponent
  else
    let (n, d) := scale 10 digits 1 exponent
    ofFraction negative n d

/-- Whether the number is the given whole number. -/
def isInt (x : Double) (n : Int) : Bool :=
  match x with
  | infinite _ => false
  | finite negative m e =>
    let (num, den) := scale 2 m 1 e
    let signed : Int := if negative then -num else num
    signed == n * den

/-- Numbers are equal by value: the sign of zero does not count. -/
def same (x y : Double) : Bool :=
  match x, y with
  | finite _ 0 _, finite _ 0 _ => true
  | _, _ => x == y

end Double

end FirstMatch.Decimal
