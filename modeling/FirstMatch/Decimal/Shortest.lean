import FirstMatch.Decimal.Double

/-!
The shortest decimal that reads back: of the decimals with the fewest digits that are stored as a
given number, the one nearest to it, with an even last digit if two are equally near.
-/

namespace FirstMatch.Decimal

/-- The order of `a * 10 ^ t` and `b * 2 ^ q`. -/
def order (a : Nat) (t : Int) (b : Nat) (q : Int) : Ordering :=
  let (an, ad) := scale 10 a 1 t
  let (bn, bd) := scale 2 b 1 q
  compare (an * bd) (bn * ad)

/-- The interval of reals that are stored as `mantissa * 2 ^ exponent`, in quarters of the last
digit: its ends, and whether they belong to it. -/
structure Interval where
  low : Nat
  high : Nat
  quarter : Int
  closed : Bool

def intervalOf (mantissa : Nat) (exponent : Int) : Interval :=
  let gap := if mantissa = Double.leastMantissa ∧ exponent ≠ Double.leastExponent then 1 else 2
  ⟨4 * mantissa - gap, 4 * mantissa + 2, exponent - 2, mantissa % 2 = 0⟩

/-- Whether `n * 10 ^ t` lies in the interval. -/
def Interval.holds (i : Interval) (n : Nat) (t : Int) : Bool :=
  let above := order n t i.low i.quarter
  let below := order n t i.high i.quarter
  (above == .gt || (i.closed && above == .eq)) && (below == .lt || (i.closed && below == .eq))

/-- The number of digits before the point: the least `d` with the number below `10 ^ d`. -/
def magnitude (mantissa : Nat) (exponent : Int) : Int :=
  let guess : Int := ((Nat.log2 mantissa : Int) + exponent) * 30103 / 100000
  let candidates := (List.range 4).map fun i : Nat => guess + (i : Int) - 1
  (candidates.find? fun d => order 1 d mantissa exponent == .gt).getD (guess + 3)

/-- Of a number and the next one the nearer to a value between them, which lies `part` parts of `whole`
above the first. Of two equally near ones the even is taken. -/
def nearest (below part whole : Nat) : Nat :=
  match compare part whole with
  | .lt => below
  | .eq => if below % 2 = 0 then below else below + 1
  | .gt => below + 1

/-- A decimal of at most `digits` digits for the number, if one reads back. -/
def withDigits (mantissa : Nat) (exponent : Int) (d : Int) (digits : Nat) : Option (Nat × Int) :=
  let t := d - digits
  let (n, den) := scale 2 mantissa 1 exponent
  let (num, den) := scale 10 n den (-t)
  let below := num / den
  let above := below + 1
  let i := intervalOf mantissa exponent
  match i.holds below t, i.holds above t with
  | true, true => some (nearest below (2 * (num % den)) den, t)
  | true, false => some (below, t)
  | false, true => some (above, t)
  | false, false => none

/-- The digits and the exponent of the shortest decimal for a number that is not zero. -/
def shortest (mantissa : Nat) (exponent : Int) : Nat × Int :=
  let d := magnitude mantissa exponent
  ((List.range 17).findSome? fun k => withDigits mantissa exponent d (k + 1)).getD (mantissa, exponent)

/-- How a decimal is written: positionally when the point falls within this range of places, with at
least one place behind it, and with an exponent of at least two digits otherwise. -/
structure Style where
  least : Int
  greatest : Int

/-- Positional from 0.0001 to below 10 ^ 16. -/
def style : Style := ⟨-4, 16⟩

def exponentText (e : Int) : String :=
  let digits := toString e.natAbs
  (if e < 0 then "e-" else "e+") ++ (if digits.length < 2 then "0" ++ digits else digits)

/-- Writes the digits with the point after the first `point` of them. -/
def layout (digits : List Char) (point : Int) : String :=
  let size : Int := digits.length
  if style.least < point ∧ point ≤ style.greatest then
    if point ≤ 0 then "0." ++ .ofList (List.replicate (-point).toNat '0' ++ digits)
    else if size ≤ point then
      .ofList (digits ++ List.replicate (point - size).toNat '0') ++ ".0"
    else .ofList (digits.take point.toNat) ++ "." ++ .ofList (digits.drop point.toNat)
  else
    let fraction := digits.drop 1
    .ofList (digits.take 1) ++ (if fraction = [] then "" else "." ++ .ofList fraction) ++
      exponentText (point - 1)

/-- The digits without the zeros at their end, and how many there were. -/
def trimZeros (digits : List Char) : List Char × Nat :=
  let rest := digits.reverse.dropWhile (· == '0')
  (rest.reverse, digits.length - rest.length)

def Double.display : Double → String
  | .infinite negative => if negative then "-inf" else "inf"
  | .finite negative 0 _ => if negative then "-0.0" else "0.0"
  | .finite negative m e =>
    let (n, t) := shortest m e
    let all := (toString n).toList
    let text := layout (trimZeros all).1 (all.length + t)
    if negative then "-" ++ text else text

end FirstMatch.Decimal
