/-!
Sets of code points given as ascending closed ranges.
-/

namespace FirstMatch.Unicode

/-- Whether a code point lies in one of the ranges, which are sorted. -/
def within : List (Nat × Nat) → Nat → Bool
  | [], _ => false
  | (lo, hi) :: rest, n => if n < lo then false else n ≤ hi || within rest n

end FirstMatch.Unicode
