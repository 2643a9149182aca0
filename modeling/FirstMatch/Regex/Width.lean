import FirstMatch.Regex.Basic

/-!
How many characters a pattern can match: the least and the greatest number. Both are cut off at the
limit for repetitions, which as a greatest number means that there is none.
-/

namespace FirstMatch.Regex

/-- Repetition counts stay below this number. -/
def repeatLimit : Nat := 4294967295

structure Width where
  least : Nat
  most : Nat
  least_lt : least < repeatLimit
  most_le : most ≤ repeatLimit
deriving DecidableEq

namespace Width

def zero : Width := ⟨0, 0, by decide, by decide⟩
def one : Width := ⟨1, 1, by decide, by decide⟩

/-- The width of no alternative at all, which changes nothing beside others. -/
def unreached : Width := ⟨repeatLimit - 1, 0, by decide, by decide⟩

def cut (least most : Nat) : Width where
  least := min least (repeatLimit - 1)
  most := min most repeatLimit
  least_lt := Nat.lt_of_le_of_lt (Nat.min_le_right _ _) (by decide)
  most_le := Nat.min_le_right _ _

def add (v w : Width) : Width := cut (v.least + w.least) (v.most + w.most)

def either (v w : Width) : Width where
  least := min v.least w.least
  most := max v.most w.most
  least_lt := Nat.lt_of_le_of_lt (Nat.min_le_left _ _) v.least_lt
  most_le := Nat.max_le.mpr ⟨v.most_le, w.most_le⟩

def times (w : Width) (least : Nat) (most : Option Nat) : Width :=
  cut (w.least * least) (w.most * most.getD repeatLimit)

def isFixed (w : Width) : Bool := w.least == w.most

end Width

/-- The width of a pattern, given the widths of the groups that it may refer to. -/
def width (groupWidth : Nat → Width) : Regex → Width
  | .empty | .anchor _ | .ahead .. | .behind .. => .zero
  | .never => .unreached
  | .char .. | .except .. | .any _ | .set .. => .one
  | .seq first second => (first.width groupWidth).add (second.width groupWidth)
  | .alt first others => (first.width groupWidth).either (others.width groupWidth)
  | .loop _ least most body => (body.width groupWidth).times least most
  | .group _ body | .scoped body | .atomic body => body.width groupWidth
  | .reference i _ => groupWidth i
  | .ifGroup _ yes no => (yes.width groupWidth).either (no.width groupWidth)

end FirstMatch.Regex
