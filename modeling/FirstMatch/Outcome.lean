import FirstMatch.Value

/-!
The outcome of one step: a token with the span of its match, a match without a token, the end of the
input, or an error.
-/

namespace FirstMatch

inductive Outcome
  | emitted (token : Value) (location : Span)
  | skipped (location : Span)
  | exhausted
  | failed (fault : Fault)
deriving Inhabited

namespace Outcome

/-- The outcome of a match whose action returned a value. -/
def ofResult (result : Value) (location : Span) : Outcome :=
  match result with
  | .skip => skipped location
  | token => emitted token location

/-- An outcome as a mapping. -/
def record : Outcome → Value
  | emitted token location =>
    .record [("type", .ofString "Emitted"), ("token", token), ("loc", .span location)]
  | skipped location => .record [("type", .ofString "Skipped"), ("loc", .span location)]
  | exhausted => .record [("type", .ofString "Exhausted")]
  | failed fault => .record [("type", .ofString "Failed"), ("error", .fault fault)]

end Outcome

end FirstMatch
