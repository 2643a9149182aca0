import FirstMatch.RuleTable

/-!
The part of a step before the action: the rules of a table are tried in order on a cursor, and the
first one that matches fires. A cursor at the end of its text is marked exhausted first, so rules for
the end get their one pass; an exhausted cursor is left alone.
-/

namespace FirstMatch

/-- What comes of trying the rules. `overrun` would be a match beyond the end of the text, and `tangled`
is a match whose groups cannot be told. -/
inductive Attempt
  | exhausted
  | unmatched (character : Option Char) (location : Span)
  | overrun (o : Overrun)
  | tangled
  | fired (rule : CompiledRule) (text : List Char) (span : Span)

namespace RuleTable

/-- The first rule that matches at the cursor, with its match. -/
def firstMatch (rules : List CompiledRule) (c : Cursor) : Option (CompiledRule × Regex.Match) :=
  match rules with
  | [] => none
  | r :: rs =>
    match r.matchAt c (some c.ahead) with
    | some m => some (r, m)
    | none => firstMatch rs c

/-- Tries the rules; also answers the cursor after the match. -/
def attempt (t : RuleTable) (c : Cursor) : Attempt × Cursor :=
  if c.exhausted then (.exhausted, c)
  else
    let c := c.markIfEmpty
    match firstMatch t.rules c with
    | some (rule, .length n) =>
      match c.advance n with
      | .ok (last, d) => (.fired rule (c.ahead.take n) (.between c.place last d.place), d)
      | .error o => (.overrun o, c)
    | some (_, .tangled) => (.tangled, c)
    | none =>
      if c.exhausted then (.exhausted, c) else (.unmatched c.peek c.location, c)

end RuleTable

end FirstMatch
