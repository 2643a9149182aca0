/-!
The end anchor. In a declared pattern a dollar outside a set means the very end of the input, so it is
replaced by the escape that means just that. A pattern that sets the multiline flag keeps its dollars.
-/

namespace FirstMatch.EndAnchor

def isLetter (c : Char) : Bool := c.isAlpha

/-- Whether somewhere the letters right after an opening parenthesis and a question mark include the
multiline flag. -/
def setsMultiline : List Char → Bool
  | [] => false
  | '(' :: '?' :: cs => (cs.takeWhile isLetter).contains 'm' || setsMultiline cs
  | _ :: cs => setsMultiline cs

/-- Where in a pattern a character stands: outside of sets, first in a set, or further in. -/
inductive Region
  | outside
  | first
  | inside
deriving DecidableEq

/-- After an escape a set is no longer at its first member. -/
def Region.afterEscape : Region → Region
  | .outside => .outside
  | .first | .inside => .inside

/-- Replaces the dollars outside of sets. A closing bracket that is first in a set does not end it. -/
def replaceFrom : Region → List Char → List Char
  | _, [] => []
  | _, ['\\'] => ['\\']
  | r, '\\' :: c :: cs => '\\' :: c :: replaceFrom r.afterEscape cs
  | .outside, '[' :: '^' :: cs => '[' :: '^' :: replaceFrom .first cs
  | .outside, '[' :: cs => '[' :: replaceFrom .first cs
  | .outside, '$' :: cs => '\\' :: 'Z' :: replaceFrom .outside cs
  | .outside, c :: cs => c :: replaceFrom .outside cs
  | .first, c :: cs => c :: replaceFrom .inside cs
  | .inside, ']' :: cs => ']' :: replaceFrom .outside cs
  | .inside, c :: cs => c :: replaceFrom .inside cs

/-- The pattern that is compiled for a declared one. -/
def replace (source : List Char) : List Char :=
  if setsMultiline source then source else replaceFrom .outside source

end FirstMatch.EndAnchor
