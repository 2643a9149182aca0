import FirstMatch.Regex.Basic
import FirstMatch.Text.Quoted

/-!
What can be wrong with the source of a regular expression. A problem is reported with its position,
and with its line and column when the source has several lines.
-/

namespace FirstMatch.Regex

inductive Problem
  | unexpectedEnd
  | loneBackslash
  | badEscape (escape : List Char)
  | incompleteEscape (escape : List Char)
  | octalRange (escape : List Char)
  | missingBrace
  | unknownCharacter (name : List Char)
  | unterminatedSet
  | badRange (lo hi : List Char)
  | nothingToRepeat
  | multipleRepeat
  | repeatOrder
  | unbalanced
  | unterminatedGroup
  | unterminatedComment
  | unterminatedName (closer : Char)
  | missingName (what : String)
  | badName (name : List Char)
  | redefinition (name : List Char) (index earlier : Nat)
  | unknownName (name : List Char)
  | unknownExtension (text : List Char)
  | invalidReference (index : Nat)
  | openGroup
  | sameLookbehind
  | zeroGroup
  | manyBranches
  | unknownFlag
  | missingFlag
  | missingFlagEnd
  | missingColon
  | flagOnAndOff
  | localeFlag
  | alphabetFlags
  | alphabetOff
  | templateOn
  | templateOff
  | misplacedFlags
deriving DecidableEq

namespace Problem

def message : Problem → String
  | unexpectedEnd => "unexpected end of pattern"
  | loneBackslash => "bad escape (end of pattern)"
  | badEscape e => "bad escape " ++ .ofList e
  | incompleteEscape e => "incomplete escape " ++ .ofList e
  | octalRange e => "octal escape value " ++ .ofList e ++ " outside of range 0-0o377"
  | missingBrace => "missing \x7b"
  | unknownCharacter name => "undefined character name " ++ .ofList (Text.quoted name)
  | unterminatedSet => "unterminated character set"
  | badRange lo hi => "bad character range " ++ .ofList lo ++ "-" ++ .ofList hi
  | nothingToRepeat => "nothing to repeat"
  | multipleRepeat => "multiple repeat"
  | repeatOrder => "min repeat greater than max repeat"
  | unbalanced => "unbalanced parenthesis"
  | unterminatedGroup => "missing ), unterminated subpattern"
  | unterminatedComment => "missing ), unterminated comment"
  | unterminatedName closer => "missing " ++ closer.toString ++ ", unterminated name"
  | missingName what => "missing " ++ what
  | badName name => "bad character in group name " ++ .ofList (Text.quoted name)
  | redefinition name index earlier =>
    "redefinition of group name " ++ .ofList (Text.quoted name) ++
      s!" as group {index}; was group {earlier}"
  | unknownName name => "unknown group name " ++ .ofList (Text.quoted name)
  | unknownExtension text => "unknown extension ?" ++ .ofList text
  | invalidReference index => s!"invalid group reference {index}"
  | openGroup => "cannot refer to an open group"
  | sameLookbehind => "cannot refer to group defined in the same lookbehind subpattern"
  | zeroGroup => "bad group number"
  | manyBranches => "conditional backref with more than two branches"
  | unknownFlag => "unknown flag"
  | missingFlag => "missing flag"
  | missingFlagEnd => "missing -, : or )"
  | missingColon => "missing :"
  | flagOnAndOff => "bad inline flags: flag turned on and off"
  | localeFlag => "bad inline flags: cannot use 'L' flag with a str pattern"
  | alphabetFlags => "bad inline flags: flags 'a', 'u' and 'L' are incompatible"
  | alphabetOff => "bad inline flags: cannot turn off flags 'a', 'u' and 'L'"
  | templateOn => "bad inline flags: cannot turn on global flag"
  | templateOff => "bad inline flags: cannot turn off global flag"
  | misplacedFlags => "global flags not at the start of the expression"

end Problem

/-- Why a source is refused. `unevenLookbehind`, `templateRepeat` and `wideLookbehind` are found when
the tree is complete and have no position. Those from `alphabets` on are not problems of the notation
and are reported as errors of their own, except `tooDeep`. -/
inductive Flaw
  | located (problem : Problem) (position : Nat)
  | unevenLookbehind
  | templateRepeat (pace : Pace)
  | alphabets
  | hugeRepeat
  | hugeCode
  | longNumber (digits : Nat)
  | wideLookbehind
  | tooDeep
deriving DecidableEq

/-- The line and the column of a position: a line has as many columns before it as it has
characters, and the column counts from the newline before it. -/
def lineAndColumn (source : List Char) (position : Nat) : Nat × Nat :=
  let before := source.take position
  (before.count '\n' + 1, (before.reverse.takeWhile (· != '\n')).length + 1)

/-- What a repetition is called in a message. -/
def operation : Pace → String
  | .greedy => "MAX_REPEAT"
  | .lazy => "MIN_REPEAT"
  | .possessive _ => "POSSESSIVE_REPEAT"

/-- The text of a problem of the notation. -/
def Flaw.message (source : List Char) : Flaw → String
  | .located problem position =>
    let spot := s!"{problem.message} at position {position}"
    if source.contains '\n' then
      let (line, col) := lineAndColumn source position
      s!"{spot} (line {line}, column {col})"
    else spot
  | .unevenLookbehind => "look-behind requires fixed-width pattern"
  | .templateRepeat pace => "internal: unsupported template operator " ++ operation pace
  | .alphabets => "ASCII and UNICODE flags are incompatible"
  | .hugeRepeat => "the repetition number is too large"
  | .hugeCode => "Python int too large to convert to C int"
  | .longNumber digits =>
    s!"Exceeds the limit (4300 digits) for integer string conversion: value has {digits} digits; use sys.set_int_max_str_digits() to increase the limit"
  | .wideLookbehind => "invalid SRE code"
  | .tooDeep => "pattern is nested too deeply"

end FirstMatch.Regex
