import FirstMatch.Numeral
import FirstMatch.Regex.CharSet
import FirstMatch.Regex.InlineFlags
import FirstMatch.Regex.Matching
import FirstMatch.Unicode.Name

/-!
The notation of regular expressions: `Regex.ofSource` reads a source into a program or tells its first
flaw. Alternatives and sequences call each other on the bodies of groups; each call has read a token
more than the one around it, which bounds them. A sequence is read as the list of its items, so that a
group which only holds its body together leaves no trace, and a choice sees how its alternatives begin.
-/

namespace FirstMatch.Regex

namespace Reader

/-- A reader for the items of a body under the given flags. -/
abbrev BodyReader := List Flag → Reader (List Regex)

/-- A part of a sequence, by what may follow it: an item that may be repeated, an anchor, a repetition,
or the items of a group that only holds them together. -/
inductive Part
  | item (r : Regex)
  | bare (a : Anchor)
  | repeated (r : Regex)
  | enclosed (items : List Regex)

def Part.items : Part → List Regex
  | item r => [r]
  | bare a => [.anchor a]
  | repeated r => [r]
  | enclosed items => items

/-- The items of a sequence from its parts, latest first. -/
def collected (parts : List Part) : List Regex := parts.reverse.flatMap Part.items

/-- Conditions may not ask about groups from this number on. -/
def groupLimit : Nat := 1073741823

/-- Numerals for repetitions have at most this many digits. -/
def countDigits : Nat := 4300

def closeParenthesis (start : Nat) : Reader Unit := do
  if ← accept ')' then return () else failAt .unterminatedGroup start

/-- Refuses a group name that is no name; `offset` is how far its end lies behind. -/
def checkName (called : List Char) (offset : Nat) : Reader Unit := do
  if Unicode.isName called then return () else failBack (.badName called) (called.length + offset)

/-- Opens the next group and answers its number. -/
def openGroup (called : Option (List Char)) : Reader Nat := do
  let group := (← get).nextGroup
  match called with
  | none => modify fun s => { s with widths := s.widths ++ [none] }
  | some n =>
    match (← get).names.lookup n with
    | some earlier => failBack (.redefinition n group earlier) (n.length + 1)
    | none => modify fun s => { s with widths := s.widths ++ [none], names := (n, group) :: s.names }
  return group

/-- A capturing group whose opening has been read. -/
def capturing (body : BodyReader) (start : Nat) (flags : List Flag) (called : Option (List Char)) :
    Reader Regex := do
  let group ← openGroup called
  let r := joined (← body flags)
  closeParenthesis start
  modify fun s => { s with widths := s.widths.set (group - 1) (some (s.width r)) }
  return .group group r

/-- The items of a group that holds its body together. -/
def bracketed (body : BodyReader) (start : Nat) (flags : List Flag) : Reader (List Regex) := do
  let items ← body flags
  closeParenthesis start
  return items

/-- A reference to a group by name, after the equals sign. -/
def namedReference (flags : List Flag) : Reader Regex := do
  let called ← name ')' "group name"
  checkName called 1
  match (← get).names.lookup called with
  | none => failBack (.unknownName called) (called.length + 1)
  | some index =>
    if !(← get).isClosed index then failBack .openGroup (called.length + 1)
    else
      checkLookbehind index
      return .reference index (caseRule flags)

/-- A comment: all tokens up to a closing parenthesis. -/
def comment (start : Nat) : Nat → Reader Unit
  | 0 => throw .tooDeep
  | fuel + 1 => do
    match ← next with
    | none => failAt .unterminatedComment start
    | some t => if t = .plain ')' then return () else comment start fuel

def lookingAhead (body : BodyReader) (start : Nat) (flags : List Flag) (negated : Bool) :
    Reader Regex := do
  return .ahead negated (joined (← bracketed body start flags))

/-- A lookbehind, which goes back by the least width of its body. -/
def lookbehind (body : BodyReader) (start : Nat) (flags : List Flag) (negated : Bool) :
    Reader Regex := do
  let outer := (← get).lookbehind
  modify fun s => { s with lookbehind := some (outer.getD s.nextGroup) }
  let r := joined (← body flags)
  modify fun s => { s with lookbehind := outer }
  closeParenthesis start
  return .behind negated ((← get).width r).least r

/-- The group that a condition asks about, by name or by number. -/
def conditionGroup : Reader Nat := do
  let called ← name ')' "group name"
  if Unicode.isName called then
    match (← get).names.lookup called with
    | none => failBack (.unknownName called) (called.length + 1)
    | some index => return index
  else
    match Numeral.read 10 called with
    | .error _ => failBack (.badName called) (called.length + 1)
    | .ok n =>
      let position := (← tell) - called.length - 1
      if n < 0 then failAt (.badName called) position
      else if n = 0 then failAt .zeroGroup position
      else if groupLimit ≤ n.toNat then failAt (.invalidReference n.toNat) position
      else
        let group := n.toNat
        modify fun s =>
          if s.awaited.any fun g => g.1 == group then s
          else { s with awaited := s.awaited ++ [(group, position)] }
        return group

/-- A condition on a group: one branch if it took part, the other, which may be absent, if not. -/
def condition (branch : BodyReader) (start : Nat) (flags : List Flag) : Reader Regex := do
  let group ← conditionGroup
  checkLookbehind group
  let yes ← branch flags
  let no ← if ← accept '|' then branch flags else pure []
  if (← peek) = some (.plain '|') then failBack .manyBranches 0
  else
    closeParenthesis start
    return .ifGroup group (joined yes) (joined no)

/-- What follows an opening parenthesis and a question mark; comments and flags for the whole
pattern leave nothing. -/
def extension (body branch : BodyReader) (start : Nat) (flags : List Flag) (leading : Bool) :
    Reader (Option Part) := do
  match ← next with
  | none => failBack .unexpectedEnd 0
  | some (.plain 'P') =>
    if ← accept '<' then
      let called ← name '>' "group name"
      checkName called 1
      return some (.item (← capturing body start flags (some called)))
    else if ← accept '=' then return some (.item (← namedReference flags))
    else
      match ← next with
      | none => failBack .unexpectedEnd 0
      | some t => failBack (.unknownExtension ('P' :: t.text)) (t.text.length + 2)
  | some (.plain ':') => return some (.enclosed (← bracketed body start flags))
  | some (.plain '#') =>
    comment start ((← get).rest.length + 1)
    return none
  | some (.plain '=') => return some (.item (← lookingAhead body start flags false))
  | some (.plain '!') => return some (.item (← lookingAhead body start flags true))
  | some (.plain '<') =>
    match ← next with
    | none => failBack .unexpectedEnd 0
    | some (.plain '=') => return some (.item (← lookbehind body start flags false))
    | some (.plain '!') => return some (.item (← lookbehind body start flags true))
    | some t => failBack (.unknownExtension ('<' :: t.text)) (t.text.length + 2)
  | some (.plain '(') => return some (.item (← condition branch start flags))
  | some (.plain '>') => return some (.item (.atomic (joined (← bracketed body start flags))))
  | some t =>
    if t.flag.isSome ∨ t = .plain '-' then
      match ← flagGroup t with
      | .whole on =>
        modify fun s => { s with flags := s.flags ++ on }
        if leading then return none else failAt .misplacedFlags start
      | .body on off =>
        return some (.item (.scoped (joined (← bracketed body start (scopeFlags flags on off)))))
    else failBack (.unknownExtension t.text) (t.text.length + 1)

/-- A group whose opening parenthesis has just been read. -/
def group (body branch : BodyReader) (flags : List Flag) (leading : Bool) :
    Reader (Option Part) := do
  let start := (← tell) - 1
  if ← accept '?' then extension body branch start flags leading
  else return some (.item (← capturing body start flags none))

def count (digits : List Char) : Reader Nat := do
  if countDigits < digits.length then throw (.longNumber digits.length)
  else
    let n := valueIn 10 digits
    if repeatLimit ≤ n then throw .hugeRepeat else return n

/-- The digits of the upper bound in braces: those after a comma, or else those of the lower one. -/
def upperDigits (lo : List Char) : Reader (List Char) := do
  if ← accept ',' then takeAll isDecimal else return lo

def leastCount (digits : List Char) : Reader Nat := do
  if digits = [] then return 0 else count digits

/-- The bounds from their digits, in braces that opened before the given position. -/
def countBounds (position : Nat) (lo hi : List Char) : Reader (Nat × Option Nat) := do
  let least ← leastCount lo
  if hi = [] then return (least, none)
  else
    let most ← count hi
    if most < least then failAt .repeatOrder position else return (least, some most)

/-- The bounds in braces after the opening one, or nothing if it stands for itself. -/
def braces : Reader (Option (Nat × Option Nat)) := do
  let s ← get
  if (← peek) = some (.plain '}') then return none
  else
    let lo ← takeAll isDecimal
    let hi ← upperDigits lo
    if ← accept '}' then return some (← countBounds s.position lo hi)
    else
      seek s.rest s.position
      return none

/-- The bounds of a repetition whose sign has just been read. -/
def bounds : Char → Reader (Option (Nat × Option Nat))
  | '*' => return some (0, none)
  | '+' => return some (1, none)
  | '?' => return some (0, some 1)
  | _ => braces

def pace : Reader Pace := do
  if ← accept '?' then return .lazy
  else if ← accept '+' then return .possessive (← get).dialect.undoes
  else return .greedy

/-- Repeats the latest part; the sign stands at `start`. -/
def repetition (start : Nat) (least : Nat) (most : Option Nat) : List Part → Reader (List Part)
  | [] | .bare _ :: _ => failAt .nothingToRepeat start
  | .repeated _ :: _ => failAt .multipleRepeat start
  | .item r :: parts => return .repeated (.loop (← pace) least most r) :: parts
  | .enclosed items :: parts => return .repeated (.loop (← pace) least most (joined items)) :: parts

/-- A character by its number. -/
def codeItem (flags : List Flag) (n : Nat) : Part := .item (.char n ((caseRule flags).forChar n))

def meaningPart (flags : List Flag) : Meaning → Part
  | .code n => codeItem flags n
  | .named kind negated => .item (.set false [.named ⟨kind, negated, flags.contains .ascii⟩] .exact)
  | .anchor a => .bare a
  | .reference g => .item (.reference g (caseRule flags))

/-- Skips a comment that runs to the end of its line. -/
def lineComment : Nat → Reader Unit
  | 0 => throw .tooDeep
  | fuel + 1 => do
    match ← next with
    | none => return ()
    | some t => if t = .plain '\n' then return () else lineComment fuel

/-- A dollar, which outside of lines means the given anchor. -/
def dollarSign (dollar : Anchor) (flags : List Flag) : Reader Anchor := do
  if flags.contains .multiline then
    note .lineEnd
    return .lineEnd
  else
    note .ending
    return dollar

/-- One token of a sequence, already read, added to the parts before it. -/
def part (dollar : Anchor) (body branch : BodyReader) (flags : List Flag) (first : Bool) (t : Token)
    (parts : List Part) : Reader (List Part) := do
  match t with
  | .escape c => return meaningPart flags (← itemEscape (flags.contains .ascii) c) :: parts
  | .plain c =>
    let itself := codeItem flags c.toNat
    if c = '[' then return .item (← charSet flags) :: parts
    else if c = '*' ∨ c = '+' ∨ c = '?' ∨ c = '{' then
      let start := (← tell) - 1
      match ← bounds c with
      | none => return itself :: parts
      | some (least, most) => repetition start least most parts
    else if c = '.' then return .item (.any (flags.contains .dotAll)) :: parts
    else if c = '(' then
      match ← group body branch flags (first && parts.isEmpty) with
      | none => return parts
      | some p => return p :: parts
    else if c = '^' then
      return .bare (if flags.contains .multiline then .lineStart else .firstLine) :: parts
    else if c = '$' then return .bare (← dollarSign dollar flags) :: parts
    else return itself :: parts

/-- Whether a token is left out where blanks and comments are ignored. -/
def isLayout : Token → Bool
  | .plain c => Unicode.isAsciiBlank c.toNat
  | .escape _ => false

mutual

/-- Alternatives under the given flags, or at the top level under those of the whole pattern. -/
def alternatives (dollar : Anchor) : Nat → Option (List Flag) → Reader (List Regex)
  | 0, _ => throw .tooDeep
  | fuel + 1, scope => do
    let first ← sequence dollar fuel scope scope.isNone []
    match ← moreAlternatives dollar fuel scope with
    | [] => return first
    | others => return choice (caseRule (scope.getD (← get).flags)) first others

/-- The alternatives that follow one. -/
def moreAlternatives (dollar : Anchor) : Nat → Option (List Flag) → Reader (List (List Regex))
  | 0, _ => throw .tooDeep
  | fuel + 1, scope => do
    if ← accept '|' then
      let items ← sequence dollar fuel scope false []
      return items :: (← moreAlternatives dollar fuel scope)
    else return []

/-- The items of a sequence that goes on after its parts so far, latest first. -/
def sequence (dollar : Anchor) :
    Nat → Option (List Flag) → Bool → List Part → Reader (List Regex)
  | 0, _, _, _ => throw .tooDeep
  | fuel + 1, scope, first, parts => do
    let upcoming ← peek
    if upcoming = some (.plain '|') ∨ upcoming = some (.plain ')') then return collected parts
    else
      match ← next with
      | none => return collected parts
      | some t =>
        let flags := scope.getD (← get).flags
        if flags.contains .verbose && isLayout t then sequence dollar fuel scope first parts
        else if flags.contains .verbose && t = .plain '#' then
          lineComment ((← get).rest.length + 1)
          sequence dollar fuel scope first parts
        else
          let parts ← part dollar (fun fs => alternatives dollar fuel (some fs))
            (fun fs => sequence dollar fuel (some fs) false []) flags first t parts
          sequence dollar fuel scope first parts

end

/-- The whole source as a tree, with what has been read of it. -/
def pattern (dollar : Anchor) (source : List Char) : Reader Regex := do
  seek source 0
  let items ← alternatives dollar (2 * source.length + 3) none
  let s ← get
  if s.flags.contains .ascii && s.flags.contains .unicode then throw .alphabets
  else if s.rest ≠ [] then failBack .unbalanced 0
  else
    match s.awaited.find? fun g => s.nextGroup ≤ g.1 with
    | some (index, position) => failAt (.invalidReference index) position
    | none => return joined items

end Reader

/-! What is wrong with a tree that has been read. -/

/-- The first part of a tree that no program can have: a lookbehind without a fixed width, or, in a
template, a repetition. -/
def partFlaw? (template : Bool) (groupWidth : Nat → Width) : Regex → Option Flaw
  | .seq first second =>
    (first.partFlaw? template groupWidth).or (second.partFlaw? template groupWidth)
  | .alt first others =>
    (first.partFlaw? template groupWidth).or (others.partFlaw? template groupWidth)
  | .loop pace _ _ body =>
    if template then some (.templateRepeat pace) else body.partFlaw? template groupWidth
  | .group _ body | .scoped body | .atomic body | .ahead _ body => body.partFlaw? template groupWidth
  | .behind _ _ body =>
    if (body.width groupWidth).isFixed then body.partFlaw? template groupWidth
    else some .unevenLookbehind
  | .ifGroup _ yes no =>
    (yes.partFlaw? template groupWidth).or (no.partFlaw? template groupWidth)
  | _ => none

/-- A lookbehind goes back by fewer characters than this. -/
def lookbehindLimit : Nat := 0x80000000

/-- Whether some lookbehind goes back too far. -/
def looksTooFar : Regex → Bool
  | .seq first second => first.looksTooFar || second.looksTooFar
  | .alt first others => first.looksTooFar || others.looksTooFar
  | .loop _ _ _ body => body.looksTooFar
  | .group _ body | .scoped body | .atomic body | .ahead _ body => body.looksTooFar
  | .behind _ width body => lookbehindLimit ≤ width || body.looksTooFar
  | .ifGroup _ yes no => yes.looksTooFar || no.looksTooFar
  | _ => false

/-- The program of a tree, given what has been read. -/
def program (r : Regex) (s : State) : Except Flaw Program :=
  let groupWidth i := (s.groupWidth i).getD .zero
  match r.partFlaw? (s.flags.contains .template) groupWidth with
  | some flaw => .error flaw
  | none =>
    if r.looksTooFar then .error .wideLookbehind else .ok ⟨r, (r.width groupWidth).least⟩

/-- The program of a source in which a dollar outside of lines means the given anchor. -/
def ofSourceAs (dialect : Dialect) (dollar : Anchor) (source : List Char) : Except Flaw Program :=
  match (Reader.pattern dollar source).run (.start dialect source) with
  | .error flaw => .error flaw
  | .ok ((r, s), _) => r.program s

/-- The program of a source, or its first flaw. -/
def ofSource (dialect : Dialect) (source : List Char) : Except Flaw Program :=
  ofSourceAs dialect .finalLine source

end FirstMatch.Regex
