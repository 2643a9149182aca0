import FirstMatch.Regex.Reader

/-!
Escapes: a backslash with a character, and for numbered characters the digits after it. Inside a set
fewer of them have a meaning, and a number is always a character.
-/

namespace FirstMatch.Regex

/-- What an escape stands for. -/
inductive Meaning
  | code (n : Nat)
  | named (kind : ClassKind) (negated : Bool)
  | anchor (a : Anchor)
  | reference (group : Nat)
deriving DecidableEq

def isOctal (c : Char) : Bool := '0' ≤ c && c ≤ '7'

def isDecimal (c : Char) : Bool := '0' ≤ c && c ≤ '9'

def isHex (c : Char) : Bool := isDecimal c || ('a' ≤ c && c ≤ 'f') || ('A' ≤ c && c ≤ 'F')

def isAsciiLetter (c : Char) : Bool := Unicode.isAsciiLetter c.toNat

def hexValue (c : Char) : Nat :=
  if isDecimal c then c.toNat - 48 else if 'a' ≤ c then c.toNat - 87 else c.toNat - 55

def valueIn (base : Nat) (cs : List Char) : Nat :=
  cs.foldl (fun n c => n * base + hexValue c) 0

/-- The control characters with a letter of their own, and the backslash. -/
def controlOf : Char → Option Nat
  | 'a' => some 7
  | 'f' => some 12
  | 'n' => some 10
  | 'r' => some 13
  | 't' => some 9
  | 'v' => some 11
  | '\\' => some 92
  | _ => none

def classOf : Char → Option (ClassKind × Bool)
  | 'd' => some (.digit, false)
  | 'D' => some (.digit, true)
  | 's' => some (.blank, false)
  | 'S' => some (.blank, true)
  | 'w' => some (.word, false)
  | 'W' => some (.word, true)
  | _ => none

def anchorOf (ascii : Bool) : Char → Option Anchor
  | 'A' => some .textStart
  | 'Z' => some .textEnd
  | 'b' => some (.boundary ascii)
  | 'B' => some (.interior ascii)
  | _ => none

namespace Reader

/-- Character numbers from here on are refused at once. -/
def codeLimit : Nat := 0x80000000

/-- A character by its number in exactly `count` hexadecimal digits. -/
def hexEscape (c : Char) (count : Nat) : Reader Nat := do
  let digits ← takeWhile count isHex
  let text := '\\' :: c :: digits
  if digits.length ≠ count then failBack (.incompleteEscape text) text.length
  else
    let n := valueIn 16 digits
    if codeLimit ≤ n then throw .hugeCode
    else if 0x10FFFF < n then failBack (.badEscape text) text.length else return n

/-- A character by its name. -/
def namedEscape : Reader Nat := do
  if ← accept '{' then
    let called ← name '}' "character name"
    match (← get).dialect.named called with
    | some n => return n
    | none => failBack (.unknownCharacter called) (called.length + 4)
  else failBack .missingBrace 0

/-- The escapes that name a character in the same way inside and outside a set. -/
def codeEscape (c : Char) : Reader (Option Nat) := do
  match c with
  | 'x' => return some (← hexEscape c 2)
  | 'u' => return some (← hexEscape c 4)
  | 'U' => return some (← hexEscape c 8)
  | 'N' => return some (← namedEscape)
  | _ => return none

/-- A character by up to three octal digits, which must name one of the first 256. -/
def octalCode (text : List Char) : Reader Meaning := do
  let n := valueIn 8 (text.drop 1)
  if 255 < n then failBack (.octalRange text) text.length else return .code n

/-- Letters without a meaning are refused, other characters stand for themselves. -/
def selfEscape (c : Char) : Reader Meaning := do
  if isAsciiLetter c || isDecimal c then failBack (.badEscape ['\\', c]) 2
  else return .code c.toNat

/-- An escape inside a set. -/
def setEscape (c : Char) : Reader Meaning := do
  match (if c = 'b' then some 8 else controlOf c), classOf c with
  | some n, _ => return .code n
  | none, some (kind, negated) => return .named kind negated
  | none, none =>
    match ← codeEscape c with
    | some n => return .code n
    | none =>
      if isOctal c then octalCode ('\\' :: c :: (← takeWhile 2 isOctal))
      else selfEscape c

/-- Refuses a group that may not be referred to inside the lookbehind around, if there is one. -/
def checkLookbehind (group : Nat) : Reader Unit := do
  let s ← get
  match s.lookbehind with
  | none => return ()
  | some first =>
    if !s.isClosed group then failBack .openGroup 0
    else if first ≤ group then failBack .sameLookbehind 0
    else return ()

/-- A reference to a group by its number, written as the given text. -/
def groupReference (text : List Char) : Reader Meaning := do
  let s ← get
  let group := valueIn 10 (text.drop 1)
  if s.nextGroup ≤ group then failBack (.invalidReference group) (text.length - 1)
  else if !s.isClosed group then failBack .openGroup text.length
  else
    checkLookbehind group
    return .reference group

/-- A digit from one to nine: three octal digits name a character, else one or two digits a group. -/
def numberEscape (c : Char) : Reader Meaning := do
  match (← get).rest with
  | d :: _ =>
    if isDecimal d then
      skip 1
      match (← get).rest with
      | e :: _ =>
        if isOctal c && isOctal d && isOctal e then
          skip 1
          octalCode ['\\', c, d, e]
        else groupReference ['\\', c, d]
      | [] => groupReference ['\\', c, d]
    else groupReference ['\\', c]
  | [] => groupReference ['\\', c]

/-- An escape outside a set. -/
def itemEscape (ascii : Bool) (c : Char) : Reader Meaning := do
  match anchorOf ascii c, classOf c, controlOf c with
  | some a, _, _ => return .anchor a
  | none, some (kind, negated), _ => return .named kind negated
  | none, none, some n => return .code n
  | none, none, none =>
    match ← codeEscape c with
    | some n => return .code n
    | none =>
      if c = '0' then return .code (valueIn 8 (← takeWhile 2 isOctal))
      else if isDecimal c then numberEscape c
      else selfEscape c

end Reader

end FirstMatch.Regex
