import FirstMatch.Text.Quoted
import FirstMatch.Unicode.Blank
import FirstMatch.Unicode.Number

/-!
Reading whole numbers. A numeral may be surrounded by blanks and has at most one sign; single
underscores may stand between its digits, which may be decimal digits of any script. Bases two, eight
and sixteen allow their mark (`0b`, `0o`, `0x`) in front, after which one underscore may stand too. In
base zero the mark tells the base.
-/

namespace FirstMatch.Numeral

inductive Flaw
  | invalid (base : Nat) (text : List Char)
  | tooLong (digits : Nat)
  | badBase
deriving DecidableEq

/-- Numerals in a base that is no power of two have at most this many digits. -/
def digitLimit : Nat := 4300

def Flaw.message : Flaw → String
  | invalid base text =>
    s!"invalid literal for int() with base {base}: " ++ .ofList ((Text.quoted text).take 200)
  | tooLong digits =>
    s!"Exceeds the limit ({digitLimit} digits) for integer string conversion: value has {digits} digits; use sys.set_int_max_str_digits() to increase the limit"
  | badBase => "int() base must be >= 2 and <= 36, or 0"

/-- Blanks become spaces and digits ASCII digits; the separators of ASCII are no blanks here. -/
def plain (c : Char) : Char :=
  if c.toNat < 127 then c
  else if Unicode.isBlank c.toNat then ' '
  else match Unicode.digitValue c.toNat with
    | some d => Char.ofNat (48 + d)
    | none => '?'

def isSpace (c : Char) : Bool := Unicode.isAsciiBlank c.toNat

def strip (cs : List Char) : List Char :=
  ((cs.dropWhile isSpace).reverse.dropWhile isSpace).reverse

/-- The value of a digit or letter, if it is below the base. -/
def digit (base : Nat) (c : Char) : Option Nat :=
  let n := c.toNat
  let value :=
    if 48 ≤ n ∧ n ≤ 57 then some (n - 48)
    else if 65 ≤ n ∧ n ≤ 90 then some (n - 55)
    else if 97 ≤ n ∧ n ≤ 122 then some (n - 87)
    else none
  value.filter (· < base)

def sign : List Char → Int × List Char
  | '+' :: cs => (1, cs)
  | '-' :: cs => (-1, cs)
  | cs => (1, cs)

def marks (base : Nat) : List Char :=
  if base = 16 then ['x', 'X'] else if base = 8 then ['o', 'O'] else if base = 2 then ['b', 'B'] else []

/-- The base of a numeral without its sign. Where it is given as zero and no mark stands in front, it
is ten. -/
def baseOf (base : Nat) : List Char → Nat
  | '0' :: m :: _ =>
    if base = 0 then ([16, 8, 2].find? fun b => (marks b).contains m).getD 10 else base
  | _ => if base = 0 then 10 else base

/-- What follows the mark of the base and an underscore after it. -/
def unmarked (base : Nat) : List Char → List Char
  | '0' :: m :: cs =>
    if (marks base).contains m then (if cs.head? = some '_' then cs.tail else cs) else '0' :: m :: cs
  | cs => cs

/-- Whether underscores stand only between digits. -/
def wellSpaced : List Char → Bool
  | [] => true
  | ['_'] => false
  | '_' :: '_' :: _ => false
  | _ :: cs => wellSpaced cs

def isPowerOfTwo (base : Nat) : Bool := base = 2 || base = 4 || base = 8 || base = 16 || base = 32

/-- Reads a numeral in base zero or a base from two to thirty-six. In base zero and without a mark, only
the number zero may begin with the digit zero. -/
def read (base : Nat) (text : List Char) : Except Flaw Int :=
  let (factor, unsigned) := sign (strip (text.map plain))
  let radix := baseOf base unsigned
  let body := unmarked radix unsigned
  let inNumeral (c : Char) := (digit radix c).isSome || c == '_'
  let run := body.takeWhile inNumeral
  let digits := run.filterMap (digit radix)
  let value := digits.foldl (fun n d => n * radix + d) 0
  if run.head? = some '_' ∨ wellSpaced run = false then .error (.invalid base text)
  else if isPowerOfTwo radix = false ∧ digitLimit < digits.length then
    .error (.tooLong digits.length)
  else if digits = [] ∨ body.dropWhile inNumeral ≠ [] then .error (.invalid base text)
  else if base = 0 ∧ radix = 10 ∧ body.head? = some '0' ∧ value ≠ 0 then .error (.invalid base text)
  else .ok (factor * (value : Nat))

/-- Reads a numeral in a base that may be none. -/
def readIn (base : Int) (text : List Char) : Except Flaw Int :=
  if base ≠ 0 ∧ (base < 2 ∨ 36 < base) then .error .badBase else read base.toNat text

end FirstMatch.Numeral
