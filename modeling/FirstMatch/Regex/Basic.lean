import FirstMatch.Unicode.Blank
import FirstMatch.Unicode.Casing
import FirstMatch.Unicode.Number

/-!
Regular expressions as trees. Flags have been resolved: each leaf says itself how it treats letter
case, lines and the alphabet. Characters are code points, since an escape may name a surrogate, which
no text holds.
-/

namespace FirstMatch

/-- How a letter is compared: as it is, without regard to the case of ASCII letters, or of all. -/
inductive CaseRule
  | exact
  | ascii
  | unicode
deriving DecidableEq

inductive ClassKind
  | digit
  | blank
  | word
deriving DecidableEq

/-- A named class of characters or its complement. -/
structure CharClass where
  kind : ClassKind
  negated : Bool
  ascii : Bool
deriving DecidableEq

inductive SetItem
  | single (code : Nat)
  | range (lo hi : Nat)
  | named (cls : CharClass)
deriving DecidableEq

/-- A condition on the position. `firstLine` and `textStart` both hold at the start only, but are
written differently; `finalLine` holds at the end and before a newline that ends the text; `lineEnd`
before every newline too. -/
inductive Anchor
  | firstLine
  | lineStart
  | textStart
  | textEnd
  | finalLine
  | lineEnd
  | boundary (ascii : Bool)
  | interior (ascii : Bool)
deriving DecidableEq

/-- Whether a repetition takes as much as it can, as little, or as much without giving back. In the last
case it `undoes` the turn that failed, or else goes on from where the failure has left it. -/
inductive Pace
  | greedy
  | lazy
  | possessive (undoes : Bool)
deriving DecidableEq

/-- A pattern. The alternatives of a choice are a chain of `alt` that ends in `never`. A case rule
other than `exact` stands only where case makes a difference. `scoped` marks a group that does nothing
but change flags. -/
inductive Regex
  | empty
  | never
  | char (code : Nat) (rule : CaseRule)
  | except (code : Nat) (rule : CaseRule)
  | any (newline : Bool)
  | set (negated : Bool) (items : List SetItem) (rule : CaseRule)
  | anchor (a : Anchor)
  | seq (first second : Regex)
  | alt (first others : Regex)
  | loop (pace : Pace) (least : Nat) (most : Option Nat) (body : Regex)
  | group (index : Nat) (body : Regex)
  | scoped (body : Regex)
  | atomic (body : Regex)
  | ahead (negated : Bool) (body : Regex)
  | behind (negated : Bool) (width : Nat) (body : Regex)
  | reference (index : Nat) (rule : CaseRule)
  | ifGroup (index : Nat) (yes no : Regex)
deriving DecidableEq

namespace ClassKind

def holds (k : ClassKind) (ascii : Bool) (n : Nat) : Bool :=
  match k with
  | .digit => if ascii then Unicode.isAsciiDigit n else Unicode.isDigit n
  | .blank => if ascii then Unicode.isAsciiBlank n else Unicode.isBlank n
  | .word =>
    n == 95 ||
      if ascii then Unicode.isAsciiLetter n || Unicode.isAsciiDigit n
      else Unicode.isLetter n || Unicode.isNumeric n

end ClassKind

def CharClass.holds (c : CharClass) (n : Nat) : Bool :=
  c.kind.holds c.ascii n != c.negated

namespace CaseRule

def lower : CaseRule → Nat → Nat
  | .exact, n => n
  | .ascii, n => Unicode.asciiLower n
  | .unicode, n => Unicode.lower n

/-- Whether a character has another form in the other case. -/
def isCased : CaseRule → Nat → Bool
  | .exact, _ => false
  | .ascii, n => Unicode.isAsciiLetter n
  | .unicode, n => Unicode.isCased n

/-- Whether some character of a range is cased. -/
def hasCased : CaseRule → Nat → Nat → Bool
  | .exact, _, _ => false
  | .ascii, lo, hi => (lo ≤ 90 && 65 ≤ hi) || (lo ≤ 122 && 97 ≤ hi)
  | .unicode, lo, hi => Unicode.hasCased lo hi

/-- The rule for a single character: case is disregarded only where it makes a difference. -/
def forChar (rule : CaseRule) (n : Nat) : CaseRule :=
  if rule.isCased n then rule else .exact

/-- Whether two characters count as one. -/
def alike : CaseRule → Nat → Nat → Bool
  | .exact, m, n => m == n
  | .ascii, m, n => Unicode.asciiAlike m n
  | .unicode, m, n => Unicode.alike m n

/-- All characters that count as the given one. -/
def variants : CaseRule → Nat → List Nat
  | .exact, n => [n]
  | .ascii, n => Unicode.asciiVariants n
  | .unicode, n => Unicode.variants n

/-- Whether letters with other lowercases count as the given one too. -/
def hasKin : CaseRule → Nat → Bool
  | .unicode, n => Unicode.hasKin (Unicode.lower n)
  | _, _ => false

/-- Whether a character repeats one that was captured: here only the lowercases count. -/
def repeats (rule : CaseRule) (m n : Nat) : Bool := rule.lower m == rule.lower n

end CaseRule

namespace SetItem

/-- The last code point of the basic plane. Beyond it a member of a set stands for itself alone, and a
range for the characters whose lowercase or whose uppercase after that lies in it. -/
def basicLimit : Nat := 65535

/-- Whether a member takes part in a comparison without regard to case. -/
def isCased (rule : CaseRule) : SetItem → Bool
  | .single m => basicLimit < m || rule.isCased m
  | .range lo hi => basicLimit < hi || rule.hasCased lo hi
  | .named _ => false

/-- Whether a character is meant by a member, where letters are compared as they are. -/
def means (n : Nat) : SetItem → Bool
  | .single m => m == n
  | .range lo hi => lo ≤ n && n ≤ hi
  | .named c => c.holds n

/-- Whether a character is meant by a member, where case is disregarded. -/
def meansFolded (rule : CaseRule) (n : Nat) : SetItem → Bool
  | .single m => if basicLimit < m then m == rule.lower n else rule.alike m n
  | .range lo hi =>
    ((rule.variants n).any fun m => lo ≤ m && m ≤ min hi basicLimit) ||
      (basicLimit < hi &&
        let l := rule.lower n
        (lo ≤ l && l ≤ hi) || (lo ≤ Unicode.upper l && Unicode.upper l ≤ hi))
  | .named c => c.holds (rule.lower n)

def holds (rule : CaseRule) (n : Nat) (item : SetItem) : Bool :=
  if rule = .exact then item.means n else item.meansFolded rule n

end SetItem

namespace Regex

/-- A set of characters. Case is disregarded only if some member is cased. -/
def ofItems (rule : CaseRule) (negated : Bool) (items : List SetItem) : Regex :=
  .set negated items (if rule ≠ .exact ∧ items.any (SetItem.isCased rule) then rule else .exact)

/-- A set as it is written. Of equal members one is kept, and a set of one character is a character. -/
def ofMembers (rule : CaseRule) (negated : Bool) (items : List SetItem) : Regex :=
  match items.eraseDups with
  | [.single m] => if negated then .except m (rule.forChar m) else .char m (rule.forChar m)
  | kept => ofItems rule negated kept

/-- One pattern after the other. -/
def joined : List Regex → Regex
  | [] => .empty
  | [r] => r
  | r :: s :: rs => .seq r (joined (s :: rs))

/-- Patterns without parts, which are the same wherever they are written alike. -/
def isPlain : Regex → Bool
  | char .. | except .. | any _ | set .. | anchor _ | reference .. => true
  | _ => false

/-- Splits off what all alternatives begin with: the common part, and the rests. -/
def splitCommon : List Regex → List (List Regex) → List Regex × List (List Regex)
  | [], others => ([], [] :: others)
  | r :: rs, others =>
    if r.isPlain && others.all (fun o => o.head? == some r) then
      let (common, rests) := splitCommon rs (others.map List.tail)
      (r :: common, rests)
    else ([], (r :: rs) :: others)

theorem map_cons_tail {r : Regex} {others : List (List Regex)}
    (h : ∀ o ∈ others, o.head? = some r) : others.map (fun o => r :: o.tail) = others := by
  induction others with
  | nil => rfl
  | cons o os ih =>
    have hos := ih fun p hp => h p (List.mem_cons_of_mem o hp)
    obtain ⟨rest, rfl⟩ := List.head?_eq_some_iff.mp (h o List.mem_cons_self)
    rw [List.map_cons, hos, List.tail_cons]

/-- Nothing is lost: the common part before each of the rests gives the alternatives. -/
theorem map_splitCommon (first : List Regex) (others : List (List Regex)) :
    (splitCommon first others).2.map ((splitCommon first others).1 ++ ·) = first :: others := by
  induction first generalizing others with
  | nil => simp [splitCommon]
  | cons r rs ih =>
    rw [splitCommon]
    split
    · next h =>
      simp only [Bool.and_eq_true, List.all_eq_true, beq_iff_eq] at h
      have hr := congrArg (List.map (r :: ·)) (ih (others.map List.tail))
      rw [List.map_map, List.map_cons, List.map_map] at hr
      exact hr.trans (congrArg _ (map_cons_tail h.2))
    · simp

/-- The members of an alternative that is a single character or a set. -/
def members? : List Regex → Option (List SetItem)
  | [char code _] => some [.single code]
  | [set false items _] => some items
  | _ => none

/-- Alternatives in order. What all of them begin with is put in front of the choice, and a choice
between single characters is a set. -/
def choice (rule : CaseRule) (first : List Regex) (others : List (List Regex)) : List Regex :=
  let (common, rests) := splitCommon first others
  match rests.mapM members? with
  | some sets => common ++ [ofItems rule false sets.flatten.eraseDups]
  | none => common ++ [rests.foldr (fun items chain => .alt (joined items) chain) .never]

end Regex

end FirstMatch
