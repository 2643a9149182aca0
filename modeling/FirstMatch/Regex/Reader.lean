import FirstMatch.Regex.Flaw
import FirstMatch.Regex.Width

/-!
Reading the source of a pattern token by token. A token is a character, or a backslash with the
character after it; one token is looked at ahead, so a backslash that ends the source is refused as
soon as it comes next.
-/

namespace FirstMatch.Regex

inductive Token
  | plain (c : Char)
  | escape (c : Char)
deriving DecidableEq

def Token.text : Token → List Char
  | plain c => [c]
  | escape c => ['\\', c]

inductive Flag
  | ignoreCase
  | locale
  | multiline
  | dotAll
  | verbose
  | ascii
  | unicode
  | template
deriving DecidableEq

namespace Flag

def ofChar : Char → Option Flag
  | 'i' => some ignoreCase
  | 'L' => some locale
  | 'm' => some multiline
  | 's' => some dotAll
  | 'x' => some verbose
  | 'a' => some ascii
  | 'u' => some unicode
  | 't' => some template
  | _ => none

/-- The flags that choose an alphabet exclude each other. -/
def isAlphabet : Flag → Bool
  | ascii | unicode | locale => true
  | _ => false

end Flag

def Token.flag : Token → Option Flag
  | plain c => Flag.ofChar c
  | escape _ => none

/-- The flags within a group that turns some on and some off. -/
def scopeFlags (flags on off : List Flag) : List Flag :=
  let kept := if on.any Flag.isAlphabet then flags.filter fun f => !f.isAlphabet else flags
  (kept ++ on).filter fun f => !off.contains f

def caseRule (flags : List Flag) : CaseRule :=
  if flags.contains .ignoreCase then (if flags.contains .ascii then .ascii else .unicode) else .exact

/-- A character that may stand in the name of a character. -/
def isNamePart (c : Char) : Bool :=
  Unicode.isAsciiLetter c.toNat || Unicode.isAsciiDigit c.toNat || c == ' ' || c == '-'

/-- What the notation leaves open: which characters can be written by their names, and whether a
possessive repetition undoes the turn that failed. -/
structure Dialect where
  named : List Char → Option Nat
  undoes : Bool
  plain : ∀ called n, named called = some n → called.all isNamePart = true

namespace Dialect

/-- No names are known, and a failed turn is not undone. -/
def bare : Dialect := ⟨fun _ => none, false, nofun⟩

theorem named_of_dollar (d : Dialect) {called : List Char} (h : '$' ∈ called) :
    d.named called = none := by
  cases hnamed : d.named called with
  | none => rfl
  | some n =>
    have hall := List.all_eq_true.mp (d.plain called n hnamed) '$' h
    exact absurd hall (by decide)

end Dialect

/-- What has been read so far. `widths` has an entry for each group, empty while the group is open;
`awaited` are the group numbers that conditions ask about, with their positions; `lookbehind` is the
number of the first group that would lie in the outermost lookbehind around. -/
structure State where
  dialect : Dialect
  rest : List Char
  position : Nat
  flags : List Flag
  widths : List (Option Width)
  names : List (List Char × Nat)
  awaited : List (Nat × Nat)
  lookbehind : Option Nat

namespace State

def start (dialect : Dialect) (source : List Char) : State :=
  ⟨dialect, source, 0, [], [], [], [], none⟩

/-- The number that the next group gets. -/
def nextGroup (s : State) : Nat := s.widths.length + 1

def groupWidth (s : State) (i : Nat) : Option Width := (s.widths[i - 1]?).join

/-- Whether the group has been read to its end. -/
def isClosed (s : State) (i : Nat) : Bool := (s.groupWidth i).isSome

def width (s : State) (r : Regex) : Width := r.width fun i => (s.groupWidth i).getD .zero

end State

/-- How a dollar is read: as the end of the input, as the end of a line, or as a member of a set. -/
inductive DollarRole
  | ending
  | lineEnd
  | member
deriving DecidableEq

/-- A dollar that has been read, with its position in the source. -/
structure Dollar where
  position : Nat
  role : DollarRole
deriving DecidableEq

/-- What reading comes to: a result with the dollars that were read on the way, or a flaw. -/
def Noted (α : Type) : Type := Except Flaw (α × List Dollar)

instance : Monad Noted where
  pure a := .ok (a, [])
  bind x k :=
    match x with
    | .error flaw => .error flaw
    | .ok (a, before) =>
      match k a with
      | .error flaw => .error flaw
      | .ok (b, after) => .ok (b, before ++ after)

instance : MonadExceptOf Flaw Noted where
  throw flaw := .error flaw
  tryCatch x handle :=
    match x with
    | .error flaw => handle flaw
    | .ok r => .ok r

abbrev Reader := StateT State Noted

namespace Reader

def failAt {α : Type} (p : Problem) (position : Nat) : Reader α :=
  throw (.located p position)

/-- Reports a problem `offset` characters before the next token. -/
def failBack {α : Type} (p : Problem) (offset : Nat) : Reader α := do
  failAt p ((← get).position - offset)

def lookahead (cs : List Char) : Option Token :=
  match cs with
  | [] => none
  | '\\' :: c :: _ => some (.escape c)
  | c :: _ => some (.plain c)

def peek : Reader (Option Token) := return lookahead (← get).rest

def tell : Reader Nat := return (← get).position

/-- Stands at the given rest of the source. -/
def seek (rest : List Char) (position : Nat) : Reader Unit := do
  if rest = ['\\'] then failAt .loneBackslash position
  else modify fun s => { s with rest := rest, position := position }

/-- Moves over `n` characters. -/
def skip (n : Nat) : Reader Unit := do
  let s ← get
  seek (s.rest.drop n) (s.position + n)

def next : Reader (Option Token) := do
  match ← peek with
  | none => return none
  | some t => skip t.text.length; return some t

/-- Notes the token that has just been read, a dollar. -/
def note (role : DollarRole) : Reader Unit := fun s =>
  .ok (((), s), [⟨s.position - 1, role⟩])

def accept (c : Char) : Reader Bool := do
  if (← peek) = some (.plain c) then skip 1; return true
  else return false

/-- Takes the characters ahead that satisfy a test, `limit` of them at most. -/
def takeWhile (limit : Nat) (test : Char → Bool) : Reader (List Char) := do
  let found := ((← get).rest.take limit).takeWhile test
  skip found.length
  return found

/-- Takes all the characters ahead that satisfy a test. -/
def takeAll (test : Char → Bool) : Reader (List Char) := do
  takeWhile (← get).rest.length test

/-- Takes all tokens up to the closing character, which is consumed; `soFar` has been taken. -/
def nameFrom (closer : Char) (what : String) : Nat → List Char → Reader (List Char)
  | 0, _ => throw .tooDeep
  | fuel + 1, soFar => do
    match ← next with
    | none =>
      if soFar = [] then failBack (.missingName what) 0
      else failBack (.unterminatedName closer) soFar.length
    | some t =>
      if t = .plain closer then
        if soFar = [] then failBack (.missingName what) 1 else return soFar
      else nameFrom closer what fuel (soFar ++ t.text)

def name (closer : Char) (what : String) : Reader (List Char) := do
  nameFrom closer what ((← get).rest.length + 1) []

section

variable {α β : Type}

theorem bind_apply (f : Reader α) (k : α → Reader β) (s : State) :
    (f >>= k) s = match f s with
      | .error flaw => .error flaw
      | .ok ((a, t), before) =>
        match k a t with
        | .error flaw => .error flaw
        | .ok (r, after) => .ok (r, before ++ after) := by
  simp only [bind, StateT.bind]
  cases f s with
  | error flaw => rfl
  | ok p =>
    dsimp only
    cases k p.1.1 p.1.2 <;> rfl

theorem bind_eq_ok {f : Reader α} {k : α → Reader β} {s u : State} {b : β} {ds : List Dollar}
    (h : (f >>= k) s = .ok ((b, u), ds)) :
    ∃ a t before after, f s = .ok ((a, t), before) ∧ k a t = .ok ((b, u), after) ∧
      ds = before ++ after := by
  rw [bind_apply] at h
  cases hf : f s with
  | error flaw =>
    rw [hf] at h
    cases h
  | ok p =>
    obtain ⟨⟨a, t⟩, before⟩ := p
    rw [hf] at h
    cases hk : k a t with
    | error flaw =>
      simp only [hk] at h
      cases h
    | ok q =>
      obtain ⟨r, after⟩ := q
      simp only [hk] at h
      cases h
      exact ⟨a, t, before, after, rfl, hk, rfl⟩

theorem bind_of_ok {f : Reader α} {s t : State} {a : α} {before : List Dollar}
    (h : f s = .ok ((a, t), before)) {k : α → Reader β} {u : State} {b : β} {after : List Dollar}
    (hk : k a t = .ok ((b, u), after)) : (f >>= k) s = .ok ((b, u), before ++ after) := by
  rw [bind_apply, h]
  simp only [hk]
  rfl

/-- A first part that notes nothing. -/
theorem bind_silent {f : Reader α} {s t : State} {a : α} (h : f s = .ok ((a, t), []))
    (k : α → Reader β) : (f >>= k) s = k a t := by
  rw [bind_apply, h]
  dsimp only
  cases k a t <;> rfl

theorem get_bind (k : State → Reader β) (s : State) : (get >>= k) s = k s s := bind_silent rfl k

theorem tell_bind (k : Nat → Reader β) (s : State) : (tell >>= k) s = k s.position s :=
  bind_silent rfl k

theorem bind_of_error {f : Reader α} {s : State} {flaw : Flaw} (h : f s = .error flaw)
    (k : α → Reader β) : (f >>= k) s = .error flaw := by
  rw [bind_apply, h]

end

end Reader

end FirstMatch.Regex
