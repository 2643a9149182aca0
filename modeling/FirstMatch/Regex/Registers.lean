import FirstMatch.Regex.Basic

/-!
The registers of a matcher. A mark is a place in the text: group `i` has the mark `2 * i - 2` where it
was entered last and the mark `2 * i - 1` where it was left last. Besides the marks, a register holds
the spot where the latest attempt stood, which outlives the failure of the attempt.
-/

namespace FirstMatch

/-- A position within the text being matched. -/
structure Spot where
  behind : List Char
  ahead : List Char
  index : Nat
deriving DecidableEq

namespace Spot

def start (text : List Char) : Spot := ⟨[], text, 0⟩

/-- The whole text, which no move changes. -/
def text (s : Spot) : List Char := s.behind.reverse ++ s.ahead

/-- The position after the next character, if that satisfies a test. -/
def eat? (s : Spot) (test : Nat → Bool) : Option Spot :=
  match s.ahead with
  | [] => none
  | c :: cs => if test c.toNat then some ⟨c :: s.behind, cs, s.index + 1⟩ else none

/-- One character back; the start is left where it is. -/
def retreat (s : Spot) : Spot :=
  match s.behind with
  | [] => s
  | c :: cs => ⟨cs, c :: s.ahead, s.index - 1⟩

def back : Nat → Spot → Spot
  | 0, s => s
  | n + 1, s => back n s.retreat

/-- The position after all the next characters that satisfy a test, `most` of them if that is a limit. -/
def skipWhile (test : Nat → Bool) (behind : List Char) (index : Nat) : List Char → Option Nat → Spot
  | [], _ => ⟨behind, [], index⟩
  | c :: cs, most =>
    if most = some 0 ∨ test c.toNat = false then ⟨behind, c :: cs, index⟩
    else skipWhile test (c :: behind) (index + 1) cs (most.map (· - 1))

theorem text_of_eat? {s t : Spot} {test : Nat → Bool} (h : s.eat? test = some t) :
    t.text = s.text := by
  unfold eat? at h
  split at h
  · simp at h
  · next c cs hc =>
    split at h
    · obtain rfl := Option.some.inj h
      simp [text, hc]
    · simp at h

theorem text_retreat (s : Spot) : s.retreat.text = s.text := by
  unfold retreat
  split
  · rfl
  · next c cs hc => simp [text, hc]

theorem text_skipWhile (test : Nat → Bool) (behind cs : List Char) (index : Nat)
    (most : Option Nat) : (skipWhile test behind index cs most).text = behind.reverse ++ cs := by
  induction cs generalizing behind index most with
  | nil => rfl
  | cons c cs ih =>
    rw [skipWhile]
    split
    · rfl
    · rw [ih, List.reverse_cons, List.append_assoc, List.singleton_append]

def advanceWhile (s : Spot) (test : Nat → Bool) (most : Option Nat) : Spot :=
  skipWhile test s.behind s.index s.ahead most

theorem text_advanceWhile (s : Spot) (test : Nat → Bool) (most : Option Nat) :
    (s.advanceWhile test most).text = s.text := text_skipWhile ..

/-- The position after a text, letter by letter under a case rule. -/
def eatText (rule : CaseRule) : List Char → Spot → Option Spot
  | [], s => some s
  | d :: ds, s => (s.eat? fun n => rule.repeats d.toNat n).bind (eatText rule ds)

/-- Whether fewer than `n` characters are left. -/
def isShort (s : Spot) (n : Nat) : Bool := n != 0 && (s.ahead.drop (n - 1)).isEmpty

/-- Whether the next character is the given one. -/
def faces (s : Spot) (code : Nat) : Bool :=
  match s.ahead with
  | [] => false
  | c :: _ => c.toNat == code

def wordBefore (s : Spot) (ascii : Bool) : Bool :=
  match s.behind with
  | [] => false
  | c :: _ => ClassKind.word.holds ascii c.toNat

def wordAfter (s : Spot) (ascii : Bool) : Bool :=
  match s.ahead with
  | [] => false
  | c :: _ => ClassKind.word.holds ascii c.toNat

/-- Whether the text has no character at all. -/
def blank (s : Spot) : Bool := s.behind.isEmpty && s.ahead.isEmpty

end Spot

def Anchor.holds (s : Spot) : Anchor → Bool
  | .firstLine | .textStart => s.behind.isEmpty
  | .lineStart => s.behind.isEmpty || s.behind.head? == some '\n'
  | .textEnd => s.ahead.isEmpty
  | .finalLine => s.ahead.isEmpty || s.ahead == ['\n']
  | .lineEnd => s.ahead.isEmpty || s.ahead.head? == some '\n'
  | .boundary ascii => s.wordBefore ascii != s.wordAfter ascii
  | .interior ascii => !s.blank && s.wordBefore ascii == s.wordAfter ascii

abbrev Marks := List (Option Spot)

structure Registers where
  spot : Spot
  marks : Marks
deriving DecidableEq

namespace Registers

def start (text : List Char) : Registers := ⟨.start text, []⟩

def stand (r : Registers) (s : Spot) : Registers := { r with spot := s }

/-- Sets a mark; marks before it that were never set are empty. -/
def mark (r : Registers) (i : Nat) (s : Spot) : Registers :=
  if i < r.marks.length then { r with marks := r.marks.set i (some s) }
  else { r with marks := r.marks ++ List.replicate (i - r.marks.length) none ++ [some s] }

/-- Takes back the marks of a failed attempt. Within a loop they are as they were before; elsewhere
those that had not been set before are dropped, and the others stay as the attempt left them. -/
def takeBack (r : Registers) (inLoop : Bool) (before : Marks) : Registers :=
  { r with marks := if inLoop then before else r.marks.take before.length }

/-- The text of a group that took part. -/
def captured (r : Registers) (i : Nat) : Option (List Char) :=
  match r.marks[2 * i - 2]?, r.marks[2 * i - 1]? with
  | some (some first), some (some last) =>
    if first.index ≤ last.index then some (first.ahead.take (last.index - first.index)) else none
  | _, _ => none

/-- Whether some group was entered again after it had been left. -/
def isTangled : Marks → Bool
  | some first :: some last :: rest => last.index < first.index || isTangled rest
  | _ :: _ :: rest => isTangled rest
  | _ => false

end Registers

/-- How an attempt ended, with the registers it left. -/
inductive Verdict
  | matched (r : Registers)
  | failed (r : Registers)
deriving DecidableEq

/-- What the rest of a pattern begins with, as far as that can be told from one character. -/
inductive Lead
  | code (n : Nat)
  | oneOf (negated : Bool) (items : List SetItem)
  | other

/-- Whether the next character rules out what begins so. -/
def Lead.excludes (s : Spot) : Lead → Bool
  | code n => !s.faces n
  | oneOf negated items =>
    match s.ahead with
    | [] => true
    | c :: _ => (items.any (SetItem.means c.toNat)) == negated
  | other => false

/-- The rest of a pattern, from a position on. -/
structure Continuation where
  lead : Lead
  run : Spot → Registers → Verdict

namespace Continuation

/-- The end of a pattern. -/
def finish : Continuation := ⟨.other, fun s r => .matched (r.stand s)⟩

/-- Tries the rest from a position. -/
def attempt (k : Continuation) (s : Spot) (r : Registers) : Verdict := k.run s (r.stand s)

end Continuation

end FirstMatch
