import FirstMatch.Regex.Registers

/-!
Repetitions. A greedy one takes one more turn before it goes on, a lazy one goes on first, and a
possessive one takes all the turns that it can and then goes on, without return: from where the last of
them ended, or else from where the turn after it has failed. A free turn is not taken from where the last
free turn began. Single characters are repeated by counting them; other
bodies turn by turn.
-/

namespace FirstMatch

/-- A test of a single character. `tracks` says that the register follows while such characters are
counted. -/
structure CharTest where
  holds : Nat → Bool
  tracks : Bool

namespace CharTest

/-- The registers after characters have been counted from `s` to `t`. -/
def counted (c : CharTest) (s t : Spot) (r : Registers) : Registers :=
  r.stand (if c.tracks then t else s)

/-- Goes on after as many characters as possible, and then after fewer, `spare` fewer at most. Places
that the next character rules out are passed over. -/
def giveBack (k : Continuation) (inLoop : Bool) (before : Marks) :
    Nat → Spot → Registers → Verdict
  | spare, s, r =>
    let passed := match k.lead with
      | .code n => !s.faces n
      | _ => false
    let verdict : Verdict :=
      if passed then .failed r
      else
        match k.attempt s r with
        | .matched r => .matched r
        | .failed r => .failed (r.takeBack inLoop before)
    match verdict, spare with
    | .matched r, _ => .matched r
    | .failed r, 0 => .failed r
    | .failed r, spare + 1 => giveBack k inLoop before spare s.retreat r

/-- Goes on before each further character, of which at most `spare` are taken. -/
def takeMore (c : CharTest) (k : Continuation) (inLoop : Bool) (before : Marks) (behind : List Char)
    (index : Nat) : List Char → Option Nat → Registers → Verdict
  | ahead, spare, r =>
    let s : Spot := ⟨behind, ahead, index⟩
    match k.attempt s r with
    | .matched r => .matched r
    | .failed r =>
      let r := (r.takeBack inLoop before).stand s
      match ahead with
      | [] => .failed r
      | x :: rest =>
        if c.holds x.toNat then
          let r := c.counted s ⟨x :: behind, rest, index + 1⟩ r
          if spare = some 0 then .failed r
          else takeMore c k inLoop before (x :: behind) (index + 1) rest (spare.map (· - 1)) r
        else .failed r

/-- Repeats a single character. -/
def repeated (c : CharTest) (pace : Pace) (least : Nat) (most : Option Nat) (inLoop : Bool)
    (k : Continuation) (s : Spot) (r : Registers) : Verdict :=
  if s.isShort least then .failed r
  else
    match pace with
    | .greedy =>
      let t := s.advanceWhile c.holds most
      let r := c.counted s t r
      let count := t.index - s.index
      if count < least then .failed r else giveBack k inLoop r.marks (count - least) t r
    | .possessive _ =>
      let t := s.advanceWhile c.holds most
      let r := c.counted s t r
      if t.index - s.index < least then .failed r else k.run t r
    | .lazy =>
      let t := s.advanceWhile c.holds (some least)
      let r := c.counted s t r
      if t.index - s.index < least then .failed r
      else takeMore c k inLoop r.marks t.behind t.index t.ahead (most.map (· - least)) r

end CharTest

/-- A turn of a repetition: the body, and then what is given. -/
abbrev Turn := Continuation → Spot → Registers → Verdict

namespace Loop

/-- Whether one more free turn may be taken. -/
def again (most : Option Nat) (count : Nat) (last : Option Nat) (s : Spot) : Bool :=
  (match most with
    | none => true
    | some m => count < m) && last != some s.index

/-- Goes on, and stands where it began if that fails. -/
def leave (k : Continuation) (s : Spot) (r : Registers) : Verdict :=
  match k.attempt s r with
  | .matched r => .matched r
  | .failed r => .failed (r.stand s)

/-- After `count` turns; `last` is where the last free turn began, and `bound` limits the turns. -/
def greedy (turn : Turn) (least : Nat) (most : Option Nat) (k : Continuation) :
    Nat → Nat → Option Nat → Spot → Registers → Verdict
  | 0, _, _, _, r => .failed r
  | bound + 1, count, last, s, r =>
    if count < least then
      match turn ⟨.other, greedy turn least most k bound (count + 1) last⟩ s (r.stand s) with
      | .matched r => .matched r
      | .failed r => .failed (r.stand s)
    else if again most count last s then
      match turn ⟨.other, greedy turn least most k bound (count + 1) (some s.index)⟩ s (r.stand s) with
      | .matched r => .matched r
      | .failed f => leave k s (f.takeBack true r.marks)
    else leave k s r

def lazily (turn : Turn) (least : Nat) (most : Option Nat) (inLoop : Bool) (k : Continuation) :
    Nat → Nat → Option Nat → Spot → Registers → Verdict
  | 0, _, _, _, r => .failed r
  | bound + 1, count, last, s, r =>
    if count < least then
      match turn ⟨.other, lazily turn least most inLoop k bound (count + 1) last⟩ s (r.stand s) with
      | .matched r => .matched r
      | .failed r => .failed (r.stand s)
    else
      match k.attempt s r with
      | .matched r => .matched r
      | .failed f =>
        let r := (f.takeBack inLoop r.marks).stand s
        if again most count last s then
          match turn ⟨.other, lazily turn least most inLoop k bound (count + 1) (some s.index)⟩ s r with
          | .matched r => .matched r
          | .failed r => .failed (r.stand s)
        else .failed r

/-- Takes the turns that are needed, each settled on its first way to match. -/
def owed (turn : Turn) : Nat → Registers → Verdict
  | 0, r => .matched r
  | n + 1, r =>
    match turn .finish r.spot r with
    | .matched r => owed turn n r
    | .failed r => .failed r

/-- Takes free turns until one fails. The register stands where the last turn ended if the failure is
undone, else where the failure left it. -/
def free (undoes : Bool) (turn : Turn) (most : Option Nat) :
    Nat → Nat → Option Nat → Registers → Registers
  | 0, _, _, r => r
  | bound + 1, count, last, r =>
    if again most count last r.spot then
      match turn .finish r.spot r with
      | .matched t => free undoes turn most bound (count + 1) (some r.spot.index) t
      | .failed f => if undoes then r else f.takeBack true r.marks
    else r

def possessive (undoes : Bool) (turn : Turn) (least : Nat) (most : Option Nat) (k : Continuation)
    (bound : Nat) (s : Spot) (r : Registers) : Verdict :=
  match owed turn least (r.stand s) with
  | .failed r => .failed (r.stand s)
  | .matched r =>
    let r := free undoes turn most bound least none r
    k.run r.spot r

/-- A bound for the turns: those needed, and one for every pair of places in the text, since a turn
that ends with a possessive repetition may end before it began. -/
def bound (least : Nat) (s : Spot) : Nat :=
  let places := s.index + s.ahead.length + 2
  least + places * places

theorem least_lt_bound (least : Nat) (s : Spot) : least < bound least s :=
  Nat.lt_add_of_pos_right (Nat.mul_pos (Nat.succ_pos _) (Nat.succ_pos _))

def run (turn : Turn) (pace : Pace) (least : Nat) (most : Option Nat) (inLoop : Bool)
    (k : Continuation) (s : Spot) (r : Registers) : Verdict :=
  match pace with
  | .greedy => greedy turn least most k (bound least s) 0 none s (r.stand s)
  | .lazy => lazily turn least most inLoop k (bound least s) 0 none s (r.stand s)
  | .possessive undoes => possessive undoes turn least most k (bound least s) s r

end Loop

end FirstMatch
