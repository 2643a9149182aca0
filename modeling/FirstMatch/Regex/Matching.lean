import FirstMatch.Regex.Repetition

/-!
Matching at the start of a text, by backtracking: alternatives are tried from the left, and the rest of
the pattern is a continuation, so the first way in which everything matches is the answer. A failed
attempt leaves its registers to the next one, except where they are taken back.
-/

namespace FirstMatch

namespace Regex

/-- What the pattern begins with, if it is followed by something with the given lead. -/
def lead : Regex → Lead → Lead
  | .empty, k => k
  | .char code .exact, _ => .code code
  | .set negated items .exact, _ => .oneOf negated items
  | .seq first second, k => first.lead (second.lead k)
  | .scoped body, k => body.lead k
  | _, _ => .other

/-- The test of a pattern that is a single character. -/
def charTest? : Regex → Option CharTest
  | .char code rule => some ⟨rule.alike code, rule.hasKin code⟩
  | .except code rule => some ⟨fun n => !rule.alike code n, rule.hasKin code⟩
  | .any newline => some ⟨fun n => newline || n != 10, false⟩
  | .set negated items rule =>
    some ⟨fun n => items.any (SetItem.holds rule n) != negated, rule != .exact⟩
  | .scoped body => body.charTest?
  | _ => none

/-- Consumes a single character. -/
def step (test : Nat → Bool) (k : Continuation) (s : Spot) (r : Registers) : Verdict :=
  match s.eat? test with
  | some t => k.run t r
  | none => .failed r

/-- The first way in which the pattern and then the continuation match. `inLoop` says whether the
pattern lies in the body of a greedy or lazy repetition that goes turn by turn. -/
def run (inLoop : Bool) : Regex → Continuation → Spot → Registers → Verdict
  | .empty, k, s, r => k.run s r
  | .never, _, _, r => .failed r
  | .char code rule, k, s, r => step (rule.alike code) k s r
  | .except code rule, k, s, r => step (fun n => !rule.alike code n) k s r
  | .any newline, k, s, r => step (fun n => newline || n != 10) k s r
  | .set negated items rule, k, s, r =>
    step (fun n => items.any (SetItem.holds rule n) != negated) k s r
  | .anchor a, k, s, r => if a.holds s then k.run s r else .failed r
  | .seq first second, k, s, r => first.run inLoop ⟨second.lead k.lead, second.run inLoop k⟩ s r
  | .alt first others, k, s, r =>
    if (first.lead .other).excludes s then others.run inLoop k s r
    else
      match first.run inLoop ⟨.other, k.run⟩ s (r.stand s) with
      | .matched r => .matched r
      | .failed f => others.run inLoop k s (f.takeBack inLoop r.marks)
  | .loop pace least most body, k, s, r =>
    match body.charTest? with
    | some test => test.repeated pace least most inLoop k s r
    | none =>
      match pace with
      | .possessive _ => Loop.run (body.run inLoop) pace least most inLoop k s r
      | _ => Loop.run (body.run true) pace least most inLoop k s r
  | .group i body, k, s, r =>
    body.run inLoop ⟨.other, fun t r => k.run t (r.mark (2 * i - 1) t)⟩ s (r.mark (2 * i - 2) s)
  | .scoped body, k, s, r => body.run inLoop k s r
  | .atomic body, k, s, r =>
    match body.run inLoop .finish s (r.stand s) with
    | .matched r => k.run r.spot r
    | .failed r => .failed (r.stand s)
  | .ahead false body, k, s, r =>
    match body.run inLoop .finish s (r.stand s) with
    | .matched r => k.run s r
    | .failed r => .failed r
  | .ahead true body, k, s, r =>
    match body.run inLoop .finish s (r.stand s) with
    | .matched r => .failed r
    | .failed f => k.run s (f.takeBack inLoop r.marks)
  | .behind false width body, k, s, r =>
    if s.index < width then .failed r
    else
      let t := s.back width
      match body.run inLoop .finish t (r.stand t) with
      | .matched r => k.run s r
      | .failed r => .failed r
  | .behind true width body, k, s, r =>
    if s.index < width then k.run s r
    else
      let t := s.back width
      match body.run inLoop .finish t (r.stand t) with
      | .matched r => .failed r
      | .failed f => k.run s (f.takeBack inLoop r.marks)
  | .reference i rule, k, s, r =>
    match (r.captured i).bind fun text => Spot.eatText rule text s with
    | some t => k.run t r
    | none => .failed r
  | .ifGroup i yes no, k, s, r =>
    if (r.captured i).isSome then
      yes.run inLoop ⟨if no = .empty then k.lead else .other, k.run⟩ s r
    else no.run inLoop k s r

theorem run_anchor (inLoop : Bool) (a : Anchor) (k : Continuation) (s : Spot) (r : Registers) :
    (anchor a).run inLoop k s r = if a.holds s then k.run s r else .failed r := rfl

/-- What follows a look at other characters: matching goes on from where it was, or it fails. What a
look that must not succeed has left is taken back. -/
def looked (negated inLoop : Bool) (k : Continuation) (s : Spot) (r : Registers) : Verdict → Verdict
  | .matched q => if negated then .failed q else k.run s q
  | .failed f => if negated then k.run s (f.takeBack inLoop r.marks) else .failed f

theorem run_ahead (inLoop negated : Bool) (body : Regex) (k : Continuation) (s : Spot)
    (r : Registers) : (ahead negated body).run inLoop k s r =
      looked negated inLoop k s r (body.run inLoop .finish s (r.stand s)) := by
  cases negated with
  | false =>
    rw [run]
    cases body.run inLoop .finish s (r.stand s) <;> rfl
  | true =>
    rw [run]
    cases body.run inLoop .finish s (r.stand s) <;> rfl

theorem run_behind (inLoop negated : Bool) (width : Nat) (body : Regex) (k : Continuation) (s : Spot)
    (r : Registers) : (behind negated width body).run inLoop k s r =
      if s.index < width then (if negated then k.run s r else .failed r)
      else looked negated inLoop k s r
        (body.run inLoop .finish (s.back width) (r.stand (s.back width))) := by
  cases negated with
  | false =>
    rw [run]
    dsimp only
    cases body.run inLoop .finish (s.back width) (r.stand (s.back width)) <;> rfl
  | true =>
    rw [run]
    dsimp only
    cases body.run inLoop .finish (s.back width) (r.stand (s.back width)) <;> rfl

/-- A match at the start of a text, by its length. In a tangled match some group begins after its end,
which possessive repetitions can bring about; asked for it, the engine raises an error of its own. -/
inductive Match
  | length (n : Nat)
  | tangled
deriving DecidableEq

end Regex

/-- A pattern that is ready for matching, with the least number of characters that it can match. -/
structure Program where
  tree : Regex
  least : Nat
deriving DecidableEq

namespace Program

/-- Matches at the start of a text. -/
def run (p : Program) (text : List Char) : Option Regex.Match :=
  if (Spot.start text).isShort p.least then none
  else
    match p.tree.run false .finish (.start text) (.start text) with
    | .failed _ => none
    | .matched r =>
      some (if Registers.isTangled r.marks then .tangled else .length r.spot.index)

end Program

end FirstMatch
