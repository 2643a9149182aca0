import FirstMatch.Proofs.Tokenizing
import FirstMatch.Recipe

/-!
Delimiters of nested comments. A text is read from the left in units: a delimiter that opens a comment,
one that closes a comment, or any other character. The comment around a text ends behind the first unit
with which as many comments have been closed as opened. A lexer for comments fires the rule of the next
unit.
-/

namespace FirstMatch

inductive CommentUnit
  | opening
  | closing
  | other (c : Char)
deriving DecidableEq

namespace CommentUnit

def text : CommentUnit → List Char
  | opening => ['/', '*']
  | closing => ['*', '/']
  | other c => [c]

/-- By how much a unit changes the number of open comments. -/
def change : CommentUnit → Int
  | opening => 1
  | closing => -1
  | other _ => 0

/-- The units of a text. -/
def units : List Char → List CommentUnit
  | '/' :: '*' :: rest => opening :: units rest
  | '*' :: '/' :: rest => closing :: units rest
  | c :: rest => other c :: units rest
  | [] => []

/-- The text of some units. -/
def spell (us : List CommentUnit) : List Char := us.flatMap text

/-- How many comments are open after some units. -/
def depthAfter (depth : Int) (us : List CommentUnit) : Int := us.foldl (fun d u => d + u.change) depth

/-- The first `n` units are those up to the one with which all comments are closed. -/
structure Closes (depth : Int) (us : List CommentUnit) (n : Nat) : Prop where
  le : n ≤ us.length
  closed : depthAfter depth (us.take n) = 0
  before : ∀ m < n, depthAfter depth (us.take m) ≠ 0

/-- No unit is without a character. -/
theorem length_text_pos (u : CommentUnit) : 0 < u.text.length := by
  cases u <;> exact Nat.succ_pos _

theorem spell_cons (u : CommentUnit) (us : List CommentUnit) : spell (u :: us) = u.text ++ spell us :=
  List.flatMap_cons

/-- Nothing is lost: the units of a text give the text. -/
theorem spell_units (cs : List Char) : spell (units cs) = cs := by
  induction cs using units.induct with
  | case1 rest ih =>
    rw [units, spell_cons, ih]
    rfl
  | case2 rest ih =>
    rw [units, spell_cons, ih]
    rfl
  | case3 c rest hopening hclosing ih =>
    rw [units.eq_3 c rest hopening hclosing, spell_cons, ih]
    rfl
  | case4 => rfl

/-- Behind some of its units the rest of a text is left. -/
theorem spell_take_append_drop (cs : List Char) (n : Nat) :
    spell ((units cs).take n) ++ cs.drop (spell ((units cs).take n)).length = cs := by
  have hboth : spell ((units cs).take n) ++ spell ((units cs).drop n) = cs := by
    rw [spell, spell, ← List.flatMap_append, List.take_append_drop, ← spell, spell_units]
  generalize spell ((units cs).take n) = before at hboth ⊢
  rw [← hboth, List.drop_left]

theorem length_le_length_spell (us : List CommentUnit) : us.length ≤ (spell us).length := by
  induction us with
  | nil => exact Nat.le_refl 0
  | cons u us ih =>
    have hu := u.length_text_pos
    rw [spell_cons, List.length_append, List.length_cons]
    omega

theorem length_units_le (cs : List Char) : (units cs).length ≤ cs.length := by
  conv_rhs => rw [← spell_units cs]
  exact length_le_length_spell _

variable {depth : Int} {u : CommentUnit} {us : List CommentUnit} {n : Nat}

theorem not_closes_nil (hdepth : depth ≠ 0) : ¬ Closes depth [] n := by
  intro h
  have hclosed := h.closed
  rw [List.take_nil] at hclosed
  exact hdepth hclosed

/-- While a comment is open, the next unit either closes it or leaves it to the units behind. -/
theorem closes_cons (hdepth : depth ≠ 0) :
    Closes depth (u :: us) n ↔ ∃ k, n = k + 1 ∧
      (depth + u.change = 0 ∧ k = 0 ∨ depth + u.change ≠ 0 ∧ Closes (depth + u.change) us k) := by
  constructor
  · rintro ⟨le, closed, before⟩
    cases n with
    | zero => exact absurd closed hdepth
    | succ k =>
      refine ⟨k, rfl, ?_⟩
      by_cases hzero : depth + u.change = 0
      · refine .inl ⟨hzero, ?_⟩
        by_contra hk
        exact before 1 (by omega) hzero
      · exact .inr ⟨hzero, Nat.le_of_succ_le_succ le, closed,
          fun m hm => before (m + 1) (Nat.succ_lt_succ hm)⟩
  · rintro ⟨k, rfl, ⟨hzero, rfl⟩ | ⟨hzero, le, closed, before⟩⟩
    · refine ⟨Nat.succ_le_succ (Nat.zero_le _), hzero, fun m hm => ?_⟩
      obtain rfl : m = 0 := by omega
      exact hdepth
    · refine ⟨Nat.succ_le_succ le, closed, fun m hm => ?_⟩
      cases m with
      | zero => exact hdepth
      | succ m => exact before m (Nat.lt_of_succ_lt_succ hm)

end CommentUnit

namespace Program

/-- The pattern of two given characters. -/
def pair (a b : Char) : Program := ⟨.seq (.char a.toNat .exact) (.char b.toNat .exact), 2⟩

theorem alike_exact (a b : Char) : CaseRule.exact.alike a.toNat b.toNat = decide (b = a) := by
  change (a.toNat == b.toNat) = _
  rw [Bool.eq_iff_iff, beq_iff_eq, decide_eq_true_iff, Char.toNat_inj, eq_comm]

/-- It matches where the text begins with both. -/
theorem run_pair_cons_cons (a b x y : Char) (rest : List Char) :
    (pair a b).run (x :: y :: rest) = if x = a ∧ y = b then some (.length 2) else none := by
  have hshort : (Spot.start (x :: y :: rest)).isShort 2 = false := rfl
  unfold run
  change (if (Spot.start (x :: y :: rest)).isShort 2 = true then none else _) = _
  rw [hshort, if_neg Bool.false_ne_true]
  simp only [pair, Regex.run, Regex.step, Spot.eat?, Spot.start, alike_exact]
  by_cases hx : x = a
  · by_cases hy : y = b
    · simp [hx, hy, Continuation.finish, Registers.stand, Registers.start, Registers.isTangled]
    · simp [hx, hy]
  · simp [hx]

/-- Nowhere else does it match. -/
theorem run_pair_eq_none {a b : Char} {text : List Char} (h : ∀ rest, text ≠ a :: b :: rest) :
    (pair a b).run text = none := by
  rcases text with _ | ⟨x, _ | ⟨y, rest⟩⟩
  · rfl
  · rfl
  · rw [run_pair_cons_cons, if_neg]
    rintro ⟨rfl, rfl⟩
    exact h rest rfl

theorem run_pair_self (a b : Char) (rest : List Char) :
    (pair a b).run (a :: b :: rest) = some (.length 2) := by
  rw [run_pair_cons_cons, if_pos ⟨rfl, rfl⟩]

end Program

/-- The rules of a lexer for comments: a delimiter is a token that says by how much it changes the number
of open comments, and all else is skipped. -/
def commentBody : List Declaration := [
  .rule (.text ['/', '\\', '*']) (.action (plainAction "opening" fun _ => .done (.int 1))),
  .rule (.text ['\\', '*', '/']) (.action (plainAction "closing" fun _ => .done (.int (-1)))),
  .rule (.kind .wildcard) (.action .skip)]

namespace CommentUnit

/-- What the lexer makes of a unit. -/
def token : CommentUnit → Value
  | opening => .int 1
  | closing => .int (-1)
  | other _ => .skip

/-- The rule for a unit. -/
def rule : CommentUnit → CompiledRule
  | opening => ⟨0, .regex .pattern ['/', '\\', '*'] (.pair '/' '*'),
      plainAction "opening" fun _ => .done (.int 1), ⟨1, [], [], false⟩⟩
  | closing => ⟨1, .regex .pattern ['\\', '*', '/'] (.pair '*' '/'),
      plainAction "closing" fun _ => .done (.int (-1)), ⟨1, [], [], false⟩⟩
  | other _ => ⟨2, .wildcard, .skip, ⟨1, [], [], false⟩⟩

end CommentUnit

def commentTable : RuleTable :=
  ⟨[CommentUnit.opening.rule, CommentUnit.closing.rule, (CommentUnit.other default).rule]⟩

theorem ofSource_commentBody (dialect : Regex.Dialect) :
    (RuleTable.ofSource (.declarations commentBody) dialect).result = (.ok commentTable, []) := rfl

namespace CommentUnit

theorem firstMatch_commentTable (c : Cursor) : RuleTable.firstMatch commentTable.rules c =
    match (Program.pair '/' '*').run c.ahead with
    | some m => some (opening.rule, m)
    | none =>
      match (Program.pair '*' '/').run c.ahead with
      | some m => some (closing.rule, m)
      | none => (Trigger.anyCharacter.run c.ahead).map fun m => ((other default).rule, m) := by
  have hopening : opening.rule.matchAt c (some c.ahead) = (Program.pair '/' '*').run c.ahead := rfl
  have hclosing : closing.rule.matchAt c (some c.ahead) = (Program.pair '*' '/').run c.ahead := rfl
  have hother (x : Char) :
      (other x).rule.matchAt c (some c.ahead) = Trigger.anyCharacter.run c.ahead := rfl
  simp only [commentTable, RuleTable.firstMatch, hopening, hclosing, hother]
  cases Trigger.anyCharacter.run c.ahead <;> rfl

/-- The rule of the next unit is the first one to match, and it matches the unit. -/
theorem firstMatch_of_units {c : Cursor} {u : CommentUnit} {us : List CommentUnit}
    (h : units c.ahead = u :: us) :
    RuleTable.firstMatch commentTable.rules c = some (u.rule, .length u.text.length) ∧
      c.ahead.take u.text.length = u.text ∧ units (c.ahead.drop u.text.length) = us := by
  rw [firstMatch_commentTable]
  generalize c.ahead = cs at h
  cases cs using units.fun_cases with
  | case1 rest =>
    cases h
    rw [Program.run_pair_self]
    exact ⟨rfl, rfl, rfl⟩
  | case2 rest =>
    cases h
    rw [Program.run_pair_eq_none (by simp), Program.run_pair_self]
    exact ⟨rfl, rfl, rfl⟩
  | case3 x rest hopening hclosing =>
    rw [units.eq_3 x rest hopening hclosing] at h
    cases h
    have hnone : ∀ a b, (∀ rest', x = a → rest = b :: rest' → False) →
        (Program.pair a b).run (x :: rest) = none := fun a b hnot =>
      Program.run_pair_eq_none fun rest' heq => hnot rest' (List.cons.inj heq).1 (List.cons.inj heq).2
    rw [hnone _ _ hopening, hnone _ _ hclosing]
    exact ⟨rfl, rfl, rfl⟩
  | case4 => cases h

end CommentUnit

end FirstMatch
