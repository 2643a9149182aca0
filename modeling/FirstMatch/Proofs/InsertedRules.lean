import FirstMatch.Proofs.Repetition
import FirstMatch.Proofs.Unjournaled

/-!
Inserting rules into a table. The runs of the tables without and with the inserted rules are the same,
but for the numbers of the rules behind these, up to the first step at which one of the inserted rules is
the first to match. So inserted rules that match only where an earlier one does are dead, and rules
behind all others do not change the tokens before the first failure or the end.
-/

namespace FirstMatch

namespace RuleTable

/-- At a cursor that is not exhausted, one of the `added` rules from `place` on matches, and none before
them does. -/
def FirstIn (t : RuleTable) (place added : Nat) (c : Cursor) : Prop :=
  c.exhausted = false ∧
    (∀ q ∈ t.rules.take place, q.trigger.matchAt c.ahead.isEmpty c.ahead = none) ∧
    ∃ r ∈ (t.rules.drop place).take added, (r.trigger.matchAt c.ahead.isEmpty c.ahead).isSome

instance (t : RuleTable) (place added : Nat) (c : Cursor) : Decidable (t.FirstIn place added c) :=
  inferInstanceAs (Decidable (_ ∧ _ ∧ _))

variable {a b : RuleTable} {first between second : List CompiledRule} {c : Cursor}

theorem firstIn_iff {t : RuleTable} {place added : Nat} :
    t.FirstIn place added c ↔ c.exhausted = false ∧
      firstMatch (t.rules.take place) c.markIfEmpty = none ∧
      (firstMatch ((t.rules.drop place).take added) c.markIfEmpty).isSome := by
  rw [firstMatch_eq_none_iff, firstMatch_isSome_iff, FirstIn]
  refine and_congr_right fun hex => ?_
  simp only [fun r => CompiledRule.matchAt_markIfEmpty r hex]

namespace Inserted

theorem firstIn_iff (h : a.Inserted b first between second) :
    b.FirstIn first.length between.length c ↔ c.exhausted = false ∧
      firstMatch first c.markIfEmpty = none ∧ (firstMatch between c.markIfEmpty).isSome := by
  rw [RuleTable.firstIn_iff, h.extended, List.append_assoc, List.take_left' (List.length_map _),
    List.drop_left' (List.length_map _), List.take_left' rfl,
    firstMatch_map (CompiledRule.trigger_renumbered _), Option.map_eq_none_iff]

/-- Unless an inserted rule is the first to match, the same rule fires as without them, under the number
that it has then. -/
theorem attempt_eq (h : a.Inserted b first between second)
    (hnot : ¬ b.FirstIn first.length between.length c) :
    b.attempt c =
      ((a.attempt c).1.mapRule (.renumbered (movedNumber first.length between.length)),
        (a.attempt c).2) := by
  cases hex : c.exhausted with
  | true =>
    unfold attempt
    rw [if_pos hex, if_pos hex]
    rfl
  | false =>
    refine attempt_mapRule ?_
    rw [h.whole, h.extended, firstMatch_append, firstMatch_append, firstMatch_append,
      firstMatch_map (CompiledRule.trigger_renumbered _),
      firstMatch_map (CompiledRule.trigger_renumbered _)]
    cases hfirst : firstMatch first c.markIfEmpty with
    | some found => rfl
    | none =>
      have hbetween : firstMatch between c.markIfEmpty = none := by
        by_contra hmatch
        exact hnot (h.firstIn_iff.mpr ⟨hex, hfirst, Option.isSome_iff_ne_none.mpr hmatch⟩)
      rw [hbetween]
      rfl

/-- An inserted rule that is the first to match fires. What the rules behind it match does not matter. -/
theorem attempt_of_firstIn (h : a.Inserted b first between second)
    (hin : b.FirstIn first.length between.length c) :
    ∃ k r m, k < between.length ∧ b.rules[first.length + k]? = some r ∧
      r.trigger.matchAt c.ahead.isEmpty c.ahead = some m ∧ (b.attempt c).1 = .ofMatch c r m := by
  obtain ⟨hex, hfirst, hbetween⟩ := h.firstIn_iff.mp hin
  obtain ⟨⟨r, m⟩, hmatch⟩ := Option.isSome_iff_exists.mp hbetween
  obtain ⟨before, after, rfl, -, hm⟩ := firstMatch_eq_some_iff.mp hmatch
  refine ⟨before.length, r, m, by simp, ?_, (r.matchAt_markIfEmpty hex).symm.trans hm, ?_⟩
  · simp [h.extended]
  · refine attempt_of_firstMatch hex ?_
    rw [h.extended, firstMatch_append, firstMatch_append,
      firstMatch_map (CompiledRule.trigger_renumbered _), hfirst, hmatch]
    rfl

end Inserted

end RuleTable

/-- The tokens of steps before the first one that fails or meets the end. -/
def Outcome.yielded : List (Except Fault Outcome) → List (Value × Span)
  | .ok (.emitted token span) :: rs => (token, span) :: yielded rs
  | .ok (.skipped _) :: rs => yielded rs
  | _ => []

/-- More steps yield more tokens at most. -/
theorem Outcome.yielded_prefix (rs qs : List (Except Fault Outcome)) :
    yielded rs <+: yielded (rs ++ qs) := by
  induction rs with
  | nil => exact List.nil_prefix
  | cons r rs ih =>
    cases r with
    | error f => exact List.nil_prefix
    | ok o =>
      cases o with
      | emitted token span => exact List.prefix_cons_inj _ |>.mpr ih
      | skipped span => exact ih
      | exhausted => exact List.nil_prefix
      | failed f => exact List.nil_prefix

/-- The outcome of a match whose action has returned says nothing of the number of the rule. -/
theorem Outcome.GoesOn.renumbered_eq {o : Outcome} (h : o.GoesOn) (number : Int → Int) :
    o.renumbered number = o := by
  cases o with
  | failed f => exact h.elim
  | _ => rfl

namespace Run

/-- The same results but for the numbers of rules, and sessions that differ in their journals only. -/
def Renumbered (number : Int → Int) (p q : List (Except Fault Outcome) × Session) : Prop :=
  q.1 = p.1.map (Except.map (Outcome.renumbered number)) ∧ q.2.unjournaled = p.2.unjournaled

end Run

open Run (repeated)

namespace RuleTable.Inserted

variable {a b : RuleTable} {first between second : List CompiledRule} {perform : Performer} {i : Nat}
  {context : Arguments} {s t : Session}

/-- Up to a step at which an inserted rule is the first to match, both tables come to the same. -/
theorem repeated_renumbered (h : a.Inserted b first between second) (hp : ∀ q, Run.Blind (perform q))
    {n : Nat} (ht : t.unjournaled = s.unjournaled)
    (hnot : ∀ m < n, ∀ rs u, repeated (a.stepWith perform i context) m s = some (rs, u) →
      ¬ b.FirstIn first.length between.length (u.cursor i)) :
    Option.Rel (Run.Renumbered (movedNumber first.length between.length))
      (repeated (a.stepWith perform i context) n s) (repeated (b.stepWith perform i context) n t) := by
  induction n generalizing s t with
  | zero => exact .some ⟨rfl, ht⟩
  | succ n ih =>
    have hstep := Run.stepWith_renumbered hp (h.attempt_eq (hnot 0 (by omega) [] s rfl)) ht context
    unfold repeated
    generalize hx : a.stepWith perform i context s = x at hstep
    generalize b.stepWith perform i context t = y at hstep
    cases hstep with
    | none => exact .none
    | @some p q hpq =>
      obtain ⟨r, s'⟩ := p
      obtain ⟨r', t'⟩ := q
      obtain ⟨rfl, ht'⟩ := hpq
      have hrest := ih ht' fun m hm rs u hu =>
        hnot (m + 1) (by omega) (r :: rs) u (by rw [Run.repeated_succ_of_some hx, hu]; rfl)
      exact rel_map hrest fun _ _ hpq => ⟨congrArg (List.cons _) hpq.1, hpq.2⟩

/-- Where a step of a table goes on, no rule behind all of its rules is the first to match. -/
theorem not_firstIn_of_goesOn (h : a.Inserted b first between []) {u : Session} {o : Outcome}
    (hstep : a.stepWith perform i context s = some (.ok o, u)) (ho : o.GoesOn) :
    ¬ b.FirstIn first.length between.length (s.cursor i) := by
  intro hin
  obtain ⟨hex, hnone, -⟩ := h.firstIn_iff.mp hin
  obtain ⟨rule, text, span, -, hfired, -⟩ := fired_of_goesOn hstep ho
  obtain ⟨n, -, hmatch, -⟩ := of_fired hfired
  rw [h.whole, List.append_nil, hnone] at hmatch
  cases hmatch

/-- Rules behind all others leave the steps alone that go on. -/
theorem repeated_appended (h : a.Inserted b first between []) (hp : ∀ q, Run.Blind (perform q))
    {n : Nat} (ht : t.unjournaled = s.unjournaled) {rs : List (Except Fault Outcome)} {u : Session}
    (hrun : repeated (a.stepWith perform i context) n s = some (rs, u)) :
    ∃ k v, k ≤ n ∧ repeated (b.stepWith perform i context) k t = some (rs.take k, v) ∧
      Outcome.yielded (rs.take k) = Outcome.yielded rs := by
  induction n generalizing s t rs with
  | zero =>
    cases hrun
    exact ⟨0, t, Nat.le_refl 0, rfl, rfl⟩
  | succ n ih =>
    obtain ⟨r, s', qs, hstep, hrest, rfl⟩ := Run.repeated_succ_eq_some hrun
    by_cases hr : ∃ o, r = .ok o ∧ o.GoesOn
    · obtain ⟨o, rfl, ho⟩ := hr
      have hnot := h.not_firstIn_of_goesOn hstep ho
      have hboth := Run.stepWith_renumbered hp (h.attempt_eq hnot) ht context
      rw [hstep] at hboth
      generalize hy : b.stepWith perform i context t = y at hboth
      cases hboth with
      | @some _ q hpq =>
        obtain ⟨r', t'⟩ := q
        obtain ⟨rfl, ht'⟩ := hpq
        obtain ⟨k, v, hk, hk', hyielded⟩ := ih ht' hrest
        refine ⟨k + 1, v, by omega, ?_, ?_⟩
        · rw [Run.repeated_succ_of_some hy, hk', List.take_succ_cons, Except.map,
            ho.renumbered_eq]
          rfl
        · rw [List.take_succ_cons]
          cases o with
          | emitted token span => exact congrArg (List.cons (token, span)) hyielded
          | skipped span => exact hyielded
          | exhausted => exact ho.elim
          | failed f => exact ho.elim
    · refine ⟨0, t, Nat.zero_le _, rfl, ?_⟩
      rcases r with f | o
      · rfl
      · cases o with
        | emitted token span => exact absurd ⟨_, rfl, trivial⟩ hr
        | skipped span => exact absurd ⟨_, rfl, trivial⟩ hr
        | exhausted => rfl
        | failed f => rfl

end RuleTable.Inserted

/-- Whether rules are inserted into a table matters only where one of them is the first to match. Up to
the first step at which that is so, the runs of both tables come to the same outcomes and to the same
session, journal apart, but for the numbers of the rules behind; and at that step the inserted rule
fires, whatever those would match. So inserted rules that match only where a rule before them does are
dead, and rules behind all others leave the tokens before the first failure or the end as they are. -/
theorem insertion_matters_where_first {dialect : Regex.Dialect} {ds fs es : List Declaration}
    {a b : RuleTable} {wa wb : List EmptyMatch}
    (ha : (RuleTable.ofSource (.declarations (ds ++ es)) dialect).result = (.ok a, wa))
    (hb : (RuleTable.ofSource (.declarations (ds ++ fs ++ es)) dialect).result = (.ok b, wb))
    (depth i : Nat) (context : Arguments) (s : Session) (n : Nat) :
    let without := repeated (a.stepWith (Run.perform depth) i context)
    let extended := repeated (b.stepWith (Run.perform depth) i context)
    let inserted := (b.rules.drop ds.length).take fs.length
    ((∀ m < n, ∀ rs u, without m s = some (rs, u) →
        ¬ b.FirstIn ds.length fs.length (u.cursor i)) →
      Option.Rel (Run.Renumbered (movedNumber ds.length fs.length)) (without n s) (extended n s) ∧
      ∀ rs u, without n s = some (rs, u) → b.FirstIn ds.length fs.length (u.cursor i) →
        ∃ v k r m, extended n s = some
            (rs.map (Except.map (Outcome.renumbered (movedNumber ds.length fs.length))), v) ∧
          v.cursor i = u.cursor i ∧ k < fs.length ∧ b.rules[ds.length + k]? = some r ∧
          r.trigger.matchAt (v.cursor i).ahead.isEmpty (v.cursor i).ahead = some m ∧
          (b.attempt (v.cursor i)).1 = .ofMatch (v.cursor i) r m) ∧
    ((∀ r ∈ inserted, ∀ text, (r.trigger.matchAt text.isEmpty text).isSome →
        ∃ q ∈ b.rules.take ds.length, (q.trigger.matchAt text.isEmpty text).isSome) →
      Option.Rel (Run.Renumbered (movedNumber ds.length fs.length)) (without n s) (extended n s)) ∧
    (es = [] → ∀ rs u, without n s = some (rs, u) →
      ∃ k v, k ≤ n ∧ extended k s = some (rs.take k, v) ∧
        Outcome.yielded (rs.take k) = Outcome.yielded rs ∧
        ∀ l qs w, k ≤ l → extended l s = some (qs, w) →
          Outcome.yielded rs <+: Outcome.yielded qs) := by
  obtain ⟨first, between, second, hab, hplace, hadded, hsecond⟩ :=
    RuleTable.inserted_of_declarations ha hb
  dsimp only
  rw [← hplace, ← hadded]
  have same (hnot : ∀ m < n, ∀ rs u,
      repeated (a.stepWith (Run.perform depth) i context) m s = some (rs, u) →
        ¬ b.FirstIn first.length between.length (u.cursor i)) :=
    hab.repeated_renumbered (Run.blind_perform depth) (t := s) rfl hnot
  refine ⟨fun hnot => ⟨same hnot, fun rs u hrun hin => ?_⟩, fun hdead => same ?_,
    fun hes rs u hrun => ?_⟩
  · have hboth := same hnot
    rw [hrun] at hboth
    generalize repeated (b.stepWith (Run.perform depth) i context) n s = y at hboth
    cases hboth with
    | @some _ q hpq =>
      obtain ⟨qs, v⟩ := q
      obtain ⟨rfl, hv⟩ := hpq
      have hcursor : v.cursor i = u.cursor i := Session.cursor_of_unjournaled hv i
      obtain ⟨k, r, m, hk, hr, hmatch, hattempt⟩ := hab.attempt_of_firstIn hin
      refine ⟨v, k, r, m, rfl, hcursor, hk, hr, ?_, ?_⟩
      · rwa [hcursor]
      · rwa [hcursor]
  · rintro m - rs u - ⟨hex, hnone, r, hr, hmatch⟩
    obtain ⟨q, hq, hmatch'⟩ := hdead r hr _ hmatch
    rw [hnone q hq] at hmatch'
    cases hmatch'
  · obtain rfl : second = [] := List.eq_nil_of_length_eq_zero (by rw [hsecond, hes]; rfl)
    obtain ⟨k, v, hk, hextended, hyielded⟩ :=
      hab.repeated_appended (Run.blind_perform depth) (t := s) rfl hrun
    refine ⟨k, v, hk, hextended, hyielded, fun l qs w hl hlater => ?_⟩
    obtain ⟨d, rfl⟩ := Nat.exists_eq_add_of_le hl
    obtain ⟨_, ps, qs', hearly, -, rfl⟩ := Run.repeated_add_eq_some hlater
    cases hextended.symm.trans hearly
    rw [← hyielded]
    exact Outcome.yielded_prefix _ _

def blanks : List Declaration := [.rule (.kind .whitespace) (.action .skip)]

def oneLetter : List Declaration := [.rule (.text ['a']) (.action .string)]

/-- A word, and a rule for all else, whose action fails. -/
def wordOrRefusal : List Declaration := [
  .rule (.text ['a', 'b']) (.action .string),
  .rule (.kind .wildcard) (.action (plainAction "refuse" fun _ => .fail (.raised "ValueError" none)))]

def blankRule (number : Int) : CompiledRule := ⟨number, .whitespace, .skip, ⟨1, [], [], false⟩⟩

def oneLetterRule (number : Int) : CompiledRule :=
  ⟨number, .regex .pattern ['a'] ⟨.char 97 .exact, 1⟩, .string, ⟨1, [], [], false⟩⟩

def wordRule (number : Int) : CompiledRule :=
  ⟨number, .regex .pattern ['a', 'b'] ⟨.seq (.char 97 .exact) (.char 98 .exact), 2⟩, .string,
    ⟨1, [], [], false⟩⟩

def refusalRule (number : Int) : CompiledRule :=
  ⟨number, .wildcard, plainAction "refuse" fun _ => .fail (.raised "ValueError" none),
    ⟨1, [], [], false⟩⟩

def wordTable : RuleTable := ⟨[blankRule 0, wordRule 1, refusalRule 2]⟩

def letterWordTable : RuleTable := ⟨[blankRule 0, oneLetterRule 1, wordRule 2, refusalRule 3]⟩

def sessionOn (text : List Char) : Session := { Session.empty with cursors := #[.ofText text] }

/-- A letter is inserted before a word that begins with it. The first character is refused by the last
rule either way, which then has another number, and the blank is skipped; in front of the word the letter
fires. Blanks that are declared a second time are dead. Blanks behind the letter come after its token. -/
theorem insertion_matters_where_first_letter :
    (∃ u v,
      repeated (wordTable.stepWith (Run.perform 0) 0 []) 2 (sessionOn ['b', ' ', 'a', 'b']) = some
        ([.ok (.failed (.action 0 (.raised "ValueError" none) ⟨⟨1, 1⟩, ⟨1, 1⟩, (0, 1)⟩ 2 true)),
          .ok (.skipped ⟨⟨1, 2⟩, ⟨1, 2⟩, (1, 2)⟩)], u) ∧
      repeated (letterWordTable.stepWith (Run.perform 0) 0 []) 2 (sessionOn ['b', ' ', 'a', 'b']) = some
        ([.ok (.failed (.action 0 (.raised "ValueError" none) ⟨⟨1, 1⟩, ⟨1, 1⟩, (0, 1)⟩ 3 true)),
          .ok (.skipped ⟨⟨1, 2⟩, ⟨1, 2⟩, (1, 2)⟩)], v) ∧
      v.cursor 0 = u.cursor 0 ∧
      (letterWordTable.attempt (v.cursor 0)).1 =
        .fired (oneLetterRule 1) ['a'] ⟨⟨1, 3⟩, ⟨1, 3⟩, (2, 3)⟩) ∧
    Option.Rel (Run.Renumbered (movedNumber 1 1))
      (repeated (RuleTable.stepWith (Run.perform 0) ⟨[blankRule 0]⟩ 0 []) 5 (sessionOn [' ', 'b']))
      (repeated (RuleTable.stepWith (Run.perform 0) ⟨[blankRule 0, blankRule 1]⟩ 0 []) 5
        (sessionOn [' ', 'b'])) ∧
    ∃ rs u qs v,
      repeated (RuleTable.stepWith (Run.perform 0) ⟨[oneLetterRule 0]⟩ 0 []) 2
        (sessionOn ['a', ' ']) = some (rs, u) ∧
      repeated (RuleTable.stepWith (Run.perform 0) ⟨[oneLetterRule 0, blankRule 1]⟩ 0 []) 3
        (sessionOn ['a', ' ']) = some (qs, v) ∧
      Outcome.yielded rs = [(.text ['a'], ⟨⟨1, 1⟩, ⟨1, 1⟩, (0, 1)⟩)] ∧
      Outcome.yielded rs <+: Outcome.yielded qs := by
  have hword : (RuleTable.ofSource (.declarations (blanks ++ wordOrRefusal))).result =
      (.ok wordTable, []) := rfl
  have hletterWord :
      (RuleTable.ofSource (.declarations (blanks ++ oneLetter ++ wordOrRefusal))).result =
        (.ok letterWordTable, []) := rfl
  have hblanks : (RuleTable.ofSource (.declarations (blanks ++ []))).result =
      (.ok ⟨[blankRule 0]⟩, []) := rfl
  have hblanksTwice : (RuleTable.ofSource (.declarations (blanks ++ blanks ++ []))).result =
      (.ok ⟨[blankRule 0, blankRule 1]⟩, []) := rfl
  have hletter : (RuleTable.ofSource (.declarations (oneLetter ++ []))).result =
      (.ok ⟨[oneLetterRule 0]⟩, []) := rfl
  have hletterBlanks : (RuleTable.ofSource (.declarations (oneLetter ++ blanks ++ []))).result =
      (.ok ⟨[oneLetterRule 0, blankRule 1]⟩, []) := rfl
  have hrun : ∃ u, repeated (wordTable.stepWith (Run.perform 0) 0 []) 2 (sessionOn ['b', ' ', 'a', 'b']) =
      some ([.ok (.failed (.action 0 (.raised "ValueError" none) ⟨⟨1, 1⟩, ⟨1, 1⟩, (0, 1)⟩ 2 true)),
          .ok (.skipped ⟨⟨1, 2⟩, ⟨1, 2⟩, (1, 2)⟩)], u) ∧
        u.cursor 0 = (Cursor.ofText ['b', ' ', 'a', 'b']).move 2 := ⟨_, rfl, rfl⟩
  obtain ⟨u, hrun, hcursor⟩ := hrun
  have hnot : ∀ m < 2, ∀ rs u, repeated (wordTable.stepWith (Run.perform 0) 0 []) m
      (sessionOn ['b', ' ', 'a', 'b']) = some (rs, u) → ¬ letterWordTable.FirstIn 1 1 (u.cursor 0) := by
    intro m hm rs u hu
    obtain rfl | rfl : m = 0 ∨ m = 1 := by omega
    · cases hu
      decide
    · cases hu
      decide
  have hin : letterWordTable.FirstIn 1 1 (u.cursor 0) := by
    rw [hcursor]
    decide
  obtain ⟨huntil, -, -⟩ := insertion_matters_where_first hword hletterWord 0 0 [] (sessionOn _) 2
  obtain ⟨-, hat⟩ := huntil hnot
  obtain ⟨v, k, r, m, hv, hsame, hk, hr, hm, hfired⟩ := hat _ u hrun hin
  obtain rfl : k = 0 := Nat.lt_one_iff.mp hk
  cases hr
  rw [hsame, hcursor] at hm
  cases hm
  obtain ⟨-, hdead, -⟩ :=
    insertion_matters_where_first hblanks hblanksTwice 0 0 [] (sessionOn [' ', 'b']) 5
  obtain ⟨-, -, hbehind⟩ :=
    insertion_matters_where_first hletter hletterBlanks 0 0 [] (sessionOn ['a', ' ']) 2
  have hletterRun : ∃ rs w, repeated (RuleTable.stepWith (Run.perform 0) ⟨[oneLetterRule 0]⟩ 0 []) 2
      (sessionOn ['a', ' ']) = some (rs, w) ∧
        Outcome.yielded rs = [(.text ['a'], ⟨⟨1, 1⟩, ⟨1, 1⟩, (0, 1)⟩)] := ⟨_, _, rfl, rfl⟩
  have hboth : ∃ qs w, repeated (RuleTable.stepWith (Run.perform 0)
      ⟨[oneLetterRule 0, blankRule 1]⟩ 0 []) 3 (sessionOn ['a', ' ']) = some (qs, w) := ⟨_, _, rfl⟩
  refine ⟨⟨u, v, hrun, hv, hsame, by rw [hfired, hsame, hcursor]; rfl⟩, hdead ?_, ?_⟩
  · intro r hr text hmatch
    obtain rfl : r = blankRule 1 := List.mem_singleton.mp hr
    exact ⟨blankRule 0, List.mem_singleton_self _, hmatch⟩
  · obtain ⟨rs, w, hletterRun, hyielded⟩ := hletterRun
    obtain ⟨qs, w', hboth⟩ := hboth
    obtain ⟨k, _, hk, -, -, hprefix⟩ := hbehind rfl rs w hletterRun
    exact ⟨rs, w, qs, w', hletterRun, hboth, hyielded, hprefix 3 qs w' (by omega) hboth⟩

end FirstMatch
