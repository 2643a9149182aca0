import FirstMatch.Proofs.FirstMatches
import FirstMatch.Proofs.Renumbering
import FirstMatch.Proofs.Repetition

/-!
How the input is cut into matches. If the actions of a table leave its cursor alone, each step begins
where the match of the one before ended, whatever came of the action. So the matches are a function of
the patterns and the cursor: two tables with the same patterns make the same matches and end alike.
-/

namespace FirstMatch

open Session (entriesOn)
open Run (repeated)

/-- A rule with an idle action in place of its own. -/
def CompiledRule.bare (r : CompiledRule) : CompiledRule :=
  { r with action := .skip, shape := ⟨1, [], [], false⟩ }

theorem CompiledRule.trigger_bare (r : CompiledRule) : r.bare.trigger = r.trigger := rfl

/-- The pattern that a rule is declared with. -/
def Declaration.pattern? (d : Declaration) : Option Value := d.rule?.toOption.map (·.pattern)

/-- What makes a rule match depends on its pattern only. -/
theorem Rule.trigger_of_compile {dialect : Regex.Dialect} {r r' : Rule} {c c' : CompiledRule}
    {n m : Int} {before before' after after' : List EmptyMatch}
    (h : (r.compile n dialect).run.run before = (.ok c, after))
    (h' : (r'.compile m dialect).run.run before' = (.ok c', after')) (same : r.pattern = r'.pattern) :
    c.trigger = c'.trigger := by
  obtain ⟨_, -, h⟩ := Build.ofFlaw_bind_eq_ok h
  obtain ⟨t, between, ht, h⟩ := Build.bind_eq_ok h
  cases h
  obtain ⟨_, -, h'⟩ := Build.ofFlaw_bind_eq_ok h'
  obtain ⟨t', between', ht', h'⟩ := Build.bind_eq_ok h'
  cases h'
  obtain ⟨_, hagain⟩ := Rule.trigger_at ht m before'
  rw [same] at hagain
  exact Except.ok.inj (Prod.mk.inj (hagain.symm.trans ht')).1

/-- How an attempt ends in which no rule fires, as the result of the step. -/
def Attempt.ending? : Attempt → Option (Except Fault Outcome)
  | exhausted => some (.ok .exhausted)
  | unmatched character location =>
    some (.ok (.failed (.unmatched 0 (character.map ([·])) location)))
  | overrun o => some (.error (.overrun o))
  | tangled => some (.error .tangled)
  | fired .. => none

namespace Attempt

theorem entries_mapRule_bare (a : Attempt) (i : Nat) :
    (a.mapRule .bare).entries i = a.entries i := by
  cases a <;> rfl

theorem ending?_mapRule (a : Attempt) (g : CompiledRule → CompiledRule) :
    (a.mapRule g).ending? = a.ending? := by
  cases a <;> rfl

end Attempt

namespace Outcome

/-- How a step ends in which no rule fires, without the number of the error. -/
def ending? : Except Fault Outcome → Option (Except Fault Outcome)
  | .ok .exhausted => some (.ok .exhausted)
  | .ok (.failed (.unmatched _ character location)) =>
    some (.ok (.failed (.unmatched 0 character location)))
  | .error (.overrun o) => some (.error (.overrun o))
  | .error .tangled => some (.error .tangled)
  | _ => none

/-- A rule has fired and its action has raised an error, which ordinarily is reported. -/
def Raised : Except Fault Outcome → Prop
  | .ok (.failed (.action ..)) => True
  | .error f => f.isOrdinary = false
  | _ => False

theorem ending?_of_goesOn {o : Outcome} (h : o.GoesOn) : ending? (.ok o) = none := by
  cases o <;> first | rfl | exact h.elim

theorem ending?_of_raised {r : Except Fault Outcome} (h : Raised r) : ending? r = none := by
  cases r with
  | ok o =>
    cases o with
    | failed f => cases f <;> first | rfl | exact h.elim
    | _ => exact h.elim
  | error f => cases f <;> first | rfl | cases h

end Outcome

namespace RuleTable

/-- The patterns are the same, in the same order. -/
def SamePatterns (a b : RuleTable) : Prop := a.rules.map (·.trigger) = b.rules.map (·.trigger)

/-- The next attempts on a cursor that nothing else moves. -/
def attempts (t : RuleTable) : Nat → Cursor → List Attempt
  | 0, _ => []
  | n + 1, c => (t.attempt c).1 :: t.attempts n (t.attempt c).2

/-- The cursor after the next attempts. -/
def attempted (t : RuleTable) : Nat → Cursor → Cursor
  | 0, c => c
  | n + 1, c => t.attempted n (t.attempt c).2

/-- None of the actions that are called while the table is stepped touches its cursor. -/
def LeavesCursor (t : RuleTable) (perform : Performer) (i : Nat) (context : Arguments) (s : Session) :
    Prop :=
  ∀ n rs v, repeated (t.stepWith perform i context) n s = some (rs, v) → ∀ rule text span,
    (t.attempt (v.cursor i)).1 = .fired rule text span → ∀ r u,
    rule.invoke perform text i span context (v.tried t i) = some (r, u) →
      u.cursors[i]? = (v.tried t i).cursors[i]? ∧
      entriesOn i u.journal = entriesOn i (v.tried t i).journal

/-- Steps go on with some outcomes, and then come to one result more. -/
def RunsTo (t : RuleTable) (perform : Performer) (i : Nat) (context : Arguments) (os : List Outcome)
    (last : Except Fault Outcome) (s u : Session) : Prop :=
  repeated (t.stepWith perform i context) (os.length + 1) s = some (os.map .ok ++ [last], u) ∧
    ∀ o ∈ os, o.GoesOn

section

variable {dialect : Regex.Dialect} {ds es : List Declaration} {n m : Nat}
  {before before' after after' : List EmptyMatch} {rules rules' : List CompiledRule}

/-- Rules that are declared with the same patterns have the same triggers, whatever their actions. -/
theorem map_trigger_of_compileFrom
    (h : (compileFrom dialect n ds).run.run before = (.ok rules, after))
    (h' : (compileFrom dialect m es).run.run before' = (.ok rules', after'))
    (same : ds.map Declaration.pattern? = es.map Declaration.pattern?) :
    rules.map (·.trigger) = rules'.map (·.trigger) := by
  induction ds generalizing n m es before before' rules rules' with
  | nil =>
    obtain rfl := List.map_eq_nil_iff.mp same.symm
    cases h
    cases h'
    rfl
  | cons d ds ih =>
    obtain ⟨e, es, rfl, hpattern, hsame⟩ := List.map_eq_cons_iff.mp same.symm
    obtain ⟨rule, hrule, h⟩ := Build.ofFlaw_bind_eq_ok h
    obtain ⟨c, between, hc, h⟩ := Build.bind_eq_ok h
    obtain ⟨rest, _, hrest, h⟩ := Build.bind_eq_ok h
    cases h
    obtain ⟨rule', hrule', h'⟩ := Build.ofFlaw_bind_eq_ok h'
    obtain ⟨c', between', hc', h'⟩ := Build.bind_eq_ok h'
    obtain ⟨rest', _, hrest', h'⟩ := Build.bind_eq_ok h'
    cases h'
    have hsamePattern : rule'.pattern = rule.pattern := by
      rw [Declaration.pattern?, Declaration.pattern?, hrule, hrule'] at hpattern
      exact Option.some.inj hpattern
    rw [List.map_cons, List.map_cons, ih hrest hrest' hsame.symm,
      Rule.trigger_of_compile hc hc' hsamePattern.symm]

/-- Tables that are declared with the same patterns in the same order have the same patterns. -/
theorem samePatterns_of_declarations {a b : RuleTable} {wa wb : List EmptyMatch}
    (ha : (ofSource (.declarations ds) dialect).result = (.ok a, wa))
    (hb : (ofSource (.declarations es) dialect).result = (.ok b, wb))
    (same : ds.map Declaration.pattern? = es.map Declaration.pattern?) : a.SamePatterns b :=
  map_trigger_of_compileFrom (compileFrom_of_ofSource ha) (compileFrom_of_ofSource hb) same

end

section

variable {t : RuleTable} {c d : Cursor} {m n : Nat}

theorem attempts_add (t : RuleTable) (m n : Nat) (c : Cursor) :
    t.attempts (m + n) c = t.attempts m c ++ t.attempts n (t.attempted m c) := by
  induction m generalizing c with
  | zero => rw [Nat.zero_add]; rfl
  | succ m ih => rw [Nat.add_right_comm]; exact congrArg (List.cons _) (ih _)

theorem attempted_add (t : RuleTable) (m n : Nat) (c : Cursor) :
    t.attempted (m + n) c = t.attempted n (t.attempted m c) := by
  induction m generalizing c with
  | zero => rw [Nat.zero_add]; rfl
  | succ m ih => rw [Nat.add_right_comm]; exact ih _

theorem length_attempts (t : RuleTable) (n : Nat) (c : Cursor) : (t.attempts n c).length = n := by
  induction n generalizing c with
  | zero => rfl
  | succ n ih => exact congrArg Nat.succ (ih _)

theorem getElem?_attempts (t : RuleTable) (h : m < n) (c : Cursor) :
    (t.attempts n c)[m]? = some (t.attempt (t.attempted m c)).1 := by
  induction m generalizing n c with
  | zero =>
    obtain ⟨n, rfl⟩ := Nat.exists_eq_add_one.mpr h
    rfl
  | succ m ih =>
    obtain ⟨n, rfl⟩ := Nat.exists_eq_add_one.mpr (Nat.zero_lt_of_lt h)
    exact ih (Nat.lt_of_succ_lt_succ h) (t.attempt c).2

/-- More attempts make more matches at most. -/
theorem entries_attempts_prefix (t : RuleTable) (h : m ≤ n) (i : Nat) (c : Cursor) :
    (t.attempts m c).flatMap (Attempt.entries i) <+:
      (t.attempts n c).flatMap (Attempt.entries i) := by
  obtain ⟨k, rfl⟩ := Nat.exists_eq_add_of_le h
  rw [attempts_add, List.flatMap_append]
  exact List.prefix_append _ _

/-- The matches of attempts lead the cursor to where they end. -/
theorem moves_attempts (t : RuleTable) (i n : Nat) (c : Cursor) :
    c.Moves ((t.attempts n c).flatMap (Attempt.entries i)) (t.attempted n c) := by
  induction n generalizing c with
  | zero => exact .done c
  | succ n ih =>
    rcases t.attempt_cases c with ⟨rule, k, -, -, hk, ha⟩ | ⟨hnone, hd⟩
    · have hrest := ih (t.attempt c).2
      unfold attempts attempted
      rw [ha] at hrest ⊢
      exact .mark (.take k hk rfl rfl hrest)
    · unfold attempts attempted
      rw [List.flatMap_cons, Attempt.entries_eq_nil hnone, List.nil_append, hd]
      exact .mark (ih _)

theorem attempt_bare (t : RuleTable) (c : Cursor) :
    (⟨t.rules.map .bare⟩ : RuleTable).attempt c =
      ((t.attempt c).1.mapRule .bare, (t.attempt c).2) :=
  attempt_mapRule (firstMatch_map CompiledRule.trigger_bare t.rules c.markIfEmpty)

/-- Compiled tables with the same patterns differ in their actions only. -/
theorem SamePatterns.map_bare {a b : RuleTable} (same : a.SamePatterns b) (ha : a.Built)
    (hb : b.Built) : a.rules.map CompiledRule.bare = b.rules.map CompiledRule.bare := by
  refine List.ext_getElem? fun k => ?_
  have htriggers := congrArg (·[k]?) same
  simp only [List.getElem?_map] at htriggers ⊢
  cases hr : a.rules[k]? with
  | none =>
    rw [hr, Option.map_none] at htriggers
    rw [Option.map_eq_none_iff.mp htriggers.symm]
  | some r =>
    rw [hr, Option.map_some] at htriggers
    obtain ⟨q, hq, htrigger⟩ := Option.map_eq_some_iff.mp htriggers.symm
    rw [hq, Option.map_some, Option.map_some, CompiledRule.bare, CompiledRule.bare, htrigger,
      ha.priority hr, hb.priority hq]

/-- So they are tried alike. -/
theorem SamePatterns.attempt {a b : RuleTable} (same : a.SamePatterns b) (ha : a.Built)
    (hb : b.Built) (c : Cursor) :
    (a.attempt c).1.mapRule .bare = (b.attempt c).1.mapRule .bare ∧
      (a.attempt c).2 = (b.attempt c).2 := by
  have hbare := a.attempt_bare c
  rw [same.map_bare ha hb, b.attempt_bare c] at hbare
  obtain ⟨hattempt, hcursor⟩ := Prod.mk.inj hbare
  exact ⟨hattempt.symm, hcursor.symm⟩

/-- The attempts of two such tables make the same matches and leave the cursor alike. -/
theorem SamePatterns.attempts {a b : RuleTable} (same : a.SamePatterns b) (ha : a.Built)
    (hb : b.Built) (i n : Nat) (c : Cursor) :
    (b.attempts n c).flatMap (Attempt.entries i) = (a.attempts n c).flatMap (Attempt.entries i) ∧
      b.attempted n c = a.attempted n c := by
  induction n generalizing c with
  | zero => exact ⟨rfl, rfl⟩
  | succ n ih =>
    obtain ⟨hattempt, hcursor⟩ := same.attempt ha hb c
    have hentries := congrArg (Attempt.entries i) hattempt
    rw [Attempt.entries_mapRule_bare, Attempt.entries_mapRule_bare] at hentries
    obtain ⟨hrest, hlast⟩ := ih (b.attempt c).2
    unfold RuleTable.attempts attempted
    rw [List.flatMap_cons, List.flatMap_cons, hrest, hlast, hentries, hcursor]
    exact ⟨rfl, rfl⟩

/-- And they end alike. -/
theorem SamePatterns.ending? {a b : RuleTable} (same : a.SamePatterns b) (ha : a.Built)
    (hb : b.Built) (n : Nat) (c : Cursor) : (b.attempt (b.attempted n c)).1.ending? =
      (a.attempt (a.attempted n c)).1.ending? := by
  obtain ⟨-, hcursor⟩ := same.attempts ha hb 0 n c
  have hending := congrArg Attempt.ending? (same.attempt ha hb (a.attempted n c)).1
  rw [Attempt.ending?_mapRule, Attempt.ending?_mapRule] at hending
  rw [hcursor, hending]

end

section

variable {t : RuleTable} {perform : Performer} {i n : Nat} {context : Arguments} {s u : Session}
  {c : Cursor}

namespace LeavesCursor

/-- Actions that leave the session as it is leave the cursor alone. -/
theorem of_idle (h : ∀ rule ∈ t.rules, ∀ text span s r u,
    rule.invoke perform text i span context s = some (r, u) → u = s) :
    t.LeavesCursor perform i context s := by
  intro n rs v _ rule text span hfired r u hcall
  obtain rfl := h rule (mem_of_fired hfired) _ _ _ _ _ hcall
  exact ⟨rfl, rfl⟩

theorem step (h : t.LeavesCursor perform i context s) {r : Except Fault Outcome}
    (hstep : t.stepWith perform i context s = some (r, u)) : t.LeavesCursor perform i context u := by
  intro n rs v hrun
  refine h (n + 1) (r :: rs) v ?_
  rw [Run.repeated_succ_of_some hstep, hrun]
  rfl

/-- A step makes the attempt at its cursor, whatever comes of the action. -/
theorem eq_attempt_of_stepWith (h : t.LeavesCursor perform i context s) (hc : s.cursors[i]? = some c)
    {r : Except Fault Outcome} (hstep : t.stepWith perform i context s = some (r, u)) :
    u.cursors[i]? = some (t.attempt c).2 ∧
      entriesOn i u.journal = entriesOn i s.journal ++ (t.attempt c).1.entries i ∧
      Outcome.ending? r = (t.attempt c).1.ending? := by
  have hcursor := Session.cursor_of_getElem? hc
  obtain ⟨htried, -, -, -⟩ := Session.tried_eq t hc
  have hentries := Session.entriesOn_tried_self s t i
  have hcalls := h 0 [] s rfl
  rw [hcursor] at hentries hcalls
  rw [stepWith_apply, hcursor] at hstep
  split at hstep
  · next hattempt =>
    cases hstep
    exact ⟨htried, hentries, by rw [hattempt]; rfl⟩
  · next hattempt =>
    cases hstep
    exact ⟨htried, hentries, by rw [hattempt]; rfl⟩
  · next hattempt =>
    cases hstep
    exact ⟨htried, hentries, by rw [hattempt]; rfl⟩
  · next hattempt =>
    cases hstep
    exact ⟨htried, hentries, by rw [hattempt]; rfl⟩
  · next rule text span hattempt =>
    rw [hattempt] at hentries ⊢
    have left {q : Except Fault Value} {v : Session}
        (hcall : rule.invoke perform text i span context (s.tried t i) = some (q, v)) :
        v.cursors[i]? = some (t.attempt c).2 ∧ entriesOn i v.journal =
          entriesOn i s.journal ++ (Attempt.fired rule text span).entries i := by
      obtain ⟨hsame, hjournal⟩ := hcalls rule text span hattempt q v hcall
      exact ⟨hsame.trans htried, hjournal.trans hentries⟩
    split at hstep
    · cases hstep
    · next v _ hcall =>
      cases hstep
      exact ⟨(left hcall).1, (left hcall).2, by cases v <;> rfl⟩
    · next f v hcall =>
      split at hstep
      · cases hstep
        exact ⟨(left hcall).1, (left hcall).2, rfl⟩
      · next hf =>
        cases hstep
        exact ⟨(left hcall).1, (left hcall).2,
          Outcome.ending?_of_raised (Bool.eq_false_iff.mpr hf)⟩

/-- So steps make the attempts one after the other. -/
theorem cuts (h : t.LeavesCursor perform i context s) (hc : s.cursors[i]? = some c)
    {rs : List (Except Fault Outcome)}
    (hrun : repeated (t.stepWith perform i context) n s = some (rs, u)) :
    u.cursors[i]? = some (t.attempted n c) ∧
      entriesOn i u.journal =
        entriesOn i s.journal ++ (t.attempts n c).flatMap (Attempt.entries i) ∧
      rs.map Outcome.ending? = (t.attempts n c).map Attempt.ending? := by
  induction n generalizing s c rs with
  | zero =>
    cases hrun
    exact ⟨hc, (List.append_nil _).symm, rfl⟩
  | succ n ih =>
    obtain ⟨r, v, qs, hstep, hrest, rfl⟩ := Run.repeated_succ_eq_some hrun
    obtain ⟨hcursor, hentries, hending⟩ := h.eq_attempt_of_stepWith hc hstep
    obtain ⟨hcursor', hentries', hendings⟩ := ih (h.step hstep) hcursor hrest
    refine ⟨hcursor', ?_, ?_⟩
    · rw [hentries', hentries, List.append_assoc]
      rfl
    · rw [List.map_cons, hending, hendings]
      rfl

end LeavesCursor

/-- Where steps go on a rule has fired, and where they stop they end as the attempt there does. -/
theorem LeavesCursor.endings (h : t.LeavesCursor perform i context s) (hc : s.cursors[i]? = some c)
    {os : List Outcome} {last : Except Fault Outcome}
    (hrun : t.RunsTo perform i context os last s u) :
    (∀ a ∈ t.attempts os.length c, a.ending? = none) ∧
      (t.attempt (t.attempted os.length c)).1.ending? = Outcome.ending? last := by
  obtain ⟨hsteps, hos⟩ := hrun
  obtain ⟨-, -, hendings⟩ := h.cuts hc hsteps
  rw [attempts_add, List.map_append, List.map_append] at hendings
  obtain ⟨hon, hlast⟩ := List.append_inj hendings (by simp [length_attempts])
  refine ⟨fun a ha => ?_, (List.cons.inj hlast).1.symm⟩
  have hmem : a.ending? ∈ (os.map Except.ok).map Outcome.ending? :=
    hon ▸ List.mem_map_of_mem ha
  obtain ⟨r, hr, hending⟩ := List.mem_map.mp hmem
  obtain ⟨o, ho, rfl⟩ := List.mem_map.mp hr
  rw [← hending, Outcome.ending?_of_goesOn (hos o ho)]

/-- Rules fire no longer than up to an attempt in which none does. -/
theorem le_of_ending {m : Nat} (h : ∀ a ∈ t.attempts m c, a.ending? = none)
    (hended : (t.attempt (t.attempted n c)).1.ending?.isSome) : m ≤ n := by
  by_contra hlt
  have hmem := List.mem_of_getElem? (t.getElem?_attempts (Nat.lt_of_not_le hlt) c)
  rw [h _ hmem] at hended
  cases hended

/-- Attempts in which a rule fires leave an entry each. -/
theorem length_entries_of_fired {as : List Attempt} (h : ∀ a ∈ as, a.ending? = none) (i : Nat) :
    (as.flatMap (Attempt.entries i)).length = as.length := by
  induction as with
  | nil => rfl
  | cons a as ih =>
    obtain ⟨ha, has⟩ := List.forall_mem_cons.mp h
    cases a with
    | fired rule text span => exact congrArg Nat.succ (ih has)
    | _ => cases ha

theorem mem_attempts {a : Attempt} (h : a ∈ t.attempts n c) : ∃ d, a = (t.attempt d).1 := by
  induction n generalizing c with
  | zero => cases h
  | succ n ih =>
    rcases List.mem_cons.mp h with rfl | h
    · exact ⟨c, rfl⟩
    · exact ih h

/-- Each entry is about the rule with its index. -/
theorem Built.rule_of_entry (hbuilt : t.Built) {e : Entry}
    (he : e ∈ (t.attempts n c).flatMap (Attempt.entries i)) :
    ∃ (k : Nat) (rule : CompiledRule), t.rules[k]? = some rule ∧
      e.consumer = .rule rule.kind k := by
  obtain ⟨a, ha, he⟩ := List.mem_flatMap.mp he
  obtain ⟨d, rfl⟩ := mem_attempts ha
  cases hattempt : (t.attempt d).1 with
  | fired rule text span =>
    rw [hattempt] at he
    obtain rfl := List.mem_singleton.mp he
    obtain ⟨k, hk⟩ := List.getElem?_of_mem (mem_of_fired hattempt)
    exact ⟨k, rule, hk, by rw [hbuilt.priority hk]⟩
  | _ =>
    rw [hattempt] at he
    cases he

/-- The last of some matches, after which the cursor stands right behind it. -/
theorem attempts_succ_of_fired {rule : CompiledRule} {text : List Char} {span : Span}
    (h : (t.attempt (t.attempted n c)).1 = .fired rule text span) :
    ∃ before e d m, (t.attempts (n + 1) c).flatMap (Attempt.entries i) = before ++ [e] ∧
      c.Moves before d ∧ e.text = d.ahead.take m ∧ e.span = d.spanOf m ∧
      t.attempted (n + 1) c = d.markIfEmpty.move m := by
  obtain ⟨m, -, -, -, htext, hspan, hcursor⟩ := of_fired h
  refine ⟨_, ⟨i, .rule rule.kind rule.priority, text, span⟩, t.attempted n c, m, ?_,
    t.moves_attempts i n c, htext, hspan, ?_⟩
  · rw [attempts_add, List.flatMap_append]
    simp [attempts, h, Attempt.entries]
  · rw [attempted_add]
    exact hcursor

end

end RuleTable

/-- How the input is cut into matches depends on the patterns only. Of two tables with the same ones,
whose actions leave the cursor alone, runs from the same cursor with any lexer arguments make the same
matches as far as both go, and where no rule fires they end alike. If an action raises an error, the
matches up to that of its rule have been made, and the cursor stands right behind it. -/
theorem cuts_depend_on_patterns {a b : RuleTable} (ha : a.Built) (hb : b.Built)
    (same : a.SamePatterns b) {i depth depth' : Nat} {context context' : Arguments}
    {s s' u u' : Session} {c : Cursor} (hc : s.cursors[i]? = some c) (hc' : s'.cursors[i]? = some c)
    (apart : a.LeavesCursor (Run.perform depth) i context s)
    (apart' : b.LeavesCursor (Run.perform depth') i context' s')
    {os os' : List Outcome} {last last' : Except Fault Outcome}
    (hrun : a.RunsTo (Run.perform depth) i context os last s u)
    (hrun' : b.RunsTo (Run.perform depth') i context' os' last' s' u') :
    ∃ es es', entriesOn i u.journal = entriesOn i s.journal ++ es ∧
      entriesOn i u'.journal = entriesOn i s'.journal ++ es' ∧
      (∀ e ∈ es, ∃ (k : Nat) (rule : CompiledRule), a.rules[k]? = some rule ∧
        e.consumer = .rule rule.kind k) ∧
      (os.length ≤ os'.length → es <+: es') ∧
      ((Outcome.ending? last').isSome → es <+: es') ∧
      ((Outcome.ending? last).isSome → (Outcome.ending? last').isSome →
        es = es' ∧ Outcome.ending? last = Outcome.ending? last' ∧ u.cursor i = u'.cursor i) ∧
      (Outcome.Raised last → es.length = os.length + 1 ∧
        ∃ before e d n, es = before ++ [e] ∧ c.Moves before d ∧ e.text = d.ahead.take n ∧
          e.span = d.spanOf n ∧ u.cursor i = d.markIfEmpty.move n) := by
  obtain ⟨hcursor, hentries, -⟩ := apart.cuts hc hrun.1
  obtain ⟨hcursor', hentries', -⟩ := apart'.cuts hc' hrun'.1
  obtain ⟨hon, hlast⟩ := apart.endings hc hrun
  obtain ⟨hon', hlast'⟩ := apart'.endings hc' hrun'
  obtain ⟨hsame, hsameCursor⟩ := same.attempts ha hb i (os'.length + 1) c
  rw [hsame] at hentries'
  rw [hsameCursor] at hcursor'
  have hlength (h : (Outcome.ending? last').isSome) : os.length ≤ os'.length := by
    refine RuleTable.le_of_ending hon ?_
    rwa [← same.ending? ha hb, hlast']
  refine ⟨_, _, hentries, hentries', fun e he => ha.rule_of_entry he, fun hle => ?_, fun h => ?_,
    fun h h' => ?_, fun h => ?_⟩
  · exact a.entries_attempts_prefix (Nat.succ_le_succ hle) i c
  · exact a.entries_attempts_prefix (Nat.succ_le_succ (hlength h)) i c
  · have hlength' : os'.length ≤ os.length := by
      refine RuleTable.le_of_ending hon' ?_
      rwa [same.ending? ha hb, hlast]
    have heq : os.length = os'.length := Nat.le_antisymm (hlength h') hlength'
    rw [Session.cursor_of_getElem? hcursor, Session.cursor_of_getElem? hcursor', ← hlast, ← hlast',
      same.ending? ha hb, heq]
    exact ⟨rfl, rfl, rfl⟩
  · have hending := Outcome.ending?_of_raised h
    rw [← hlast] at hending
    cases hattempt : (a.attempt (a.attempted os.length c)).1 with
    | fired rule text span =>
      refine ⟨?_, ?_⟩
      · rw [RuleTable.attempts_add, List.flatMap_append, List.length_append,
          RuleTable.length_entries_of_fired hon, RuleTable.length_attempts]
        simp [RuleTable.attempts, hattempt, Attempt.entries]
      · rw [Session.cursor_of_getElem? hcursor]
        exact RuleTable.attempts_succ_of_fired hattempt
    | _ =>
      rw [hattempt] at hending
      cases hending

/-- A letter and any other character, with actions for them. -/
def letterOrOther (letter other : Action) : List Declaration := [
  .rule (.text ['a']) (.action letter), .rule (.kind .wildcard) (.action other)]

def letterOrOtherTable (letter other : Action) : RuleTable := ⟨[
  ⟨0, .regex .pattern ['a'] ⟨.char 97 .exact, 1⟩, letter, ⟨1, [], [], false⟩⟩,
  ⟨1, .wildcard, other, ⟨1, [], [], false⟩⟩]⟩

def refuse : Action := plainAction "refuse" fun _ => .fail (.raised "ValueError" none)

def letterOrOtherSession : Session := { Session.empty with cursors := #[.ofText ['a', 'b']] }

/-- One table keeps the letter and refuses all else, with an error at the second match. The other one
skips the letter, keeps all else, and reads to the end. The matches up to the error are the same. -/
theorem cuts_depend_on_patterns_letters :
    ∃ os u os' u' es es',
      (letterOrOtherTable .string refuse).RunsTo (Run.perform 0) 0 [] os
        (.ok (.failed (.action 0 (.raised "ValueError" none) ⟨⟨1, 2⟩, ⟨1, 2⟩, (1, 2)⟩ 1 true)))
        letterOrOtherSession u ∧
      (letterOrOtherTable .skip .string).RunsTo (Run.perform 0) 0 [("deep", .bool true)] os'
        (.ok .exhausted) letterOrOtherSession u' ∧
      entriesOn 0 u.journal = es ∧ entriesOn 0 u'.journal = es' ∧ es <+: es' ∧ es.length = 2 ∧
      ∃ before e d n, es = before ++ [e] ∧ (Cursor.ofText ['a', 'b']).Moves before d ∧
        e.text = d.ahead.take n ∧ e.span = d.spanOf n ∧ u.cursor 0 = d.markIfEmpty.move n := by
  have ha : (RuleTable.ofSource (.declarations (letterOrOther .string refuse))).result =
      (.ok (letterOrOtherTable .string refuse), []) := rfl
  have hb : (RuleTable.ofSource (.declarations (letterOrOther .skip .string))).result =
      (.ok (letterOrOtherTable .skip .string), []) := rfl
  have same := RuleTable.samePatterns_of_declarations ha hb rfl
  have apart : (letterOrOtherTable .string refuse).LeavesCursor (Run.perform 0) 0 []
      letterOrOtherSession := by
    refine .of_idle fun rule hrule text span s r u hcall => ?_
    simp only [letterOrOtherTable, List.mem_cons, List.not_mem_nil, or_false] at hrule
    rcases hrule with rfl | rfl <;> cases hcall <;> rfl
  have apart' : (letterOrOtherTable .skip .string).LeavesCursor (Run.perform 0) 0
      [("deep", .bool true)] letterOrOtherSession := by
    refine .of_idle fun rule hrule text span s r u hcall => ?_
    simp only [letterOrOtherTable, List.mem_cons, List.not_mem_nil, or_false] at hrule
    rcases hrule with rfl | rfl <;> cases hcall <;> rfl
  have hrun : ∃ u, (letterOrOtherTable .string refuse).RunsTo (Run.perform 0) 0 []
      [.emitted (.text ['a']) ⟨⟨1, 1⟩, ⟨1, 1⟩, (0, 1)⟩]
      (.ok (.failed (.action 0 (.raised "ValueError" none) ⟨⟨1, 2⟩, ⟨1, 2⟩, (1, 2)⟩ 1 true)))
      letterOrOtherSession u := ⟨_, rfl, by simp [Outcome.GoesOn]⟩
  have hrun' : ∃ u, (letterOrOtherTable .skip .string).RunsTo (Run.perform 0) 0
      [("deep", .bool true)]
      [.skipped ⟨⟨1, 1⟩, ⟨1, 1⟩, (0, 1)⟩, .emitted (.text ['b']) ⟨⟨1, 2⟩, ⟨1, 2⟩, (1, 2)⟩]
      (.ok .exhausted) letterOrOtherSession u := ⟨_, rfl, by simp [Outcome.GoesOn]⟩
  obtain ⟨u, hrun⟩ := hrun
  obtain ⟨u', hrun'⟩ := hrun'
  obtain ⟨es, es', hes, hes', -, -, hprefix, -, hraised⟩ :=
    cuts_depend_on_patterns ⟨_, _, _, ha⟩ ⟨_, _, _, hb⟩ same (c := .ofText ['a', 'b']) rfl rfl apart
      apart' hrun hrun'
  obtain ⟨hlength, hlast⟩ := hraised trivial
  exact ⟨_, u, _, u', es, es', hrun, hrun', hes, hes', hprefix rfl, hlength, hlast⟩

end FirstMatch
