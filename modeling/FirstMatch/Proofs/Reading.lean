import FirstMatch.Proofs.Compilation
import FirstMatch.Proofs.History

/-!
Readings: what a lexer makes of a text, told by recursion on what remains of it, without a cursor, a
stream or a session. Collecting the tokens of a stream comes to the same, if the actions are functions
of what was matched.
-/

namespace FirstMatch

/-- What actions make of a match: a value, or the error that they raise. -/
abbrev Act := CompiledRule → List Char → Span → Except Fault Value

/-- How a reading ends. It is tangled when the pattern engine itself raises an error instead of a match,
which it may do when the start of a group comes to lie behind its end. -/
inductive Ending
  | complete
  | unmatched (character : Char) (location : Span)
  | failed (cause : Fault) (location : Span) (rule : Nat)
  | tangled

/-- The tokens with their spans, how it ended, and where: the place and what was not consumed. -/
structure Reading where
  tokens : List (Value × Span)
  ending : Ending
  place : Place
  rest : List Char

/-- A reading after the result of one more action, which is dropped if it is `skip`. -/
def Reading.emit (v : Value) (span : Span) (w : Reading) : Reading :=
  match v with
  | .skip => w
  | token => { w with tokens := (token, span) :: w.tokens }

namespace RuleTable

/-- The least index of a rule that matches at the start of a text, with the rule and its match. A rule
for the end matches the empty text. -/
def leading (t : RuleTable) (text : List Char) : Option (Nat × CompiledRule × Regex.Match) :=
  t.rules.zipIdx.findSome? fun e =>
    (e.1.trigger.matchAt text.isEmpty text).map fun m => (e.2, e.1, m)

/-- Reads a text from a place on. -/
def reading (t : RuleTable) (act : Act) (p : Place) : List Char → Reading
  | [] =>
    match t.leading [] with
    | none => ⟨[], .complete, p, []⟩
    | some (_, _, .tangled) => ⟨[], .tangled, p, []⟩
    | some (i, r, .length _) =>
      match act r [] p.spot with
      | .ok v => .emit v p.spot ⟨[], .complete, p, []⟩
      | .error cause => ⟨[], .failed cause p.spot i, p, []⟩
  | c :: cs =>
    match t.leading (c :: cs) with
    | none => ⟨[], .unmatched c p.spot, p, c :: cs⟩
    | some (_, _, .tangled) => ⟨[], .tangled, p, c :: cs⟩
    | some (i, r, .length n) =>
      let taken := (c :: cs).take n
      let span := .between p (p.last taken) (p.after taken)
      match act r taken span with
      | .ok v => .emit v span (reading t act (p.after taken) (cs.drop (n - 1)))
      | .error cause => ⟨[], .failed cause span i, p.after taken, (c :: cs).drop n⟩
termination_by text => text.length
decreasing_by
  simp only [List.length_drop, List.length_cons]
  omega

/-- No pattern matches without characters unless the text is empty. -/
def Consumes (t : RuleTable) : Prop :=
  ∀ r ∈ t.rules, ∀ source program, r.trigger = .regex .pattern source program →
    ∀ c cs, program.run (c :: cs) ≠ some (.length 0)

end RuleTable

/-- What an action leaves as it is if it does not touch a cursor and a stream. -/
structure Session.Untouched (cursor stream : Nat) (s t : Session) : Prop where
  cursor_eq : t.cursors[cursor]? = s.cursors[cursor]?
  stream_eq : t.streams[stream]? = s.streams[stream]?
  lexers_eq : t.lexers = s.lexers
  engines_eq : t.engines = s.engines

/-- The actions of a table are functions of the match, for the given lexer arguments: each call ends
with what the function says, whatever else has happened in the session, and touches neither the
cursor nor the stream. The errors that they raise are ordinary ones. -/
structure RuleTable.Computes (t : RuleTable) (perform : Performer) (cursor stream : Nat)
    (context : Arguments) (s₀ : Session) (act : Act) : Prop where
  call : ∀ r ∈ t.rules, ∀ text span s, s.lexers = s₀.lexers → s.engines = s₀.engines →
    ∃ u, r.invoke perform text cursor span context s = some (act r text span, u) ∧
      s.Untouched cursor stream u
  ordinary : ∀ r ∈ t.rules, ∀ text span f, act r text span = .error f → f.isOrdinary = true

/-- The error that an ending comes with. Which serial number it has is left open. -/
def Ending.Raises : Ending → Option Fault → Prop
  | complete, f => f = none
  | unmatched character location, f => ∃ n, f = some (.unmatched n (some [character]) location)
  | failed cause location rule, f => ∃ n, f = some (.action n cause location rule true)
  | tangled, f => f = some .tangled

/-- A result, or the error that there is instead. -/
def Fault.unless {α : Type} (f : Option Fault) (a : α) : Except Fault α :=
  match f with
  | none => .ok a
  | some f => .error f

/-- What a reading says about the session after it: the cursor is where the reading ended, and the
stream remembers the end or the error. -/
structure Reading.Leaves (w : Reading) (cursor stream : Nat) (f : Option Fault) (u : Session) :
    Prop where
  place_eq : (u.cursor cursor).place = w.place
  ahead_eq : (u.cursor cursor).ahead = w.rest
  exhausted : f = none → (u.cursor cursor).exhausted = true
  recorded : ∃ a, u.stream? stream = some a ∧ a.done = f.isNone ∧
    a.error = if f = some .tangled then none else f

namespace Reading

@[simp] theorem emit_skip (span : Span) (w : Reading) : w.emit .skip span = w := rfl

theorem emit_of_ne {v : Value} (h : v ≠ .skip) (span : Span) (w : Reading) :
    w.emit v span = { w with tokens := (v, span) :: w.tokens } := by
  unfold emit
  split
  · exact absurd rfl h
  · rfl

end Reading

theorem Outcome.ofResult_of_ne {v : Value} (h : v ≠ .skip) (span : Span) :
    Outcome.ofResult v span = .emitted v span := by
  unfold Outcome.ofResult
  split
  · exact absurd rfl h
  · rfl

namespace RuleTable

/-- Trying the rules at a cursor at which nothing is left just if it is marked as exhausted. -/
theorem firstMatch_eq_leading (t : RuleTable) {c : Cursor} (hc : c.exhausted = c.ahead.isEmpty) :
    firstMatch t.rules c = (t.leading c.ahead).map (·.2) := by
  unfold leading
  suffices h : ∀ (rules : List CompiledRule) (k : Nat), firstMatch rules c =
      ((rules.zipIdx k).findSome? fun e =>
        (e.1.trigger.matchAt c.ahead.isEmpty c.ahead).map fun m => (e.2, e.1, m)).map (·.2) from
    h t.rules 0
  intro rules
  induction rules with
  | nil =>
    intro k
    rfl
  | cons r rs ih =>
    intro k
    unfold firstMatch CompiledRule.matchAt
    rw [hc, List.zipIdx_cons, List.findSome?_cons, Option.getD_some]
    cases hm : r.trigger.matchAt c.ahead.isEmpty c.ahead with
    | none =>
      rw [Option.map_none]
      exact ih (k + 1)
    | some m => rfl

theorem mem_of_leading {t : RuleTable} {text : List Char} {i : Nat} {r : CompiledRule}
    {m : Regex.Match} (h : t.leading text = some (i, r, m)) :
    t.rules[i]? = some r ∧ r.trigger.matchAt text.isEmpty text = some m := by
  obtain ⟨⟨r', i'⟩, hmem, hm⟩ := List.exists_of_findSome?_eq_some h
  obtain ⟨m', hm', heq⟩ := Option.map_eq_some_iff.mp hm
  cases heq
  exact ⟨List.mk_mem_zipIdx_iff_getElem?.mp hmem, hm'⟩

/-- Every match of a rule takes a character as long as there is one. -/
theorem Built.length_pos {t : RuleTable} (h : t.Built) (hconsumes : t.Consumes) {text : List Char}
    {i n : Nat} {r : CompiledRule} (hlead : t.leading text = some (i, r, .length n))
    (hne : text ≠ []) : 0 < n := by
  obtain ⟨hrule, hmatch⟩ := mem_of_leading hlead
  have hmem := List.mem_of_getElem? hrule
  obtain ⟨c, cs, rfl⟩ := List.exists_cons_of_ne_nil hne
  refine Nat.pos_of_ne_zero fun hn => ?_
  subst hn
  have hdeclared := h.declared hmem
  generalize htrigger : r.trigger = trigger at hdeclared hmatch
  cases hdeclared with
  | eof => cases hmatch
  | wildcard => exact Trigger.run_single_ne_zero (fun _ _ _ => rfl) 1 (c :: cs) hmatch
  | whitespace => exact Trigger.run_single_ne_zero (fun _ _ _ => rfl) 1 (c :: cs) hmatch
  | pattern source program => exact hconsumes r hmem source program htrigger c cs hmatch

/-- What trying the rules at a cursor comes to. -/
theorem attempt_eq (t : RuleTable) {c : Cursor} (hc : c.exhausted = false) :
    t.attempt c = match t.leading c.ahead, c.ahead with
      | none, [] => (.exhausted, c.markIfEmpty)
      | none, x :: _ => (.unmatched (some x) c.location, c.markIfEmpty)
      | some (_, _, .tangled), _ => (.tangled, c.markIfEmpty)
      | some (_, r, .length n), _ =>
        (.fired r (c.ahead.take n) (c.spanOf n), c.markIfEmpty.move n) := by
  have hmark : c.markIfEmpty.exhausted = c.markIfEmpty.ahead.isEmpty := by
    change (c.exhausted || c.ahead.isEmpty) = c.ahead.isEmpty
    rw [hc, Bool.false_or]
  have hfirst := t.firstMatch_eq_leading hmark
  change _ = (t.leading c.ahead).map (·.2) at hfirst
  cases hlead : t.leading c.ahead with
  | none =>
    rw [hlead] at hfirst
    unfold attempt
    simp only [hc, Bool.false_eq_true, ↓reduceIte, hfirst, Option.map_none, hmark]
    change (if c.ahead.isEmpty = true then _ else (Attempt.unmatched c.ahead.head? c.location, _)) = _
    cases c.ahead <;> rfl
  | some found =>
    obtain ⟨i, r, m⟩ := found
    rw [hlead] at hfirst
    cases m with
    | tangled =>
      unfold attempt
      simp only [hc, Bool.false_eq_true, ↓reduceIte, hfirst, Option.map_some]
    | length n =>
      have hn := Trigger.length_le_of_matchAt (mem_of_leading hlead).2
      have hadv := Cursor.advance_of_le (c := c.markIfEmpty) hn
      unfold attempt
      simp only [hc, Bool.false_eq_true, ↓reduceIte, hfirst, Option.map_some, hadv]
      rfl

/-- The rules of a table are the ones that fire. -/
theorem mem_of_fired {t : RuleTable} {c : Cursor} {r : CompiledRule} {text : List Char}
    {span : Span} (h : (t.attempt c).1 = .fired r text span) : r ∈ t.rules := by
  cases hex : c.exhausted with
  | true =>
    rw [attempt, if_pos hex] at h
    cases h
  | false =>
    rw [t.attempt_eq hex] at h
    cases hlead : t.leading c.ahead with
    | none =>
      rw [hlead] at h
      cases ha : c.ahead <;> rw [ha] at h <;> cases h
    | some found =>
      obtain ⟨k, rule, m⟩ := found
      rw [hlead] at h
      cases m with
      | tangled => cases h
      | length n =>
        cases h
        exact List.mem_of_getElem? (mem_of_leading hlead).1

end RuleTable

end FirstMatch
