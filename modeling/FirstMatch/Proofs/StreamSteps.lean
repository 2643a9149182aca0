import FirstMatch.Proofs.EndOfStream
import FirstMatch.Proofs.Repetition

/-!
Steps of a stream, one after the other. A stream that has failed or ended answers every step alike and
leaves the session as it is; any other one takes a step of its table and records its end or failure.
Asking for a token takes steps up to the first one that is not skipped.
-/

namespace FirstMatch

/-- What asking for a token comes to at an outcome; after a match that is skipped, the next step is
taken. -/
def Outcome.reply? : Outcome → Option (Except Fault (Option (Value × Span)))
  | emitted token span => some (.ok (some (token, span)))
  | skipped _ => none
  | exhausted => some (.ok none)
  | failed f => some (.error f)

/-- What asking for a token comes to at the result of a step. An error that is raised through the step is
raised again. -/
def Outcome.replied? : Except Fault Outcome → Option (Except Fault (Option (Value × Span)))
  | .error f => some (.error f)
  | .ok o => o.reply?

namespace Outcome

variable {last : Except Fault Outcome}

theorem eq_emitted_of_replied {token : Value} {span : Span}
    (h : replied? last = some (.ok (some (token, span)))) : last = .ok (.emitted token span) := by
  rcases last with f | o
  · cases h
  · cases o <;> cases h
    rfl

theorem eq_exhausted_of_replied (h : replied? last = some (.ok none)) : last = .ok .exhausted := by
  rcases last with f | o
  · cases h
  · cases o <;> cases h
    rfl

end Outcome

/-- The results of steps whose matches are skipped. -/
def Outcome.skips (spans : List Span) : List (Except Fault Outcome) :=
  spans.map fun span => .ok (.skipped span)

/-- What a stream answers that has failed or ended. -/
def Stream.answer? (a : Stream) : Option Outcome :=
  match a.error, a.done with
  | some f, _ => some (.failed f)
  | none, true => some .exhausted
  | none, false => none

/-- A stream goes on as long as it has neither failed nor ended. -/
theorem Stream.answer?_eq_none {a : Stream} : a.answer? = none ↔ a.error = none ∧ a.done = false := by
  unfold answer?
  cases a.error with
  | some f => simp
  | none => cases a.done <;> simp

/-- The session after an outcome has been recorded in a stream. -/
def Session.recorded (s : Session) (j : Nat) (a : Stream) : Outcome → Session
  | .failed f => s.setStream j { a with error := some f }
  | .exhausted => s.setStream j { a with done := true }
  | _ => s

theorem Session.stream?_tried (s : Session) (table : RuleTable) (i j : Nat) :
    (s.tried table i).stream? j = s.stream? j := by
  simp [stream?]

namespace Run

/-- What the next steps of a stream come to, and the session after them. -/
def results (perform : Performer) (j : Nat) :
    Nat → Session → Option (List (Except Fault Outcome) × Session)
  | 0, s => some ([], s)
  | n + 1, s =>
    match streamStepWith perform j s with
    | none => none
    | some (r, t) => (results perform j n t).map fun p => (r :: p.1, p.2)

variable {perform : Performer} {j : Nat} {s t u : Session} {a b : Stream} {o : Outcome}

theorem results_eq_repeated (perform : Performer) (j n : Nat) :
    results perform j n = repeated (streamStepWith perform j) n := by
  induction n with
  | zero => rfl
  | succ n ih =>
    funext s
    rw [results, repeated, ih]
    cases streamStepWith perform j s <;> rfl

theorem results_succ_of_some {n : Nat} {r : Except Fault Outcome}
    (h : streamStepWith perform j s = some (r, t)) :
    results perform j (n + 1) s = (results perform j n t).map fun p => (r :: p.1, p.2) := by
  rw [results_eq_repeated, results_eq_repeated, repeated_succ_of_some h]

/-- The first step and those after it. -/
theorem results_eq_cons {n : Nat} {r : Except Fault Outcome} {rs : List (Except Fault Outcome)}
    (h : results perform j (n + 1) s = some (r :: rs, u)) :
    ∃ t, streamStepWith perform j s = some (r, t) ∧ results perform j n t = some (rs, u) := by
  rw [results_eq_repeated] at h ⊢
  obtain ⟨r', t, rs', hstep, hrest, heq⟩ := repeated_succ_eq_some h
  cases heq
  exact ⟨t, hstep, hrest⟩

/-- Steps may be taken in two parts. -/
theorem results_add {m n : Nat} {rs qs : List (Except Fault Outcome)}
    (h : results perform j m s = some (rs, t)) (h' : results perform j n t = some (qs, u)) :
    results perform j (m + n) s = some (rs ++ qs, u) := by
  rw [results_eq_repeated] at h h' ⊢
  exact repeated_append h h'

/-- The end is reported without an action. -/
theorem tried_of_stepWith_exhausted {table : RuleTable} {i : Nat} {context : Arguments}
    (h : table.stepWith perform i context s = some (.ok .exhausted, t)) : t = s.tried table i := by
  have hattempt := RuleTable.attempt_of_stepWith_exhausted h
  rw [RuleTable.stepWith_apply, hattempt] at h
  cases h
  rfl

theorem settle_apply (hb : t.stream? j = some b) (o : Outcome) :
    settle j o t = some (.ok (), t.recorded j b o) := by
  unfold settle
  rw [bind_of_ok (stream_of_getElem? hb)]
  cases o <;> rfl

theorem streamStepWith_of_answer (ha : s.stream? j = some a) (ho : a.answer? = some o) :
    streamStepWith perform j s = some (.ok o, s) := by
  unfold Stream.answer? at ho
  unfold streamStepWith
  rw [bind_of_ok (stream_of_getElem? ha)]
  split at ho
  · next f herror =>
    cases ho
    rw [herror]
    rfl
  · next herror hdone =>
    cases ho
    rw [herror, hdone]
    rfl
  · cases ho

/-- A stream that goes on takes a step of its table and records the outcome as it finds itself then. -/
theorem streamStepWith_of_live (ha : s.stream? j = some a) (hlive : a.answer? = none) :
    streamStepWith perform j s =
      match a.table.stepWith perform a.cursor a.context s with
      | none => none
      | some (.error f, t) => some (.error f, t)
      | some (.ok o, t) =>
        match t.stream? j with
        | none => some (.error (.raised "KeyError" none), t)
        | some b => some (.ok o, t.recorded j b o) := by
  obtain ⟨herror, hdone⟩ := Stream.answer?_eq_none.mp hlive
  unfold streamStepWith
  rw [bind_of_ok (stream_of_getElem? ha)]
  simp only [herror, hdone]
  rw [bind_apply]
  cases a.table.stepWith perform a.cursor a.context s with
  | none => rfl
  | some p =>
    obtain ⟨r, t⟩ := p
    cases r with
    | error f => rfl
    | ok o =>
      dsimp only
      cases hb : t.stream? j with
      | none =>
        have hsettle : settle j o t = some (.error (.raised "KeyError" none), t) :=
          bind_of_error (stream_of_none hb) _
        rw [bind_of_error hsettle]
      | some b =>
        rw [bind_of_ok (settle_apply hb o)]
        rfl

theorem streamStepWith_of_none (h : s.stream? j = none) :
    streamStepWith perform j s = some (.error (.raised "KeyError" none), s) :=
  bind_of_error (stream_of_none h) _

/-- The record of a stream after an outcome that ends it. -/
theorem stream?_recorded (hb : t.stream? j = some b) (o : Outcome) :
    (t.recorded j b o).stream? j = some
      (match o with
      | .failed f => { b with error := some f }
      | .exhausted => { b with done := true }
      | _ => b) := by
  cases o with
  | failed f => exact stream_setStream hb _
  | exhausted => exact stream_setStream hb _
  | _ => exact hb

theorem nextWith_succ (perform : Performer) (j turns : Nat) (s : Session) :
    nextWith perform j (turns + 1) s =
      match streamStepWith perform j s with
      | none => none
      | some (.error f, t) => some (.error f, t)
      | some (.ok o, t) =>
        match o.reply? with
        | some r => some (r, t)
        | none => nextWith perform j turns t := by
  conv_lhs => unfold nextWith
  rw [bind_apply]
  cases streamStepWith perform j s with
  | none => rfl
  | some p =>
    obtain ⟨r, t⟩ := p
    cases r with
    | error f => rfl
    | ok o => cases o <;> rfl

/-- The steps behind a token: matches that are skipped, and one step more. -/
theorem results_of_nextWith {turns : Nat} {r : Except Fault (Option (Value × Span))}
    (h : nextWith perform j turns s = some (r, t)) :
    ∃ spans last,
      results perform j (spans.length + 1) s = some (Outcome.skips spans ++ [last], t) ∧
      Outcome.replied? last = some r := by
  induction turns generalizing s with
  | zero => cases h
  | succ turns ih =>
    rw [nextWith_succ] at h
    split at h
    · cases h
    · next f u hstep =>
      cases h
      refine ⟨[], .error f, ?_, rfl⟩
      rw [List.length_nil, Nat.zero_add, results_succ_of_some hstep]
      rfl
    · next o u hstep =>
      split at h
      · next hreply =>
        cases h
        refine ⟨[], .ok o, ?_, hreply⟩
        rw [List.length_nil, Nat.zero_add, results_succ_of_some hstep]
        rfl
      · next hreply =>
        obtain ⟨spans, last, hrest, hlast⟩ := ih h
        cases o with
        | skipped span =>
          refine ⟨span :: spans, last, ?_, hlast⟩
          rw [List.length_cons, results_succ_of_some hstep, hrest]
          rfl
        | _ => cases hreply

end Run

end FirstMatch
