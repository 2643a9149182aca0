import FirstMatch.Proofs.StreamSteps
import FirstMatch.Vocabulary

/-!
Reports of a stream are final. That the stream has failed or ended is recorded when a call of it returns
so, and every call from there on answers the same, whatever else is done. An action may call the stream
that is running it: the step around such a call is not over yet, and records what the action makes of the
report, so that a stream may have failed and ended both.
-/

namespace FirstMatch

/-- The outcomes with which a stream stops. -/
def Outcome.isFinal : Outcome → Bool
  | exhausted => true
  | failed _ => true
  | _ => false

namespace Session

/-- The stream has failed or ended, with this outcome for every call. -/
def Settled (j : Nat) (o : Outcome) (s : Session) : Prop :=
  ∃ a, s.stream? j = some a ∧ a.answer? = some o

/-- A stream that has failed or ended stays as it is. -/
def KeepsSettled (j : Nat) (s t : Session) : Prop :=
  ∀ a, s.stream? j = some a → a.answer?.isSome → t.stream? j = some a

variable {j k : Nat} {s t u : Session} {o : Outcome}

theorem KeepsSettled.trans (h : KeepsSettled j s t) (h' : KeepsSettled j t u) :
    KeepsSettled j s u := by
  intro a ha hanswer
  exact h' a (h a ha hanswer) hanswer

theorem keepsSettled_of_chain (h : Relation.ReflTransGen (KeepsSettled j) s t) :
    KeepsSettled j s t := by
  induction h with
  | refl => exact fun a ha _ => ha
  | tail _ step ih => exact ih.trans step

theorem KeepsSettled.settled (h : KeepsSettled j s t) (hs : s.Settled j o) : t.Settled j o := by
  obtain ⟨a, ha, hanswer⟩ := hs
  exact ⟨a, h a ha (by simp [hanswer]), hanswer⟩

theorem keepsSettled_of_streams (h : t.streams = s.streams) : KeepsSettled j s t := by
  intro a ha _
  rwa [stream?, h]

theorem keepsSettled_push (s : Session) (j : Nat) (b : Stream) :
    KeepsSettled j s { s with streams := s.streams.push b } := by
  intro a ha _
  obtain ⟨hj, heq⟩ := Array.getElem?_eq_some_iff.mp ha
  simp only [stream?, Array.getElem?_push_lt hj]
  exact congrArg some heq

theorem keepsSettled_setStream (h : k ≠ j) (b : Stream) : KeepsSettled j s (s.setStream k b) := by
  intro a ha _
  simpa [setStream, stream?, Array.getElem?_setIfInBounds, h] using ha

theorem recorded_ofResult (s : Session) (j : Nat) (b : Stream) (v : Value) (span : Span) :
    s.recorded j b (.ofResult v span) = s := by
  cases v <;> rfl

theorem keepsSettled_recorded (h : k ≠ j) (b : Stream) (o : Outcome) :
    KeepsSettled j s (s.recorded k b o) := by
  cases o with
  | failed f => exact keepsSettled_setStream h _
  | exhausted => exact keepsSettled_setStream h _
  | _ => exact keepsSettled_of_streams rfl

end Session

open Session (KeepsSettled)

namespace Run

variable {perform : Performer} {j k : Nat} {s t : Session} {a b : Stream} {o : Outcome}

theorem keepsSettled_of_stepWith (hp : ∀ q, Moves (KeepsSettled j) (perform q)) {table : RuleTable}
    {i : Nat} {context : Arguments} {r : Except Fault Outcome}
    (h : table.stepWith perform i context s = some (r, t)) :
    Relation.ReflTransGen (KeepsSettled j) s t :=
  chain_of_stepWith hp (Session.keepsSettled_of_streams (Session.streams_tried s table i))
    (fun _ _ => Session.keepsSettled_of_streams rfl) h

/-- No step of any stream changes the record of one that has failed or ended, its own included. -/
theorem keeps_streamStepWith (hp : ∀ q, Moves (KeepsSettled j) (perform q)) (k : Nat) :
    Moves (KeepsSettled j) (streamStepWith perform k) := by
  intro s t r h
  cases ha : s.stream? k with
  | none =>
    rw [streamStepWith_of_none ha] at h
    cases h
    exact .refl
  | some a =>
    cases hanswer : a.answer? with
    | some o =>
      rw [streamStepWith_of_answer ha hanswer] at h
      cases h
      exact .refl
    | none =>
      by_cases hkj : k = j
      · -- The stream itself goes on, so that there is nothing to keep.
        subst hkj
        apply Relation.ReflTransGen.single
        intro b hb hsome
        rw [ha] at hb
        cases hb
        simp [hanswer] at hsome
      · rw [streamStepWith_of_live ha hanswer] at h
        split at h
        · cases h
        · next hstep =>
          cases h
          exact keepsSettled_of_stepWith hp hstep
        · next hstep =>
          have hstepped := keepsSettled_of_stepWith hp hstep
          split at h
          · cases h
            exact hstepped
          · cases h
            exact hstepped.tail (Session.keepsSettled_recorded hkj _ _)

/-- What takes no step leaves the streams that there are. -/
theorem keeps_perform_zero (j : Nat) (q : Request) : Moves (KeepsSettled j) (Run.perform 0 q) := by
  cases q with
  | advance i n =>
    intro s t r h
    have hadvance : advance i n s = some (r, t) := h
    rw [advance_apply] at hadvance
    split at hadvance
    · cases hadvance
      exact .refl
    · cases hadvance
      exact .single (Session.keepsSettled_of_streams rfl)
  | look i => exact moves_bind moves_get fun _ => moves_pure _
  | mark i =>
    intro s t r h
    cases h
    exact .single (Session.keepsSettled_of_streams rfl)
  | cursorNamed name => exact moves_cursorNamed name
  | openText text =>
    intro s t r h
    cases h
    exact .single (Session.keepsSettled_of_streams rfl)
  | openStream name i context =>
    refine moves_bind (moves_lexer name) fun table => moves_bind (moves_ofCall _) fun _ => ?_
    intro s t r h
    cases h
    exact .single (Session.keepsSettled_push s j _)
  | step name i context => exact moves_unfinished
  | streamStep i => exact moves_unfinished
  | next i => exact moves_unfinished
  | streamNamed name => exact moves_streamNamed name
  | countCall action =>
    refine moves_bind (moves_modify fun s => ?_) fun _ => moves_bind moves_get fun _ => moves_pure _
    exact Session.keepsSettled_of_streams rfl
  | cite f =>
    apply moves_modify
    intro s
    exact Session.keepsSettled_of_streams (s.cite_same f).2.1

theorem keeps_perform (depth j : Nat) (q : Request) :
    Moves (KeepsSettled j) (Run.perform depth q) := by
  apply moves_perform_of (keeps_perform_zero j)
  · intro p hp name i context
    exact moves_bind (moves_engine name) fun table s t r h => keepsSettled_of_stepWith hp h
  · exact fun p hp k => keeps_streamStepWith hp k

/-- An outcome that stops the stream is what it has recorded when the step returns. -/
theorem settled_of_streamStepWith (h : streamStepWith perform j s = some (.ok o, t))
    (hfinal : o.isFinal = true) : t.Settled j o := by
  cases ha : s.stream? j with
  | none =>
    rw [streamStepWith_of_none ha] at h
    cases h
  | some a =>
    cases hanswer : a.answer? with
    | some o' =>
      rw [streamStepWith_of_answer ha hanswer] at h
      cases h
      exact ⟨a, ha, hanswer⟩
    | none =>
      rw [streamStepWith_of_live ha hanswer] at h
      split at h
      · cases h
      · cases h
      · next o' u hstep =>
        split at h
        · cases h
        · next b hb =>
          cases h
          refine ⟨_, stream?_recorded hb o, ?_⟩
          cases o with
          | failed f => rfl
          | exhausted =>
            -- No action has run, so the stream is still as it was found.
            rw [tried_of_stepWith_exhausted hstep, Session.stream?_tried] at hb
            obtain rfl : a = b := Option.some.inj (ha.symm.trans hb)
            have herror := (Stream.answer?_eq_none.mp hanswer).1
            simp [Stream.answer?, herror]
          | emitted token span => cases hfinal
          | skipped span => cases hfinal

/-- What is raised through a step is no error of the engine. -/
theorem serial?_of_stepWith {table : RuleTable} {i : Nat} {context : Arguments} {f : Fault}
    (h : table.stepWith perform i context s = some (.error f, t)) : f.serial? = none := by
  rw [RuleTable.stepWith_apply] at h
  split at h
  · cases h
  · cases h
  · cases h
    rfl
  · cases h
    rfl
  · split at h
    · cases h
    · cases h
    · next cause u _ =>
      split at h
      · cases h
      · next hordinary =>
        cases h
        cases f <;> first | rfl | exact absurd rfl hordinary

/-- What a step fails with is an error of the engine: whoever runs the step can tell it by its class. -/
theorem lexError_of_stepWith {table : RuleTable} {i : Nat} {context : Arguments} {f : Fault}
    (h : table.stepWith perform i context s = some (.ok (.failed f), t)) :
    f.kind ∈ Vocabulary.names ∧
      ∃ classes, Fault.lineage f.kind = some classes ∧ "LexError" ∈ classes := by
  have hserial : f.serial?.isSome := by
    rw [RuleTable.stepWith_apply] at h
    split at h
    · cases h
    · cases h
      rfl
    · cases h
    · cases h
    · split at h
      · cases h
      · next v _ _ => cases v <;> cases h
      · split at h
        · cases h
          rfl
        · cases h
  obtain ⟨classes, hclasses, herror⟩ := Vocabulary.lexError_of_serial hserial
  exact ⟨(Vocabulary.mem_names_of_lineage hclasses).1, classes, hclasses, herror⟩

theorem serial?_of_streamStepWith {f : Fault}
    (h : streamStepWith perform j s = some (.error f, t)) : f.serial? = none := by
  cases ha : s.stream? j with
  | none =>
    rw [streamStepWith_of_none ha] at h
    cases h
    rfl
  | some a =>
    cases hanswer : a.answer? with
    | some o =>
      rw [streamStepWith_of_answer ha hanswer] at h
      cases h
    | none =>
      rw [streamStepWith_of_live ha hanswer] at h
      split at h
      · cases h
      · next hstep =>
        cases h
        exact serial?_of_stepWith hstep
      · split at h
        · cases h
          rfl
        · cases h

/-- When asking for a token comes to the end or to an error of the engine, so the stream has recorded. -/
theorem settled_of_nextWith {turns : Nat} {r : Except Fault (Option (Value × Span))}
    (h : nextWith perform j turns s = some (r, t)) :
    (r = .ok none → t.Settled j .exhausted) ∧
      ∀ f, r = .error f → f.serial?.isSome → t.Settled j (.failed f) := by
  induction turns generalizing s with
  | zero => cases h
  | succ turns ih =>
    rw [nextWith_succ] at h
    split at h
    · cases h
    · next f u hstep =>
      cases h
      refine ⟨nofun, fun f' hf' hserial => ?_⟩
      cases hf'
      simp [serial?_of_streamStepWith hstep] at hserial
    · next o u hstep =>
      cases o with
      | skipped span => exact ih h
      | emitted token span =>
        cases h
        exact ⟨nofun, nofun⟩
      | exhausted =>
        cases h
        exact ⟨fun _ => settled_of_streamStepWith hstep rfl, nofun⟩
      | failed f =>
        cases h
        refine ⟨nofun, fun f' hf' _ => ?_⟩
        cases hf'
        exact settled_of_streamStepWith hstep rfl

theorem streamStepWith_of_settled (h : s.Settled j o) :
    streamStepWith perform j s = some (.ok o, s) := by
  obtain ⟨a, ha, hanswer⟩ := h
  exact streamStepWith_of_answer ha hanswer

theorem results_of_settled (h : s.Settled j o) (n : Nat) :
    results perform j n s = some (List.replicate n (.ok o), s) := by
  induction n with
  | zero => rfl
  | succ n ih =>
    rw [results_succ_of_some (streamStepWith_of_settled h), ih]
    rfl

/-- A step without a match records its outcome only, in a stream that has recorded none before. -/
theorem not_both_of_unfired (ha : s.stream? j = some a) (hlive : a.answer? = none)
    (hunfired : ∀ rule text span, (a.table.attempt (s.cursor a.cursor)).1 ≠ .fired rule text span)
    (h : streamStepWith perform j s = some (.ok o, t)) :
    ¬∃ b, t.stream? j = some b ∧ b.done = true ∧ b.error.isSome := by
  obtain ⟨herror, hdone⟩ := Stream.answer?_eq_none.mp hlive
  have htried : (s.tried a.table a.cursor).stream? j = some a := by
    rw [Session.stream?_tried, ha]
  rw [streamStepWith_of_live ha hlive, RuleTable.stepWith_apply] at h
  cases hattempt : (a.table.attempt (s.cursor a.cursor)).1 with
  | exhausted =>
    simp only [hattempt, htried] at h
    cases h
    rw [stream?_recorded htried]
    simp [herror]
  | unmatched character location =>
    have hstream : Session.stream?
        { s.tried a.table a.cursor with nextSerial := s.nextSerial + 1 } j = some a := htried
    simp only [hattempt, hstream] at h
    cases h
    rw [stream?_recorded hstream]
    simp [hdone]
  | overrun o' =>
    rw [hattempt] at h
    cases h
  | tangled =>
    rw [hattempt] at h
    cases h
  | fired rule text span => exact absurd hattempt (hunfired rule text span)

/-- A step whose action returns or fails ordinarily records a failure in the stream as the action has
left it. -/
theorem both_iff_of_fired (ha : s.stream? j = some a) (hlive : a.answer? = none) {rule : CompiledRule}
    {text : List Char} {span : Span} {r : Except Fault Value}
    (hattempt : (a.table.attempt (s.cursor a.cursor)).1 = .fired rule text span)
    (hinvoke : rule.invoke perform text a.cursor span a.context (s.tried a.table a.cursor) =
      some (r, u))
    (h : streamStepWith perform j s = some (.ok o, t)) :
    (∃ b, t.stream? j = some b ∧ b.done = true ∧ b.error.isSome) ↔
      ∃ c, u.stream? j = some c ∧ c.done = true ∧ (c.error.isSome ∨ ∃ f, r = .error f) := by
  rw [streamStepWith_of_live ha hlive, RuleTable.stepWith_apply, hattempt] at h
  dsimp only at h
  rw [hinvoke] at h
  cases r with
  | ok v =>
    dsimp only at h
    cases hu : u.stream? j with
    | none =>
      rw [hu] at h
      cases h
    | some c =>
      simp only [hu, Session.recorded_ofResult, Option.some.injEq, Prod.mk.injEq] at h
      obtain ⟨-, rfl⟩ := h
      simp [hu]
  | error f =>
    cases hordinary : f.isOrdinary with
    | false =>
      simp only [hordinary, Bool.false_eq_true, ↓reduceIte] at h
      cases h
    | true =>
      have hstream : Session.stream? { u with nextSerial := u.nextSerial + 1 } j =
          u.stream? j := rfl
      simp only [hordinary, ↓reduceIte, hstream] at h
      cases hu : u.stream? j with
      | none =>
        rw [hu] at h
        cases h
      | some c =>
        rw [hu] at h
        cases h
        rw [stream?_recorded (hstream.trans hu)]
        simp

/-- A step that returns has had its action return. -/
theorem exists_invoke_of_fired (ha : s.stream? j = some a) (hlive : a.answer? = none)
    {rule : CompiledRule} {text : List Char} {span : Span} {q : Except Fault Outcome}
    (hattempt : (a.table.attempt (s.cursor a.cursor)).1 = .fired rule text span)
    (h : streamStepWith perform j s = some (q, t)) :
    ∃ r u, rule.invoke perform text a.cursor span a.context (s.tried a.table a.cursor) =
      some (r, u) := by
  rw [streamStepWith_of_live ha hlive, RuleTable.stepWith_apply, hattempt] at h
  dsimp only at h
  cases hinvoke : rule.invoke perform text a.cursor span a.context (s.tried a.table a.cursor) with
  | none =>
    rw [hinvoke] at h
    cases h
  | some p => exact ⟨p.1, p.2, rfl⟩

/-- After a step of a stream that went on before, it has both failed and ended exactly if the action of
the step has left it ended, and has left it failed too or failed itself. -/
theorem both_iff (ha : s.stream? j = some a) (hlive : a.answer? = none)
    (h : streamStepWith perform j s = some (.ok o, t)) :
    (∃ b, t.stream? j = some b ∧ b.done = true ∧ b.error.isSome) ↔
      ∃ rule text span r u c, (a.table.attempt (s.cursor a.cursor)).1 = .fired rule text span ∧
        rule.invoke perform text a.cursor span a.context (s.tried a.table a.cursor) = some (r, u) ∧
        u.stream? j = some c ∧ c.done = true ∧ (c.error.isSome ∨ ∃ f, r = .error f) := by
  constructor
  · intro hboth
    have hfired : ∃ rule text span,
        (a.table.attempt (s.cursor a.cursor)).1 = .fired rule text span := by
      by_contra hnone
      apply not_both_of_unfired ha hlive _ h hboth
      exact fun rule text span hattempt => hnone ⟨rule, text, span, hattempt⟩
    obtain ⟨rule, text, span, hattempt⟩ := hfired
    obtain ⟨r, u, hinvoke⟩ := exists_invoke_of_fired ha hlive hattempt h
    obtain ⟨c, hc⟩ := (both_iff_of_fired ha hlive hattempt hinvoke h).mp hboth
    exact ⟨rule, text, span, r, u, c, hattempt, hinvoke, hc⟩
  · rintro ⟨rule, text, span, r, u, c, hattempt, hinvoke, hc⟩
    exact (both_iff_of_fired ha hlive hattempt hinvoke h).mpr ⟨c, hc⟩

end Run

/-- A call that reports the end or a failure of a stream has recorded it, and a stream with such a record
answers every call alike, so with the same error, and keeps it in every run that begins then. After a step
it has both failed and ended only if the action of the step has run the stream itself to its end. -/
theorem reports_are_final (j : Nat) :
    (∀ depth s o t, Run.streamStep depth j s = some (.ok o, t) → o.isFinal = true →
      t.Settled j o) ∧
    (∀ depth s r t, Run.next depth j s = some (r, t) →
      (r = .ok none → t.Settled j .exhausted) ∧
        ∀ f, r = .error f → f.serial?.isSome → t.Settled j (.failed f)) ∧
    (∀ s o, s.Settled j o →
      (∀ depth n, Run.results (Run.perform depth) j n s =
        some (List.replicate n (.ok o), s)) ∧
      (∀ depth r, o.reply? = some r → Run.next (depth + 1) j s = some (r, s)) ∧
      ∀ (α : Type) (p : Script α) (depth : Nat) (r : Except Fault α) (t : Session),
        p.run (Run.perform depth) s = some (r, t) → t.Settled j o) ∧
    ∀ depth s a o t, s.stream? j = some a → a.answer? = none →
      Run.streamStep depth j s = some (.ok o, t) →
      ((∃ b, t.stream? j = some b ∧ b.done = true ∧ b.error.isSome) ↔
        ∃ rule text span r u c, (a.table.attempt (s.cursor a.cursor)).1 = .fired rule text span ∧
          rule.invoke (Run.perform depth) text a.cursor span a.context
            (s.tried a.table a.cursor) = some (r, u) ∧
          u.stream? j = some c ∧ c.done = true ∧ (c.error.isSome ∨ ∃ f, r = .error f)) := by
  refine ⟨fun depth s o t h hfinal => Run.settled_of_streamStepWith h hfinal,
    fun depth s r t h => Run.settled_of_nextWith h, fun s o hs => ⟨?_, ?_, ?_⟩,
    fun depth s a o t ha hlive h => Run.both_iff ha hlive h⟩
  · intro depth n
    exact Run.results_of_settled hs n
  · intro depth r hr
    unfold Run.next
    rw [Run.nextWith_succ, Run.streamStepWith_of_settled hs]
    simp only [hr]
  · intro α p depth r t h
    have hkeeps := Session.keepsSettled_of_chain
      (Run.moves_script (Run.keeps_perform depth j) p h)
    exact hkeeps.settled hs

/-- The failure that a step reports. -/
def Outcome.failure? : Except Fault Outcome → Option Fault
  | .ok (.failed f) => some f
  | _ => none

theorem Outcome.failure?_eq_some {r : Except Fault Outcome} {f : Fault}
    (h : Outcome.failure? r = some f) : r = .ok (.failed f) := by
  unfold failure? at h
  split at h
  · cases h
    rfl
  · cases h

/-- Asks for the next token of the stream that is running the action. -/
def readAhead : Action :=
  Recipe.action 4 "ahead" 0 Action.textOnly (.streamNext "own")

def readAheadTable : RuleTable :=
  ⟨[⟨0, .regex .pattern ['a'] ⟨.char 97 .exact, 1⟩, readAhead, ⟨1, [], [], false⟩⟩]⟩

/-- A session with a stream before one match, whose action asks the stream itself. -/
def readAheadSession : Session :=
  { Session.empty with
    cursors := #[.ofText ['a']]
    streams := #[⟨readAheadTable, 0, [], false, none⟩]
    streamNames := [("own", 0)] }

/-- The action is told that the input has ended, and fails; so does the stream, for good. -/
theorem reports_are_final_readAhead :
    ∃ f t, Run.streamStep 3 0 readAheadSession = some (.ok (.failed f), t) ∧
      t.Settled 0 (.failed f) ∧
      (∀ depth n, Run.results (Run.perform depth) 0 n t =
        some (List.replicate n (.ok (.failed f)), t)) ∧
      (∃ b, t.stream? 0 = some b ∧ b.done = true ∧ b.error.isSome) ∧
      ∃ rule text span r u c,
        (readAheadTable.attempt (readAheadSession.cursor 0)).1 = .fired rule text span ∧
        rule.invoke (Run.perform 3) text 0 span [] (readAheadSession.tried readAheadTable 0) =
          some (r, u) ∧
        u.stream? 0 = some c ∧ c.done = true ∧ (c.error.isSome ∨ ∃ f, r = .error f) := by
  have hvisit : ((Run.streamStep 3 0 readAheadSession).any fun p =>
      (Outcome.failure? p.1).isSome &&
        (p.2.stream? 0).any fun b => b.done && b.error.isSome) = true := by
    decide +kernel
  obtain ⟨⟨r, t⟩, hstep, hend⟩ := (Option.any_eq_true _ _).mp hvisit
  obtain ⟨hfailed, hboth⟩ := (Bool.and_eq_true _ _).mp hend
  obtain ⟨b, hb, hflags⟩ := (Option.any_eq_true _ _).mp hboth
  obtain ⟨hdone, herror⟩ := (Bool.and_eq_true _ _).mp hflags
  obtain ⟨f, hf⟩ := Option.isSome_iff_exists.mp hfailed
  obtain rfl : r = .ok (.failed f) := Outcome.failure?_eq_some hf
  obtain ⟨hreport, -, hlater, hwhy⟩ := reports_are_final 0
  have hsettled := hreport 3 readAheadSession (.failed f) t hstep rfl
  have hrecord : ∃ b, t.stream? 0 = some b ∧ b.done = true ∧ b.error.isSome :=
    ⟨b, hb, hdone, herror⟩
  refine ⟨f, t, hstep, hsettled, (hlater t (.failed f) hsettled).1, hrecord, ?_⟩
  exact (hwhy 3 readAheadSession ⟨readAheadTable, 0, [], false, none⟩ (.failed f) t rfl rfl
    hstep).mp hrecord

end FirstMatch
