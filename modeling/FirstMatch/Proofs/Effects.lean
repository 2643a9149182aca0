import FirstMatch.Proofs.Runs

/-!
Effects: all that can happen to a session at once. Whatever callers and actions do, nested to any
depth, happens to the session as a chain of effects, so a property that every effect keeps holds at
every moment of every run. Deeds are the effects by those tables that the session holds, and running
a script is a chain of them.
-/

namespace FirstMatch

namespace Session

/-- The session after a table has been tried on a cursor. A match is in the journal before its action
runs. -/
def tried (s : Session) (table : RuleTable) (i : Nat) : Session :=
  match table.attempt (s.cursor i) with
  | (.fired rule text span, d) =>
    { s.setCursor i d with journal := ⟨i, .rule rule.kind rule.priority, text, span⟩ :: s.journal }
  | (_, d) => s.setCursor i d

/-- The session after a cursor has been advanced directly by at most what is left. -/
def advanced (s : Session) (i n : Nat) : Session :=
  let c := s.cursor i
  let taken := c.ahead.take n
  let entry : Entry := ⟨i, .direct, taken, .between c.place (c.place.last taken) (c.move n).place⟩
  { s.setCursor i (c.move n) with journal := entry :: s.journal }

/-- What happens at once. Errors and names are noted, and calls counted, beside the input. -/
inductive Effect : Session → Session → Prop
  | tried (s : Session) (table : RuleTable) (i : Nat) : Effect s (s.tried table i)
  | advanced (s : Session) (i n : Nat) (le : n ≤ (s.cursor i).ahead.length) :
      Effect s (s.advanced i n)
  | marked (s : Session) (i : Nat) : Effect s (s.setCursor i (s.cursor i).markIfEmpty)
  | textOpened (s : Session) (text : List Char) :
      Effect s { s with cursors := s.cursors.push (.ofText text) }
  | streamOpened (s : Session) (table : RuleTable) (i : Nat) (context : Arguments) :
      Effect s { s with streams := s.streams.push ⟨table, i, context, false, none⟩ }
  | streamFailed (s : Session) (i : Nat) (t : Stream) (f : Fault) (of : s.stream? i = some t) :
      Effect s (s.setStream i { t with error := some f })
  | streamEnded (s : Session) (i : Nat) (t : Stream) (of : s.stream? i = some t) :
      Effect s (s.setStream i { t with done := true })
  | beside {s t : Session} (cursors : t.cursors = s.cursors) (streams : t.streams = s.streams)
      (journal : t.journal = s.journal) : Effect s t

/-- One session comes from another by a chain of effects. -/
abbrev Leads : Session → Session → Prop := Relation.ReflTransGen Effect

/-- A table that a session has under a name or in a stream. -/
def Holds (s : Session) (table : RuleTable) : Prop :=
  (∃ name, (name, table) ∈ s.lexers) ∨ (∃ name, (name, table) ∈ s.engines) ∨
    ∃ i a, s.stream? i = some a ∧ a.table = table

/-- The effects that a session has by the tables that it holds. None is added to them. -/
inductive Deed : Session → Session → Prop
  | tried (s : Session) (table : RuleTable) (held : s.Holds table) (i : Nat) :
      Deed s (s.tried table i)
  | advanced (s : Session) (i n : Nat) (le : n ≤ (s.cursor i).ahead.length) :
      Deed s (s.advanced i n)
  | marked (s : Session) (i : Nat) : Deed s (s.setCursor i (s.cursor i).markIfEmpty)
  | textOpened (s : Session) (text : List Char) :
      Deed s { s with cursors := s.cursors.push (.ofText text) }
  | streamOpened (s : Session) (table : RuleTable) (held : s.Holds table) (i : Nat)
      (context : Arguments) :
      Deed s { s with streams := s.streams.push ⟨table, i, context, false, none⟩ }
  | streamFailed (s : Session) (i : Nat) (t : Stream) (f : Fault) (of : s.stream? i = some t) :
      Deed s (s.setStream i { t with error := some f })
  | streamEnded (s : Session) (i : Nat) (t : Stream) (of : s.stream? i = some t) :
      Deed s (s.setStream i { t with done := true })
  | beside {s t : Session} (cursors : t.cursors = s.cursors) (streams : t.streams = s.streams)
      (lexers : t.lexers = s.lexers) (engines : t.engines = s.engines)
      (journal : t.journal = s.journal) : Deed s t

/-- One session comes from another by a chain of deeds: callers and actions take turns with the
engines, lexers and streams that there are, in any order and nested to any depth. -/
abbrev Works : Session → Session → Prop := Relation.ReflTransGen Deed

theorem Deed.effect {s t : Session} (h : Deed s t) : Effect s t := by
  cases h with
  | tried table held i => exact .tried s table i
  | advanced i n le => exact .advanced s i n le
  | marked i => exact .marked s i
  | textOpened text => exact .textOpened s text
  | streamOpened table held i context => exact .streamOpened s table i context
  | streamFailed i t f of => exact .streamFailed s i t f of
  | streamEnded i t of => exact .streamEnded s i t of
  | beside cursors streams lexers engines journal => exact .beside cursors streams journal

theorem Works.leads {s t : Session} (h : s.Works t) : s.Leads t :=
  h.lift id fun _ _ => Deed.effect

@[simp] theorem cursors_note (s : Session) (n : Nat) : (s.note n).cursors = s.cursors := by
  unfold note
  split <;> rfl

@[simp] theorem streams_note (s : Session) (n : Nat) : (s.note n).streams = s.streams := by
  unfold note
  split <;> rfl

@[simp] theorem lexers_note (s : Session) (n : Nat) : (s.note n).lexers = s.lexers := by
  unfold note
  split <;> rfl

@[simp] theorem engines_note (s : Session) (n : Nat) : (s.note n).engines = s.engines := by
  unfold note
  split <;> rfl

@[simp] theorem journal_note (s : Session) (n : Nat) : (s.note n).journal = s.journal := by
  unfold note
  split <;> rfl

theorem cite_same (s : Session) (f : Fault) :
    (s.cite f).cursors = s.cursors ∧ (s.cite f).streams = s.streams ∧
      (s.cite f).lexers = s.lexers ∧ (s.cite f).engines = s.engines ∧
      (s.cite f).journal = s.journal := by
  induction f generalizing s with
  | action n cause location rule caused ih =>
    have h := ih (s.note n)
    simp only [cursors_note, streams_note, lexers_note, engines_note, journal_note] at h
    exact h
  | unmatched n character location =>
    exact ⟨cursors_note s n, streams_note s n, lexers_note s n, engines_note s n, journal_note s n⟩
  | _ => exact ⟨rfl, rfl, rfl, rfl, rfl⟩

theorem deed_cite (s : Session) (f : Fault) : Deed s (s.cite f) := by
  obtain ⟨cursors, streams, lexers, engines, journal⟩ := s.cite_same f
  exact .beside cursors streams lexers engines journal

end Session

open Session (Deed)

/-- A session that goes on after a match, or ends without one. This says all that a step can do. -/
theorem RuleTable.stepWith_apply (perform : Performer) (table : RuleTable) (i : Nat)
    (context : Arguments) (s : Session) :
    table.stepWith perform i context s =
      match (table.attempt (s.cursor i)).1 with
      | .exhausted => some (.ok .exhausted, s.tried table i)
      | .unmatched character location =>
        some (.ok (.failed (.unmatched s.nextSerial (character.map ([·])) location)),
          { s.tried table i with nextSerial := s.nextSerial + 1 })
      | .overrun o => some (.error (.overrun o), s.tried table i)
      | .tangled => some (.error .tangled, s.tried table i)
      | .fired rule text span =>
        match rule.invoke perform text i span context (s.tried table i) with
        | none => none
        | some (.ok v, t) => some (.ok (.ofResult v span), t)
        | some (.error f, t) =>
          if f.isOrdinary then
            some (.ok (.failed (.action t.nextSerial f span rule.priority true)),
              { t with nextSerial := t.nextSerial + 1 })
          else some (.error f, t) := by
  unfold RuleTable.stepWith Session.tried
  rw [Run.get_bind_apply]
  cases table.attempt (s.cursor i) with
  | mk a d =>
  cases a with
  | fired rule text span =>
    dsimp only
    rw [Run.set_bind_apply]
    unfold Run.noteMatch
    rw [Run.modify_bind_apply, Run.bind_apply, Run.outcome_apply]
    dsimp only [Session.setCursor]
    cases rule.invoke perform text i span context _ with
    | none => rfl
    | some p =>
      obtain ⟨r, t⟩ := p
      cases r with
      | ok v => rfl
      | error f =>
        dsimp only [Option.map]
        split <;> rfl
  | _ => rfl

namespace Run

variable {α : Type} {s t : Session}

theorem mem_of_lookup {table : List (String × α)} {name : String} {a : α}
    (h : table.lookup name = some a) : (name, a) ∈ table := by
  obtain ⟨before, after, rfl, -⟩ := List.lookup_eq_some_iff.mp h
  exact List.mem_append_right _ List.mem_cons_self

/-- What is found under a name stands in the list. -/
theorem find_eq_ok {table : List (String × α)} {name : String} {a : α}
    (h : find table name s = some (.ok a, t)) : t = s ∧ (name, a) ∈ table := by
  unfold find at h
  cases hlookup : table.lookup name with
  | none =>
    rw [hlookup] at h
    cases h
  | some b =>
    rw [hlookup] at h
    cases h
    exact ⟨rfl, mem_of_lookup hlookup⟩

theorem lexer_eq_ok {name : String} {table : RuleTable} (h : lexer name s = some (.ok table, t)) :
    t = s ∧ s.Holds table := by
  obtain ⟨rfl, hmem⟩ := find_eq_ok h
  exact ⟨rfl, .inl ⟨name, hmem⟩⟩

theorem engine_eq_ok {name : String} {table : RuleTable}
    (h : engine name s = some (.ok table, t)) : t = s ∧ s.Holds table := by
  unfold engine at h
  rw [get_bind_apply] at h
  cases hlookup : s.engines.lookup name with
  | none =>
    rw [hlookup] at h
    exact lexer_eq_ok h
  | some found =>
    rw [hlookup] at h
    cases h
    exact ⟨rfl, .inr (.inl ⟨name, mem_of_lookup hlookup⟩)⟩

theorem stream_eq_ok {i : Nat} {a : Stream} (h : stream i s = some (.ok a, t)) :
    t = s ∧ s.stream? i = some a := by
  unfold stream at h
  rw [get_bind_apply] at h
  cases ha : s.stream? i with
  | none =>
    rw [ha] at h
    cases h
  | some b =>
    rw [ha] at h
    cases h
    exact ⟨rfl, rfl⟩

theorem stream_of_none {i : Nat} (h : s.stream? i = none) :
    stream i s = some (.error (.raised "KeyError" none), s) := by
  unfold stream
  rw [get_bind_apply, h]
  rfl

/-- A step of a table tries its rules, runs an action, and numbers an error. -/
theorem chain_of_stepWith {E : Session → Session → Prop} {perform : Performer}
    (hp : ∀ q, Moves E (perform q)) {table : RuleTable} {i : Nat} {context : Arguments}
    {r : Except Fault Outcome} (tried : E s (s.tried table i))
    (numbered : ∀ (u : Session) (n : Nat), E u { u with nextSerial := n })
    (h : table.stepWith perform i context s = some (r, t)) : Relation.ReflTransGen E s t := by
  rw [RuleTable.stepWith_apply] at h
  split at h
  · cases h
    exact .single tried
  · cases h
    exact (Relation.ReflTransGen.single tried).tail (numbered _ _)
  · cases h
    exact .single tried
  · cases h
    exact .single tried
  · next rule text span _ =>
    split at h
    · cases h
    · next hi =>
      cases h
      exact .head tried (moves_invoke hp rule text i span context hi)
    · next hi =>
      have invoked := moves_invoke hp rule text i span context hi
      split at h
      · cases h
        exact .head tried (invoked.tail (numbered _ _))
      · cases h
        exact .head tried invoked

theorem works_stepWith {perform : Performer} (hp : ∀ q, Moves Deed (perform q)) {table : RuleTable}
    (held : s.Holds table) {i : Nat} {context : Arguments} {r : Except Fault Outcome}
    (h : table.stepWith perform i context s = some (r, t)) : s.Works t :=
  chain_of_stepWith hp (.tried s table held i) (fun _ _ => .beside rfl rfl rfl rfl rfl) h

theorem moves_settle (i : Nat) (o : Outcome) : Moves Deed (settle i o) := by
  refine moves_after (moves_stream i) fun s u a hu t r ht => ?_
  obtain ⟨rfl, ha⟩ := stream_eq_ok hu
  cases o with
  | failed f =>
    cases ht
    exact .single (.streamFailed u i a f ha)
  | exhausted =>
    cases ht
    exact .single (.streamEnded u i a ha)
  | emitted token location =>
    cases ht
    exact .refl
  | skipped location =>
    cases ht
    exact .refl

theorem moves_streamStepWith {perform : Performer} (hp : ∀ q, Moves Deed (perform q)) (i : Nat) :
    Moves Deed (streamStepWith perform i) := by
  refine moves_after (moves_stream i) fun s u a hu t r ht => ?_
  obtain ⟨rfl, ha⟩ := stream_eq_ok hu
  cases herror : a.error with
  | some f =>
    simp only [herror] at ht
    exact moves_pure _ ht
  | none =>
    cases hdone : a.done with
    | true =>
      simp only [herror, hdone] at ht
      exact moves_pure _ ht
    | false =>
      simp only [herror, hdone] at ht
      have held : u.Holds a.table := .inr (.inr ⟨i, a, ha, rfl⟩)
      obtain ⟨o, v, hv, ht⟩ | ⟨f, hf, -⟩ := bind_eq_some ht
      · exact (works_stepWith hp held hv).trans
          (moves_bind (moves_settle i o) (fun _ => moves_pure o) ht)
      · exact works_stepWith hp held hf

/-- Asking for a token does nothing beyond the steps of the stream. -/
theorem moves_nextWith {E : Session → Session → Prop} {perform : Performer} {i : Nat}
    (hstep : Moves E (streamStepWith perform i)) (turns : Nat) :
    Moves E (nextWith perform i turns) := by
  induction turns with
  | zero => exact moves_unfinished
  | succ turns ih =>
    refine moves_bind hstep fun o => ?_
    cases o with
    | emitted token span => exact moves_pure _
    | skipped span => exact ih
    | failed f => exact moves_throw f
    | exhausted => exact moves_pure _

theorem advance_apply (i : Nat) (n : Int) (s : Session) :
    advance i n s =
      if n < 0 ∨ ((s.cursor i).ahead.length : Int) < n then
        some (.error (.overrun ⟨n, (s.cursor i).behind.length, (s.cursor i).size⟩), s)
      else
        some (.ok ((s.cursor i).place.last ((s.cursor i).ahead.take n.toNat)),
          s.advanced i n.toNat) := by
  unfold advance
  rw [get_bind_apply]
  unfold Cursor.advance
  by_cases hn : n < 0 ∨ ((s.cursor i).ahead.length : Int) < n
  · simp only [hn, ↓reduceIte]
    rfl
  · simp only [hn, ↓reduceIte]
    rfl

theorem moves_advance (i : Nat) (n : Int) : Moves Deed (advance i n) := by
  intro s t r h
  rw [advance_apply] at h
  split at h
  · cases h
    exact .refl
  · next hn =>
    cases h
    exact .single (.advanced s i n.toNat (by omega))

theorem moves_mark (i : Nat) : Moves Deed (mark i) := by
  intro s t r h
  cases h
  exact .single (.marked s i)

theorem moves_openCursor (text : List Char) : Moves Deed (openCursor text) := by
  intro s t r h
  cases h
  exact .single (.textOpened s text)

theorem moves_openStream (name : String) (i : Nat) (context : Arguments) :
    Moves Deed (perform 0 (.openStream name i context)) := by
  refine moves_after (moves_lexer name) fun s u table hu t r ht => ?_
  obtain ⟨rfl, held⟩ := lexer_eq_ok hu
  cases hcall : table.checkCall "__call__" (context.map (·.1)) with
  | ok a =>
    rw [hcall] at ht
    cases ht
    exact .single (.streamOpened u table held i context)
  | error flaw =>
    rw [hcall] at ht
    cases ht
    exact .refl

/-- The requests that take no step, and those for which no depth is left. -/
theorem moves_perform_zero (q : Request) : Moves Deed (perform 0 q) := by
  cases q with
  | advance i n => exact moves_advance i n
  | look i => exact moves_bind moves_get fun _ => moves_pure _
  | mark i => exact moves_mark i
  | cursorNamed name => exact moves_cursorNamed name
  | openText text => exact moves_openCursor text
  | openStream name i context => exact moves_openStream name i context
  | step name i context => exact moves_unfinished
  | streamStep i => exact moves_unfinished
  | next i => exact moves_unfinished
  | streamNamed name => exact moves_streamNamed name
  | countCall action =>
    exact moves_bind (moves_modify fun _ => .beside rfl rfl rfl rfl rfl) fun _ =>
      moves_bind moves_get fun _ => moves_pure _
  | cite f => exact moves_modify fun s => Session.deed_cite s f

/-- However deep the steps within the answer to a request are nested, it moves a session as do the
requests that take no step and the steps of tables and streams. -/
theorem moves_perform_of {E : Session → Session → Prop} (zero : ∀ q, Moves E (perform 0 q))
    (step : ∀ p : Performer, (∀ q, Moves E (p q)) → ∀ name i context,
      Moves E (engine name >>= fun table => table.stepWith p i context))
    (streamStep : ∀ p : Performer, (∀ q, Moves E (p q)) → ∀ i, Moves E (streamStepWith p i))
    (depth : Nat) (q : Request) : Moves E (perform depth q) := by
  induction depth generalizing q with
  | zero => exact zero q
  | succ depth ih =>
    cases q with
    | step name i context => exact step _ ih name i context
    | streamStep i => exact streamStep _ ih i
    | next i => exact moves_nextWith (streamStep _ ih i) depth
    | advance i n => exact zero (.advance i n)
    | look i => exact zero (.look i)
    | mark i => exact zero (.mark i)
    | cursorNamed name => exact zero (.cursorNamed name)
    | openText text => exact zero (.openText text)
    | openStream name i context => exact zero (.openStream name i context)
    | streamNamed name => exact zero (.streamNamed name)
    | countCall action => exact zero (.countCall action)
    | cite f => exact zero (.cite f)

/-- Answering a request moves a session by deeds. -/
theorem moves_perform (depth : Nat) (q : Request) : Moves Deed (perform depth q) := by
  apply moves_perform_of moves_perform_zero
  · intro p hp name i context
    refine moves_after (moves_engine name) fun s u table hu t r ht => ?_
    obtain ⟨rfl, held⟩ := engine_eq_ok hu
    exact works_stepWith hp held ht
  · exact fun p hp i => moves_streamStepWith hp i

theorem works_of_script {α : Type} {depth : Nat} {p : Script α} {s t : Session}
    {r : Except Fault α} (h : p.run (perform depth) s = some (r, t)) : s.Works t :=
  moves_script (moves_perform depth) p h

theorem leads_of_script {α : Type} {depth : Nat} {p : Script α} {s t : Session}
    {r : Except Fault α} (h : p.run (perform depth) s = some (r, t)) : s.Leads t :=
  (works_of_script h).leads

end Run

end FirstMatch
