import FirstMatch.Proofs.EndFiring

/-!
A stream on a cursor that nothing else touches, from where it begins to its end. It makes one attempt
where nothing is left, and with this attempt it ends.
-/

namespace FirstMatch

open Session (entriesOn)

namespace Run

/-- Steps of a stream, one after the other, with what comes of them. -/
inductive Steps (perform : Performer) (j : Nat) : Session → List Outcome → Session → Prop
  | nil (s : Session) : Steps perform j s [] s
  | cons {s t u : Session} {o : Outcome} {os : List Outcome}
      (first : streamStepWith perform j s = some (.ok o, t)) (rest : Steps perform j t os u) :
      Steps perform j s (o :: os) u

/-- Of the actions that are called while a stream is stepped, none touches the stream or its cursor. -/
def Undisturbed (perform : Performer) (j : Nat) (a : Stream) (s : Session) : Prop :=
  ∀ os t, Steps perform j s os t → ∀ rule text span,
    (a.table.attempt (t.cursor a.cursor)).1 = .fired rule text span → ∀ r u,
    rule.invoke perform text a.cursor span a.context (t.tried a.table a.cursor) = some (r, u) →
      (t.tried a.table a.cursor).Untouched a.cursor j u ∧
      entriesOn a.cursor u.journal = entriesOn a.cursor (t.tried a.table a.cursor).journal

/-- What one step of an undisturbed stream comes to: it goes on, ends or fails. -/
inductive Stepped (j : Nat) (a : Stream) (s : Session) (c : Cursor) : Outcome → Session → Prop
  | on {rule : CompiledRule} {text : List Char} {span : Span} {v : Value} {u : Session}
      (fired : (a.table.attempt c).1 = .fired rule text span)
      (cursor : u.cursors[a.cursor]? = some (a.table.attempt c).2)
      (stream : u.streams[j]? = some a)
      (entries : entriesOn a.cursor u.journal =
        entriesOn a.cursor s.journal ++ (a.table.attempt c).1.entries a.cursor) :
      Stepped j a s c (.ofResult v span) u
  | ended {u : Session} (attempt : (a.table.attempt c).1 = .exhausted)
      (stream : u.streams[j]? = some { a with done := true })
      (entries : entriesOn a.cursor u.journal = entriesOn a.cursor s.journal) :
      Stepped j a s c .exhausted u
  | failed {f : Fault} {u : Session} (stream : u.streams[j]? = some { a with error := some f }) :
      Stepped j a s c (.failed f) u

variable {perform : Performer} {j : Nat} {a : Stream} {s t u : Session} {o : Outcome}
  {os : List Outcome} {c : Cursor}

theorem Undisturbed.step (h : Undisturbed perform j a s)
    (first : streamStepWith perform j s = some (.ok o, t)) : Undisturbed perform j a t :=
  fun os u rest => h (o :: os) u (.cons first rest)

/-- Actions that leave the session as it is disturb no stream. -/
theorem undisturbed_of_idle (h : ∀ rule ∈ a.table.rules, ∀ text span s r u,
    rule.invoke perform text a.cursor span a.context s = some (r, u) → u = s) :
    Undisturbed perform j a s := by
  intro os t _ rule text span hfired r u hinvoke
  obtain rfl := h rule (RuleTable.mem_of_fired hfired) _ _ _ _ _ hinvoke
  exact ⟨⟨rfl, rfl, rfl, rfl⟩, rfl⟩

/-- A step of a stream that goes on is one of its table, after which an end or a failure is recorded. -/
theorem streamStepWith_eq_ok (ha : s.streams[j]? = some a) (hdone : a.done = false)
    (herror : a.error = none) (h : streamStepWith perform j s = some (.ok o, u)) :
    ∃ t, a.table.stepWith perform a.cursor a.context s = some (.ok o, t) ∧
      settle j o t = some (.ok (), u) := by
  unfold streamStepWith at h
  rw [bind_of_ok (stream_of_getElem? ha)] at h
  simp only [herror, hdone] at h
  obtain ⟨o', t, hstep, h⟩ | ⟨f, -, h⟩ := bind_eq_some h
  · obtain ⟨_, u', hsettle, h⟩ | ⟨f, -, h⟩ := bind_eq_some h
    · cases h
      exact ⟨t, hstep, hsettle⟩
    · cases h
  · cases h

theorem stream_setStream (h : t.streams[j]? = some a) (b : Stream) :
    (t.setStream j b).streams[j]? = some b := by
  obtain ⟨hj, -⟩ := Array.getElem?_eq_some_iff.mp h
  simp [Session.setStream, hj]

theorem stepped_of_streamStepWith (hquiet : Undisturbed perform j a s)
    (hc : s.cursors[a.cursor]? = some c) (ha : s.streams[j]? = some a) (hdone : a.done = false)
    (herror : a.error = none) (h : streamStepWith perform j s = some (.ok o, u)) :
    Stepped j a s c o u := by
  obtain ⟨t, hstep, hsettle⟩ := streamStepWith_eq_ok ha hdone herror h
  have hcursor := Session.cursor_of_getElem? hc
  obtain ⟨htried, hstreams, -, -⟩ := Session.tried_eq a.table hc
  have hstream : (s.tried a.table a.cursor).streams[j]? = some a :=
    (congrArg (·[j]?) hstreams).trans ha
  have hentries := Session.entriesOn_tried_self s a.table a.cursor
  have hcalls := hquiet [] s (.nil s)
  rw [hcursor] at hentries hcalls
  rw [RuleTable.stepWith_apply, hcursor] at hstep
  split at hstep
  · next hattempt =>
    cases hstep
    rw [settle_exhausted hstream] at hsettle
    cases hsettle
    rw [hattempt] at hentries
    exact .ended hattempt (stream_setStream hstream _) (hentries.trans (List.append_nil _))
  · cases hstep
    rw [settle_failed
      (u := { s.tried a.table a.cursor with nextSerial := s.nextSerial + 1 }) hstream] at hsettle
    cases hsettle
    exact .failed (stream_setStream hstream _)
  · cases hstep
  · cases hstep
  · next rule text span hattempt =>
    split at hstep
    · cases hstep
    · next v t' hinvoke =>
      cases hstep
      obtain ⟨hkept, hsame⟩ := hcalls rule text span hattempt _ _ hinvoke
      have ht := hkept.stream_eq.trans hstream
      rw [settle_ofResult ht] at hsettle
      cases hsettle
      exact .on hattempt (hkept.cursor_eq.trans htried) ht (hsame.trans hentries)
    · next f t' hinvoke =>
      split at hstep
      · cases hstep
        obtain ⟨hkept, -⟩ := hcalls rule text span hattempt _ _ hinvoke
        have ht := hkept.stream_eq.trans hstream
        rw [settle_failed (u := { t' with nextSerial := t'.nextSerial + 1 }) ht] at hsettle
        cases hsettle
        exact .failed (stream_setStream ht _)
      · cases hstep

/-- A stream that has ended does nothing any more. -/
theorem Steps.of_done (h : Steps perform j s os u) (ha : s.streams[j]? = some a)
    (hdone : a.done = true) (herror : a.error = none) : u = s := by
  induction h with
  | nil s => rfl
  | cons first rest ih =>
    unfold streamStepWith at first
    rw [bind_of_ok (stream_of_getElem? ha)] at first
    simp only [herror, hdone] at first
    cases first
    exact ih ha

/-- A stream that has failed never ends. -/
theorem Steps.not_mem_of_error (h : Steps perform j s os u) (ha : s.streams[j]? = some a)
    {f : Fault} (herror : a.error = some f) : .exhausted ∉ os := by
  induction h with
  | nil s => exact List.not_mem_nil
  | cons first rest ih =>
    unfold streamStepWith at first
    rw [bind_of_ok (stream_of_getElem? ha)] at first
    simp only [herror] at first
    cases first
    intro hmem
    rcases List.mem_cons.mp hmem with heq | hmem
    · cases heq
    · exact ih ha hmem

theorem exhausted_ne_ofResult (v : Value) (span : Span) : Outcome.exhausted ≠ .ofResult v span := by
  cases v <;> exact nofun

/-- On an exhausted cursor a stream that ends has made no match. -/
theorem Steps.entries_of_exhausted (h : Steps perform j s os u) (hend : .exhausted ∈ os)
    (hquiet : Undisturbed perform j a s) (hc : s.cursors[a.cursor]? = some c)
    (ha : s.streams[j]? = some a) (hdone : a.done = false) (herror : a.error = none)
    (hex : c.exhausted = true) : entriesOn a.cursor u.journal = entriesOn a.cursor s.journal := by
  cases h with
  | nil s => cases hend
  | cons first rest =>
    have hattempt : (a.table.attempt c).1 = .exhausted := by
      rw [RuleTable.attempt, if_pos hex]
    cases stepped_of_streamStepWith hquiet hc ha hdone herror first with
    | on fired cursor stream entries =>
      rw [hattempt] at fired
      cases fired
    | ended attempt stream entries =>
      rw [rest.of_done stream rfl herror, entries]
    | failed stream =>
      rcases List.mem_cons.mp hend with heq | hmem
      · cases heq
      · exact absurd hmem (rest.not_mem_of_error stream rfl)

/-- The entries of a run that ends with the input: the last one is of a rule for the end, and no other,
if the table ends so; otherwise none is. -/
theorem Steps.entries_of_end (built : a.table.Built) (h : Steps perform j s os u)
    (hend : .exhausted ∈ os) (hquiet : Undisturbed perform j a s)
    (hc : s.cursors[a.cursor]? = some c) (ha : s.streams[j]? = some a) (hdone : a.done = false)
    (herror : a.error = none) (hsound : c.Sound) (hex : c.exhausted = false) :
    ∃ es, entriesOn a.cursor u.journal = entriesOn a.cursor s.journal ++ es ∧
      ((∃ fs e, es = fs ++ [e] ∧ fs.countP Entry.endsInput = 0 ∧ e.endsInput = true ∧
          a.table.EndsInEof) ∨
        es.countP Entry.endsInput = 0 ∧ ¬a.table.EndsInEof) := by
  induction h generalizing c with
  | nil s => cases hend
  | cons first rest ih =>
    cases stepped_of_streamStepWith hquiet hc ha hdone herror first with
    | @on rule text span v _ fired cursor stream entries =>
      have hmem := (List.mem_cons.mp hend).resolve_left (exhausted_ne_ofResult v span)
      rcases a.table.attempt_cases c with ⟨rule, n, -, -, -, hattempt⟩ | ⟨hnone, -⟩
      · by_cases hahead : c.ahead = []
        · -- This was the attempt at the end, and nothing can be matched after it.
          have hafter : (a.table.attempt c).2.exhausted = true := by
            rw [hattempt]
            change (c.exhausted || c.ahead.isEmpty) = true
            rw [hahead, List.isEmpty_nil, Bool.or_true]
          rw [rest.entries_of_exhausted hmem (hquiet.step first) cursor stream hdone herror hafter]
          refine ⟨_, entries, ?_⟩
          rcases built.entries_at_end a.cursor hex hahead with ⟨e, he, hlast, hends⟩ | hnot
          · exact .inl ⟨[], e, he, rfl, hlast, hends⟩
          · exact .inr hnot
        · have hafter : (a.table.attempt c).2.exhausted = false := by
            rw [hattempt]
            change (c.exhausted || c.ahead.isEmpty) = false
            rw [hex, Bool.false_or, List.isEmpty_eq_false_iff]
            exact hahead
          have hsound' : (a.table.attempt c).2.Sound := by
            rw [hattempt]
            exact hsound.markIfEmpty.move n
          obtain ⟨es, hes, hcount⟩ := ih hmem (hquiet.step first) cursor stream hsound' hafter
          have hnone := built.entries_before_end a.cursor hahead
          refine ⟨(a.table.attempt c).1.entries a.cursor ++ es, ?_, ?_⟩
          · rw [hes, entries, List.append_assoc]
          · rcases hcount with ⟨fs, e, rfl, hfs, hlast, hends⟩ | ⟨hes, hnot⟩
            · refine .inl ⟨_ ++ fs, e, (List.append_assoc ..).symm, ?_, hlast, hends⟩
              rw [List.countP_append, hnone, hfs]
            · refine .inr ⟨?_, hnot⟩
              rw [List.countP_append, hnone, hes]
      · exact absurd fired (hnone rule text span)
    | ended attempt stream entries =>
      rw [rest.of_done stream rfl herror, entries]
      refine ⟨[], (List.append_nil _).symm, .inr ⟨rfl, ?_⟩⟩
      have hahead := RuleTable.ahead_of_attempt_exhausted hsound attempt
      rcases built.entries_at_end a.cursor hex hahead with ⟨e, he, -⟩ | ⟨-, hnot⟩
      · rw [attempt] at he
        cases he
      · exact hnot
    | failed stream =>
      rcases List.mem_cons.mp hend with heq | hmem
      · cases heq
      · exact absurd hmem (rest.not_mem_of_error stream rfl)

/-- Asking for a token makes steps of the stream, the last of which is the end if there is none. -/
theorem steps_of_next {turns : Nat} {r : Option (Value × Span)}
    (h : nextWith perform j turns s = some (.ok r, u)) :
    ∃ os, Steps perform j s os u ∧ (r = none → .exhausted ∈ os) := by
  induction turns generalizing s with
  | zero => cases h
  | succ turns ih =>
    unfold nextWith at h
    obtain ⟨o, t, ho, h⟩ | ⟨f, -, h⟩ := bind_eq_some h
    · cases o with
      | emitted token span =>
        cases h
        exact ⟨_, .cons ho (.nil _), fun hr => absurd hr (Option.some_ne_none _)⟩
      | skipped span =>
        obtain ⟨os, hos, hend⟩ := ih h
        exact ⟨_, .cons ho hos, fun hr => List.mem_cons_of_mem _ (hend hr)⟩
      | exhausted =>
        cases h
        exact ⟨_, .cons ho (.nil _), fun _ => List.mem_cons_self⟩
      | failed f => cases h
    · cases h

theorem works_of_steps {depth : Nat} (h : Steps (Run.perform depth) j s os u) : s.Works u := by
  induction h with
  | nil s => exact .refl
  | cons first rest ih => exact (moves_streamStepWith (moves_perform depth) j first).trans ih

theorem Steps.trans {os' : List Outcome} (h : Steps perform j s os t)
    (h' : Steps perform j t os' u) : Steps perform j s (os ++ os') u := by
  induction h with
  | nil s => exact h'
  | cons first rest ih => exact .cons first (ih h')

/-- Collecting all tokens makes steps of the stream up to its end. -/
theorem steps_of_pairs {depth turns : Nat} {before ps : List (Value × Span)}
    (h : pairsFrom depth j turns before s = some (.ok ps, u)) :
    ∃ os, Steps (Run.perform depth) j s os u ∧ .exhausted ∈ os := by
  induction turns generalizing s before with
  | zero => cases h
  | succ turns ih =>
    unfold pairsFrom at h
    obtain ⟨r, t, hr, h⟩ | ⟨f, -, h⟩ := bind_eq_some h
    · obtain ⟨os, hos, hend⟩ := steps_of_next hr
      cases r with
      | some pair =>
        obtain ⟨os', hos', hend'⟩ := ih h
        exact ⟨os ++ os', hos.trans hos', List.mem_append_right _ hend'⟩
      | none =>
        cases h
        exact ⟨os, hos, hend rfl⟩
    · cases h

end Run

open Run (Steps Undisturbed)

/-- From when a cursor is opened on a text, whatever callers and actions do with any engines and
streams, at most one match of a rule for the end is made on it, behind the last character. A stream
that is stepped to its end and that nothing disturbs makes one exactly if its table ends so, and makes
it last. -/
theorem eof_fires_once {text : List Char} {i : Nat} {s : Session} (hi : i < s.cursors.size)
    (hopen : s.cursor i = .ofText text) (built : ∀ table, s.Holds table → table.Built) :
    (∀ (α : Type) (p : Script α) (depth : Nat) (r : Except Fault α) (t : Session),
      p.run (Run.perform depth) s = some (r, t) → s.Works t) ∧
    ∀ t, s.Works t →
      (∃ es, entriesOn i t.journal = entriesOn i s.journal ++ es ∧
        es.countP Entry.endsInput ≤ 1 ∧
        ∀ e ∈ es, e.endsInput = true →
          e.text = [] ∧ e.span = .spot (pointAt text text.length) (utf8 text).size) ∧
      (∀ table rule taken span, s.Holds table →
        (table.attempt (t.cursor i)).1 = .fired rule taken span → rule.kind = .eof →
          (t.cursor i).ahead = []) ∧
      ∀ a j, t.streams[j]? = some a → a.cursor = i → a.done = false → a.error = none →
        (t.cursor i).exhausted = false →
        (∀ (perform : Performer) (os : List Outcome) (u : Session), Undisturbed perform j a t →
          Steps perform j t os u → .exhausted ∈ os →
          ∃ es, entriesOn i u.journal = entriesOn i t.journal ++ es ∧
            (es.countP Entry.endsInput = 1 ↔ a.table.EndsInEof) ∧
            (es.countP Entry.endsInput = 1 → ∃ fs e, es = fs ++ [e] ∧ e.endsInput = true)) ∧
        ∀ depth ps u, Run.pairs depth j t = some (.ok ps, u) →
          ∃ os, Steps (Run.perform depth) j t os u ∧ .exhausted ∈ os := by
  have hsound : (s.cursor i).Sound := hopen ▸ Cursor.sound_ofText text
  have htext : (s.cursor i).text = text := by rw [hopen, Cursor.text_ofText]
  refine ⟨fun α p depth r t => Run.works_of_script, fun t works => ⟨?_, ?_, ?_⟩⟩
  · obtain ⟨es, hes, hcount⟩ := works.count_add_le Cursor.pays_endsLeft built hi
    obtain ⟨fs, hfs, hlast⟩ := works.standsLast hi hsound built
    obtain rfl := List.append_cancel_left (hes.symm.trans hfs)
    rw [htext] at hlast
    refine ⟨es, hes, ?_, hlast⟩
    have hone : (s.cursor i).endsLeft ≤ 1 := by
      unfold Cursor.endsLeft
      split <;> decide
    omega
  · intro table rule taken span held hfired hkind
    exact ((built table held).ahead_of_fired_eof hfired hkind).1
  · rintro a j ha rfl hdone herror hex
    refine ⟨fun perform os u hquiet hsteps hend => ?_, fun depth ps u => Run.steps_of_pairs⟩
    have hbuilt : a.table.Built := built _ (works.holds (.inr (.inr ⟨j, a, ha, rfl⟩)))
    obtain ⟨hit, gs, -, hmoves⟩ := works.leads.moves hi
    have hc : t.cursors[a.cursor]? = some (t.cursor a.cursor) := by
      rw [Session.cursor, Array.getElem?_eq_getElem hit, Option.getD_some]
    obtain ⟨es, hes, hcount⟩ :=
      hsteps.entries_of_end hbuilt hend hquiet hc ha hdone herror (hmoves.sound hsound) hex
    refine ⟨es, hes, ?_⟩
    rcases hcount with ⟨fs, e, rfl, hfs, hlast, hends⟩ | ⟨hnone, hnot⟩
    · have hcount : (fs ++ [e]).countP Entry.endsInput = 1 := by
        rw [List.countP_append, hfs, List.countP_singleton, if_pos hlast]
      exact ⟨iff_of_true hcount hends, fun _ => ⟨fs, e, rfl, hlast⟩⟩
    · have hcount : es.countP Entry.endsInput ≠ 1 := by
        rw [hnone]
        exact Nat.zero_ne_one
      exact ⟨iff_of_false hcount hnot, fun hone => absurd hone hcount⟩

/-- Dashes up to the end, which is a token too. -/
def dashedLine : RuleTable := ⟨[
  ⟨0, .regex .pattern ['-'] ⟨.char 45 .exact, 1⟩,
    plainAction "dash" fun text => .done (.text text), ⟨1, [], [], false⟩⟩,
  ⟨1, .eof, plainAction "end" fun text => .done (.text text), ⟨1, [], [], false⟩⟩]⟩

theorem built_dashedLine : dashedLine.Built :=
  ⟨.bare, .declarations [
    .rule (.text ['-']) (.action (plainAction "dash" fun text => .done (.text text))),
    .rule (.kind .eof) (.action (plainAction "end" fun text => .done (.text text)))], [], rfl⟩

/-- A session with a stream of dashes before two of them. -/
def dashedSession : Session :=
  { Session.empty with
    cursors := #[.ofText ['-', '-']]
    streams := #[⟨dashedLine, 0, [], false, none⟩] }

/-- Two dashes are read, then the end. -/
theorem eof_fires_once_dashes :
    (∀ table, dashedSession.Holds table → table.Built) ∧
    (∀ depth, Undisturbed (Run.perform depth) 0 ⟨dashedLine, 0, [], false, none⟩ dashedSession) ∧
    dashedLine.EndsInEof ∧
    ∃ ps u, Run.pairs 4 0 dashedSession = some (.ok ps, u) ∧
      ∃ es, entriesOn 0 u.journal = es ∧ es.countP Entry.endsInput = 1 ∧
        ∃ fs e, es = fs ++ [e] ∧ e.endsInput = true ∧ e.span = .spot ⟨1, 3⟩ 2 := by
  have built : ∀ table, dashedSession.Holds table → table.Built := by
    rintro table (⟨name, hname⟩ | ⟨name, hname⟩ | ⟨j, a, ha, rfl⟩)
    · cases hname
    · cases hname
    · cases j with
      | zero =>
        cases ha
        exact built_dashedLine
      | succ j => cases ha
  have hquiet (depth : Nat) :
      Undisturbed (Run.perform depth) 0 ⟨dashedLine, 0, [], false, none⟩ dashedSession := by
    refine Run.undisturbed_of_idle fun rule hrule text span s r u hinvoke => ?_
    have hcall : rule.invoke (Run.perform depth) text 0 span [] s =
        some (.ok (.text text), s) := by
      simp only [dashedLine, List.mem_cons, List.not_mem_nil, or_false] at hrule
      rcases hrule with rfl | rfl <;> rfl
    rw [hcall] at hinvoke
    cases hinvoke
    rfl
  have hends : dashedLine.EndsInEof := by
    refine ⟨[dashedLine.rules[0]], dashedLine.rules[1], [], rfl, rfl, fun q hq => ?_⟩
    obtain rfl := List.mem_singleton.mp hq
    refine ⟨nofun, fun source program htrigger => ?_⟩
    cases htrigger
    decide
  have hsome : ((Run.pairs 4 0 dashedSession).any fun p => p.1.isOk) = true := by decide +kernel
  obtain ⟨⟨r, u⟩, hrun, hok⟩ := (Option.any_eq_true _ _).mp hsome
  cases r with
  | error f => cases hok
  | ok ps =>
    obtain ⟨-, hworks⟩ := eof_fires_once (i := 0) (by decide) rfl built
    obtain ⟨-, -, hstream⟩ := hworks dashedSession .refl
    obtain ⟨hends', hpairs⟩ := hstream _ 0 rfl rfl rfl rfl rfl
    obtain ⟨os, hsteps, hend⟩ := hpairs 4 ps u hrun
    obtain ⟨es, hes, hone, hlast⟩ := hends' _ os u (hquiet 4) hsteps hend
    obtain ⟨fs, e, rfl, he⟩ := hlast (hone.mpr hends)
    obtain ⟨⟨gs, hgs, -, hstand⟩, -⟩ := hworks u (Run.works_of_steps hsteps)
    obtain rfl := List.append_cancel_left (hes.symm.trans hgs)
    have hspan := (hstand e (List.mem_append_right _ List.mem_cons_self) he).2
    exact ⟨built, hquiet, hends, ps, u, hrun, _, hes, hone.mpr hends, fs, e, rfl, he, hspan⟩

end FirstMatch
