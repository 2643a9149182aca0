import FirstMatch.Proofs.ErrorNumbers
import FirstMatch.Proofs.Unjournaled

/-!
Runs under other numbers. From sessions that are the same but for the numbers of errors, actions that take
these for names come to results and sessions that are the same but for the numbers of errors.
-/

namespace FirstMatch

open Relator (BiUnique)

theorem Session.nextSerial_tried (s : Session) (table : RuleTable) (i : Nat) :
    (s.tried table i).nextSerial = s.nextSerial := by
  unfold tried
  split <;> rfl

namespace Session.Renamed

variable {R : Renaming} {s t : Session}

theorem cursor (h : s.Renamed R t) (i : Nat) : t.cursor i = s.cursor i := by
  unfold Session.cursor
  rw [h.cursors]

theorem stream?_cases (h : s.Renamed R t) (j : Nat) :
    (s.stream? j = none ∧ t.stream? j = none) ∨
      ∃ a b, s.stream? j = some a ∧ t.stream? j = some b ∧ a.Renamed R b := by
  have hj := h.streams j
  generalize s.stream? j = x at hj
  generalize t.stream? j = y at hj
  cases hj with
  | none => exact .inl ⟨rfl, rfl⟩
  | some hab => exact .inr ⟨_, _, rfl, rfl, hab⟩

theorem setCursor (h : s.Renamed R t) (i : Nat) (c : Cursor) :
    (s.setCursor i c).Renamed R (t.setCursor i c) :=
  { h with cursors := congrArg (·.setIfInBounds i c) h.cursors }

theorem tried (h : s.Renamed R t) (table : RuleTable) (i : Nat) :
    (s.tried table i).Renamed R (t.tried table i) := by
  unfold Session.tried
  rw [h.cursor i]
  split
  · exact { h.setCursor i _ with journal := congrArg (_ :: ·) h.journal }
  · exact h.setCursor i _

theorem advanced (h : s.Renamed R t) (i n : Nat) : (s.advanced i n).Renamed R (t.advanced i n) := by
  unfold Session.advanced
  rw [h.cursor i]
  exact { h.setCursor i _ with journal := congrArg (_ :: ·) h.journal }

theorem setStream (h : s.Renamed R t) {j : Nat} {a b : Stream} (hab : a.Renamed R b)
    (deed : Deed s (s.setStream j a)) : (s.setStream j a).Renamed R (t.setStream j b) :=
  { h with
    size := by
      rw [size_setStream, size_setStream]
      exact h.size
    streams := fun k => by
      have hsize : t.streams.size = s.streams.size := h.size
      simp only [Session.setStream, stream?, Array.getElem?_setIfInBounds, hsize]
      split
      · split
        · exact .some hab
        · exact .none
      · exact h.streams k
    indifferent := fun table held => h.indifferent table (deed.holds held) }

theorem recorded (h : s.Renamed R t) {j : Nat} {a b : Stream} {o p : Outcome} (ha : s.stream? j = some a)
    (hab : a.Renamed R b) (hop : o.Renamed R p) :
    (s.recorded j a o).Renamed R (t.recorded j b p) := by
  cases hop with
  | failed fault => exact h.setStream { hab with error := .some fault } (.streamFailed s j a _ ha)
  | exhausted => exact h.setStream { hab with done := rfl } (.streamEnded s j a ha)
  | emitted token location => exact h
  | skipped location => exact h

theorem streamOpened (h : s.Renamed R t) {table : RuleTable} (held : s.Holds table) (i : Nat)
    {c d : Arguments} (hcd : RenamedArguments R c d) :
    Session.Renamed R { s with streams := s.streams.push ⟨table, i, c, false, none⟩ }
      { t with streams := t.streams.push ⟨table, i, d, false, none⟩ } :=
  { h with
    size := by
      rw [Array.size_push, Array.size_push]
      exact congrArg (· + 1) h.size
    streams := fun k => by
      have hsize : t.streams.size = s.streams.size := h.size
      simp only [stream?, Array.getElem?_push, hsize]
      split
      · exact .some ⟨rfl, rfl, hcd, rfl, .none⟩
      · exact h.streams k
    indifferent := fun other held' => h.indifferent other ((Deed.streamOpened s table held i c).holds held') }

/-- The next numbers are given to each other. -/
theorem numbered (h : s.Renamed R t) :
    Session.Renamed (R.extend s.nextSerial t.nextSerial) { s with nextSerial := s.nextSerial + 1 }
      { t with nextSerial := t.nextSerial + 1 } :=
  { h with
    streams := fun k => rel_mono (fun _ _ => Stream.Renamed.mono (R.le_extend _ _)) (h.streams k)
    given := by
      rintro m n (hmn | ⟨rfl, rfl⟩)
      · exact ⟨Nat.lt_succ_of_lt (h.given m n hmn).1, Nat.lt_succ_of_lt (h.given m n hmn).2⟩
      · exact ⟨Nat.lt_succ_self _, Nat.lt_succ_self _⟩
    unique := Renaming.unique_extend h.unique (fun n hn => Nat.lt_irrefl _ (h.given _ n hn).1)
      fun m hm => Nat.lt_irrefl _ (h.given m _ hm).2 }

/-- A number may be spent for nothing. -/
theorem spent (h : s.Renamed R t) : Session.Renamed R { s with nextSerial := s.nextSerial + 1 } t :=
  { h with given := fun m n hmn => ⟨Nat.lt_succ_of_lt (h.given m n hmn).1, (h.given m n hmn).2⟩ }

theorem textOpened (h : s.Renamed R t) (text : List Char) :
    Session.Renamed R { s with cursors := s.cursors.push (.ofText text) }
      { t with cursors := t.cursors.push (.ofText text) } :=
  { h with cursors := congrArg (Array.push · (.ofText text)) h.cursors }

theorem countCall (h : s.Renamed R t) (action : Nat) :
    (s.countCall action).Renamed R (t.countCall action) :=
  { h with
    calls := by
      have hcalls : t.calls = s.calls := h.calls
      simp only [Session.countCall, callCount, hcalls] }

end Session.Renamed

/-- Noting errors changes nothing else. -/
theorem Session.exists_cited (s : Session) (f : Fault) : ∃ cited, s.cite f = { s with cited := cited } := by
  have hnote (u : Session) (n : Nat) : ∃ cited, u.note n = { u with cited := cited } := by
    unfold note
    split
    · exact ⟨u.cited, rfl⟩
    · exact ⟨n :: u.cited, rfl⟩
  induction f generalizing s with
  | unmatched n character location => exact hnote s n
  | action n cause location rule caused ih =>
    obtain ⟨cited, hn⟩ := hnote s n
    obtain ⟨cited', hcause⟩ := ih (s.note n)
    exact ⟨cited', by rw [cite, hcause, hn]⟩
  | _ => exact ⟨s.cited, rfl⟩

theorem Session.Renamed.cited {R : Renaming} {s t : Session} (h : s.Renamed R t) (f g : Fault) :
    (s.cite f).Renamed R (t.cite g) := by
  obtain ⟨cited, hs⟩ := s.exists_cited f
  obtain ⟨cited', ht⟩ := t.exists_cited g
  rw [hs, ht]
  exact { h with }

namespace Run

variable {α β γ δ : Type}

/-- Related results and the same session, under numbers that have been given meanwhile. -/
def Corresponds (A : Renaming → α → β → Prop) (R : Renaming) (p : Except Fault α × Session)
    (q : Except Fault β × Session) : Prop :=
  ∃ S, R ≤ S ∧ RenamedResult A S p.1 q.1 ∧ p.2.Renamed S q.2

/-- From sessions that are the same under other numbers, the runs come to related results. -/
def Renames (A : Renaming → α → β → Prop) (R : Renaming) (x : Run α) (y : Run β) : Prop :=
  ∀ S, R ≤ S → ∀ s t, s.Renamed S t → Option.Rel (Corresponds A S) (x s) (y t)

variable {A : Renaming → α → β → Prop} {B : Renaming → γ → δ → Prop} {R : Renaming}

theorem corresponds_ok {s t : Session} {a : α} {b : β} (h : s.Renamed R t) (hab : A R a b) :
    Corresponds A R (.ok a, s) (.ok b, t) :=
  ⟨R, le_refl R, .ok hab, h⟩

theorem corresponds_error {s t : Session} {f g : Fault} (h : s.Renamed R t) (hfg : f.Renamed R g) :
    Corresponds A R (.error f, s) (.error g, t) :=
  ⟨R, le_refl R, .error hfg, h⟩

theorem Corresponds.back {S : Renaming} {p : Except Fault α × Session} {q : Except Fault β × Session}
    (hRS : R ≤ S) (h : Corresponds A S p q) : Corresponds A R p q := by
  obtain ⟨T, hST, hresult, hsession⟩ := h
  exact ⟨T, hRS.trans hST, hresult, hsession⟩

theorem renames_unfinished : Renames A R (unfinished : Run α) (unfinished : Run β) :=
  fun _ _ _ _ _ => .none

theorem renames_throw {f g : Fault} (h : f.Renamed R g) : Renames A R (throw f : Run α) (throw g : Run β) :=
  fun _ hS _ _ hst => .some (corresponds_error hst (h.mono hS))

theorem renames_pure {a : α} {b : β} (h : ∀ S, R ≤ S → A S a b) :
    Renames A R (pure a : Run α) (pure b : Run β) :=
  fun S hS _ _ hst => .some (corresponds_ok hst (h S hS))

/-- What follows goes on under the numbers that have been given. -/
theorem renames_bind {x : Run α} {y : Run β} {k : α → Run γ} {l : β → Run δ} (hx : Renames A R x y)
    (hk : ∀ S, R ≤ S → BiUnique S → ∀ a b, A S a b → Renames B S (k a) (l b)) :
    Renames B R (x >>= k) (y >>= l) := by
  intro S hS s t hst
  have h := hx S hS s t hst
  rw [bind_apply, bind_apply]
  generalize x s = p at h
  generalize y t = q at h
  cases h with
  | none => exact .none
  | @some p q hpq =>
    obtain ⟨r, u⟩ := p
    obtain ⟨r', v⟩ := q
    obtain ⟨T, hT, hresult, huv⟩ := hpq
    cases hresult with
    | ok hab =>
      have hnext := hk T (hS.trans hT) huv.unique _ _ hab T (le_refl T) u v huv
      exact rel_mono (fun _ _ => Corresponds.back hT) hnext
    | error hfg => exact .some ⟨T, hT, .error hfg, huv⟩

theorem renames_outcome {x : Run α} {y : Run β} (hx : Renames A R x y) :
    Renames (RenamedResult A) R x.outcome y.outcome := fun S hS s t hst =>
  rel_map (hx S hS s t hst) fun _ _ hpq => by
    obtain ⟨T, hT, hresult, huv⟩ := hpq
    exact ⟨T, hT, .ok hresult, huv⟩

/-- The same is found under a name in the same list. -/
theorem renames_find {φ : Session → List (String × α)} (name : String)
    (same : ∀ S s t, s.Renamed S t → φ t = φ s) :
    Renames (fun _ a b => a = b) R (do find (φ (← get)) name) (do find (φ (← get)) name) := by
  intro S hS s t hst
  rw [get_bind_apply, get_bind_apply, same S s t hst, find_apply, find_apply]
  cases (φ s).lookup name with
  | none => exact .some (corresponds_error hst (.other _ rfl))
  | some a => exact .some (corresponds_ok hst rfl)

/-- The table of an engine or a lexer is one that is held, so its actions take numbers for names. -/
theorem renames_engine (name : String) :
    Renames (fun _ a b => b = a ∧ a.Indifferent) R (engine name) (engine name) := by
  intro S hS s t hst
  unfold engine lexer
  rw [get_bind_apply, get_bind_apply, hst.engines]
  cases hengine : s.engines.lookup name with
  | some table =>
    have held : s.Holds table := .inr (.inl ⟨name, mem_of_lookup hengine⟩)
    exact .some (corresponds_ok hst ⟨rfl, hst.indifferent table held⟩)
  | none =>
    dsimp only
    rw [get_bind_apply, get_bind_apply, hst.lexers, find_apply, find_apply]
    cases hlexer : s.lexers.lookup name with
    | none => exact .some (corresponds_error hst (.other _ rfl))
    | some table =>
      have held : s.Holds table := .inl ⟨name, mem_of_lookup hlexer⟩
      exact .some (corresponds_ok hst ⟨rfl, hst.indifferent table held⟩)

theorem renames_stream (j : Nat) :
    Renames (fun S a b => a.Renamed S b ∧ a.table.Indifferent) R (stream j) (stream j) := by
  intro S hS s t hst
  unfold stream
  rw [get_bind_apply, get_bind_apply]
  obtain ⟨ha, hb⟩ | ⟨a, b, ha, hb, hab⟩ := hst.stream?_cases j
  · rw [ha, hb]
    exact .some (corresponds_error hst (.other _ rfl))
  · rw [ha, hb]
    have held : s.Holds a.table := .inr (.inr ⟨j, a, ha, rfl⟩)
    exact .some (corresponds_ok hst ⟨hab, hst.indifferent a.table held⟩)

theorem renames_settle (j : Nat) {o p : Outcome} (h : o.Renamed R p) :
    Renames (fun _ _ _ => True) R (settle j o) (settle j p) := by
  intro S hS s t hst
  obtain ⟨ha, hb⟩ | ⟨a, b, ha, hb, hab⟩ := hst.stream?_cases j
  · have hnone {u : Session} (hu : u.stream? j = none) (q : Outcome) :
        settle j q u = some (.error (.raised "KeyError" none), u) :=
      bind_of_error (stream_of_none hu) _
    rw [hnone ha, hnone hb]
    exact .some (corresponds_error hst (.other _ rfl))
  · rw [settle_apply ha, settle_apply hb]
    exact .some (corresponds_ok (hst.recorded ha hab (h.mono hS)) trivial)

/-- Requests are answered alike under other numbers. -/
def Indifferent (perform : Performer) : Prop :=
  ∀ (R : Renaming) (q r : Request), q.Renamed R r →
    Renames (fun S => q.Answered S r) R (perform q) (perform r)

section

variable {perform : Performer} (hp : Indifferent perform)

include hp

theorem renames_script (mono : ∀ S T, S ≤ T → ∀ a b, A S a b → A T a b) {p : Script α}
    {q : Script β} (h : Script.Renamed A R p q) : Renames A R (p.run perform) (q.run perform) := by
  induction h with
  | done related => exact renames_pure fun S hS => mono _ S hS _ _ related
  | fail renamed => exact renames_throw renamed
  | ask request _ ih =>
    refine renames_bind (renames_outcome (hp _ _ _ request)) fun S hS unique a b hab => ?_
    exact ih S hS unique a b hab
  | stall => exact renames_unfinished

theorem renames_invoke {r : CompiledRule} (hr : r.Indifferent) (text : List Char) (i : Nat) (span : Span)
    {c d : Arguments} (hcd : RenamedArguments R c d) :
    Renames Value.Renamed R (r.invoke perform text i span c) (r.invoke perform text i span d) := by
  intro S hS s t hst
  have hcall := hr S hst.unique c d (hcd.mono hS) text i span
  unfold CompiledRule.invoke
  generalize r.script text i span c = x at hcall
  generalize r.script text i span d = y at hcall
  cases hcall with
  | error flaw => exact .some (corresponds_error hst (.other _ rfl))
  | ok hpq =>
    have hscript := renames_script (A := Value.Renamed) hp (fun _ _ hle _ _ => .mono hle) hpq
    exact hscript S (le_refl S) s t hst

/-- A step of a table whose actions take the numbers of errors for names. -/
theorem renames_stepWith {table : RuleTable} (hT : table.Indifferent) (i : Nat) {c d : Arguments}
    (hcd : RenamedArguments R c d) :
    Renames Outcome.Renamed R (table.stepWith perform i c) (table.stepWith perform i d) := by
  intro S hS s t hst
  -- The cursor is the same, so the same rule fires; only what its action is given has other numbers.
  have htried := hst.tried table i
  rw [RuleTable.stepWith_apply, RuleTable.stepWith_apply, hst.cursor i]
  cases hattempt : (table.attempt (s.cursor i)).1 with
  | exhausted => exact .some (corresponds_ok htried .exhausted)
  | unmatched character location =>
    have hnumbered := htried.numbered
    rw [Session.nextSerial_tried, Session.nextSerial_tried] at hnumbered
    exact .some ⟨_, S.le_extend _ _, .ok (.failed (.unmatched (S.extend_self _ _) _ _)), hnumbered⟩
  | overrun o => exact .some (corresponds_error htried (.other _ rfl))
  | tangled => exact .some (corresponds_error htried (.other _ rfl))
  | fired rule text span =>
    have hrule := hT rule (RuleTable.mem_of_fired hattempt)
    have hcall := renames_invoke hp hrule text i span (hcd.mono hS) S (le_refl S) _ _ htried
    dsimp only
    generalize rule.invoke perform text i span c (s.tried table i) = p at hcall
    generalize rule.invoke perform text i span d (t.tried table i) = q at hcall
    cases hcall with
    | none => exact .none
    | @some p q hpq =>
      obtain ⟨r, u⟩ := p
      obtain ⟨r', v⟩ := q
      obtain ⟨T, hT', hresult, huv⟩ := hpq
      cases hresult with
      | ok hvalues => exact .some ⟨T, hT', .ok (Outcome.renamed_ofResult hvalues span), huv⟩
      | error hfg =>
        dsimp only
        rw [hfg.isOrdinary]
        split
        · have hle := T.le_extend u.nextSerial v.nextSerial
          have hself := T.extend_self u.nextSerial v.nextSerial
          exact .some ⟨_, hT'.trans hle, .ok (.failed (.action hself (hfg.mono hle) span _ true)),
            huv.numbered⟩
        · exact .some ⟨T, hT', .error hfg, huv⟩

theorem renames_streamStepWith (j : Nat) :
    Renames Outcome.Renamed R (streamStepWith perform j) (streamStepWith perform j) := by
  refine renames_bind (renames_stream j) fun S hS _ a b hab => ?_
  obtain ⟨hab, hT⟩ := hab
  obtain ⟨table, i, context, done, error⟩ := a
  obtain ⟨table', i', context', done', error'⟩ := b
  obtain ⟨rfl, rfl, hcontext, rfl, herror⟩ := hab
  cases herror with
  | some hfg => exact renames_pure fun T hT' => .failed (hfg.mono hT')
  | none =>
    cases done' with
    | true => exact renames_pure fun _ _ => .exhausted
    | false =>
      refine renames_bind (renames_stepWith hp hT i' hcontext) fun T _ _ o p hop => ?_
      exact renames_bind (renames_settle j hop) fun U hU _ _ _ _ =>
        renames_pure fun V hV => hop.mono (hU.trans hV)

theorem renames_nextWith (j turns : Nat) :
    Renames Request.SameToken R (nextWith perform j turns) (nextWith perform j turns) := by
  induction turns generalizing R with
  | zero => exact renames_unfinished
  | succ turns ih =>
    refine renames_bind (renames_streamStepWith hp j) fun S hS _ o p hop => ?_
    cases hop with
    | emitted token location => exact renames_pure fun T hT => .some ⟨token.mono hT, rfl⟩
    | skipped location => exact ih
    | exhausted => exact renames_pure fun _ _ => .none
    | failed fault => exact renames_throw fault

end

theorem renames_advance (i : Nat) (n : Int) :
    Renames (fun _ a b => a = b) R (advance i n) (advance i n) := by
  intro S hS s t hst
  rw [advance_apply, advance_apply, hst.cursor i]
  split
  · exact .some (corresponds_error hst (.other _ rfl))
  · exact .some (corresponds_ok (hst.advanced i n.toNat) rfl)

theorem renames_openStream (name : String) (i : Nat) {c d : Arguments} (hcd : RenamedArguments R c d) :
    Renames (fun _ a b => a = b) R (perform 0 (.openStream name i c)) (perform 0 (.openStream name i d)) := by
  intro S hS s t hst
  have hlookups : t.lexers.lookup name = s.lexers.lookup name := by rw [hst.lexers]
  rw [perform_openStream_apply, perform_openStream_apply, hlookups, hcd.names]
  cases hlookup : s.lexers.lookup name with
  | none => exact .some (corresponds_error hst (.other _ rfl))
  | some table =>
    dsimp only
    cases table.checkCall "__call__" (c.map (·.1)) with
    | error flaw => exact .some (corresponds_error hst (.other _ rfl))
    | ok _ =>
      have held : s.Holds table := .inl ⟨name, mem_of_lookup hlookup⟩
      exact .some (corresponds_ok (hst.streamOpened held i (hcd.mono hS)) hst.size.symm)

theorem indifferent_perform_zero : Indifferent (perform 0) := by
  intro R q r hqr
  cases hqr with
  | openStream name i hcd => exact renames_openStream name i hcd
  | step name i hcd => exact renames_unfinished
  | cite hfg => exact fun S hS s t hst => .some (corresponds_ok (hst.cited _ _) trivial)
  | plain q plain =>
    cases q with
    | advance i n => exact renames_advance i n
    | look i => exact fun S hS s t hst => .some (corresponds_ok hst (hst.cursor i).symm)
    | mark i =>
      intro S hS s t hst
      have hmarked := hst.setCursor i (s.cursor i).markIfEmpty
      have hanswer := congrArg (·.markIfEmpty.exhausted) (hst.cursor i).symm
      exact .some (corresponds_ok (hst.cursor i ▸ hmarked) hanswer)
    | cursorNamed name => exact renames_find name (fun _ _ _ h => h.cursorNames)
    | openText text =>
      intro S hS s t hst
      exact .some (corresponds_ok (hst.textOpened text) (congrArg Array.size hst.cursors.symm))
    | streamStep j => exact renames_unfinished
    | next j => exact renames_unfinished
    | streamNamed name => exact renames_find name (fun _ _ _ h => h.streamNames)
    | countCall action =>
      intro S hS s t hst
      have hcounted := hst.countCall action
      have hanswer := congrArg (fun calls => (calls.lookup action).getD 0) hcounted.calls.symm
      exact .some (corresponds_ok hcounted hanswer)
    | openStream name i c => cases plain
    | step name i c => cases plain
    | cite f => cases plain

/-- However deep steps may be nested, requests are answered alike under other numbers. -/
theorem indifferent_perform (depth : Nat) : Indifferent (perform depth) := by
  induction depth with
  | zero => exact indifferent_perform_zero
  | succ depth ih =>
    intro R q r hqr
    cases hqr with
    | openStream name i hcd => exact renames_openStream name i hcd
    | step name i hcd =>
      refine renames_bind (renames_engine name) fun S hS _ a b hab => ?_
      obtain ⟨rfl, hT⟩ := hab
      exact renames_stepWith ih hT i (hcd.mono hS)
    | cite hfg => exact indifferent_perform_zero R _ _ (.cite hfg)
    | plain q plain =>
      cases q with
      | streamStep j => exact renames_streamStepWith ih j
      | next j => exact renames_nextWith ih j depth
      | advance i n => exact indifferent_perform_zero R _ _ (.plain (.advance i n) rfl)
      | look i => exact indifferent_perform_zero R _ _ (.plain (.look i) rfl)
      | mark i => exact indifferent_perform_zero R _ _ (.plain (.mark i) rfl)
      | cursorNamed name => exact indifferent_perform_zero R _ _ (.plain (.cursorNamed name) rfl)
      | openText text => exact indifferent_perform_zero R _ _ (.plain (.openText text) rfl)
      | streamNamed name => exact indifferent_perform_zero R _ _ (.plain (.streamNamed name) rfl)
      | countCall action => exact indifferent_perform_zero R _ _ (.plain (.countCall action) rfl)
      | openStream name i c => cases plain
      | step name i c => cases plain
      | cite f => cases plain

end Run

end FirstMatch
