import FirstMatch.Proofs.StreamSteps

/-!
A stream depends on the remaining text only. Of two streams of one table, one goes on at a cursor in the
middle of a text, and the other reads what is left there as a text of its own. As long as the actions use
nothing but their text and the lexer arguments, both come to the same outcomes, whose locations are
shifted by the place where the first one began.
-/

namespace FirstMatch

/-- Where a point of a text stands when the text begins at a place. Only on the first line does the
column of that place count. -/
def Point.shifted (base : Place) (p : Point) : Point :=
  ⟨base.line + p.line - 1, if p.line = 1 then base.col + p.col - 1 else p.col⟩

def Span.shifted (base : Place) (s : Span) : Span :=
  ⟨s.start.shifted base, s.stop.shifted base, (base.byte + s.bytes.1, base.byte + s.bytes.2)⟩

/-- An error with its location shifted. Its cause is the error that the action has raised, which says
nothing about where the text begins. -/
def Fault.shifted (base : Place) : Fault → Fault
  | unmatched n character location => unmatched n character (location.shifted base)
  | action n cause location rule caused => action n cause (location.shifted base) rule caused
  | f => f

def Outcome.shifted (base : Place) : Outcome → Outcome
  | emitted token location => emitted token (location.shifted base)
  | skipped location => skipped (location.shifted base)
  | exhausted => exhausted
  | failed f => failed (f.shifted base)

def Attempt.shifted (base : Place) : Attempt → Attempt
  | unmatched character location => unmatched character (location.shifted base)
  | fired rule text span => fired rule text (span.shifted base)
  | a => a

/-- An error without the numbers that tell errors of the engine apart. -/
def Fault.unnumbered : Fault → Fault
  | unmatched _ character location => unmatched 0 character location
  | action _ cause location rule caused => action 0 cause.unnumbered location rule caused
  | f => f

namespace Value

mutual

/-- A value without the numbers of the errors in it. -/
def unnumbered : Value → Value
  | list items => list (unnumberedAll items)
  | tuple items => tuple (unnumberedAll items)
  | mapping entries => mapping (unnumberedEntries entries)
  | fault f => fault f.unnumbered
  | v => v

def unnumberedAll : List Value → List Value
  | [] => []
  | v :: vs => v.unnumbered :: unnumberedAll vs

def unnumberedEntries : List (Value × Value) → List (Value × Value)
  | [] => []
  | (k, v) :: es => (k.unnumbered, v.unnumbered) :: unnumberedEntries es

end

end Value

def Outcome.unnumbered : Outcome → Outcome
  | emitted token location => emitted token.unnumbered location
  | skipped location => skipped location
  | exhausted => exhausted
  | failed f => failed f.unnumbered

/-- A result or an error without numbers. -/
def Fault.clear {α : Type} (clearResult : α → α) : Except Fault α → Except Fault α
  | .ok a => .ok (clearResult a)
  | .error f => .error f.unnumbered

/-- The actions of a table use their text and the given lexer arguments only: what a call comes to is a
function of the rule and the text, whichever cursor, span and session there are, and neither the cursor
nor any stream is touched. -/
structure RuleTable.ReadsText (t : RuleTable) (perform : Performer) (context : Arguments)
    (s₀ : Session) (act : CompiledRule → List Char → Option (Except Fault Value)) : Prop where
  call : ∀ r ∈ t.rules, ∀ text i span s, s.lexers = s₀.lexers → s.engines = s₀.engines →
    ((r.invoke perform text i span context s).map fun p => Fault.clear Value.unnumbered p.1) =
      act r text
  apart : ∀ r ∈ t.rules, ∀ text i span s v u, s.lexers = s₀.lexers → s.engines = s₀.engines →
    r.invoke perform text i span context s = some (v, u) →
      ∀ j, i < s.cursors.size → j < s.streams.size → s.Untouched i j u

/-- A cursor in a text, and one that reads from the base of the first as if the text began there. -/
structure Cursor.Continues (base : Place) (c d : Cursor) : Prop where
  ahead_eq : c.ahead = d.ahead
  exhausted_eq : c.exhausted = d.exhausted
  place_eq : c.place = base.after d.behind.reverse
  sound : d.Sound

/-- A stream on one cursor goes along with a stream on the other. -/
structure Session.Follows (t : RuleTable) (context : Arguments) (s₀ : Session) (base : Place)
    (i j i' j' : Nat) (s s' : Session) : Prop where
  cursors : ∃ c d, s.cursors[i]? = some c ∧ s'.cursors[i']? = some d ∧ c.Continues base d
  streams : ∃ done e e', s.streams[j]? = some ⟨t, i, context, done, e⟩ ∧
    s'.streams[j']? = some ⟨t, i', context, done, e'⟩ ∧
    e.map Fault.unnumbered = e'.map fun f => (f.shifted base).unnumbered
  lexers : s.lexers = s₀.lexers ∧ s'.lexers = s₀.lexers
  engines : s.engines = s₀.engines ∧ s'.engines = s₀.engines

namespace Place

theorem last_eq_after (p : Place) (cs : List Char) : p.last cs = p.after cs.dropLast := by
  induction cs using List.reverseRecOn with
  | nil => rfl
  | append_singleton cs c _ => rw [last_append_singleton, List.dropLast_concat]

/-- Before the first newline the column counts from that of the base, and behind it from one. -/
theorem line_col_after (base : Place) (cs : List Char) :
    (base.after cs).line + 1 = base.line + (start.after cs).line ∧
      ((start.after cs).line = 1 → (base.after cs).col + 1 = base.col + (start.after cs).col) ∧
      ((start.after cs).line ≠ 1 → (base.after cs).col = (start.after cs).col) := by
  induction cs using List.reverseRecOn with
  | nil => exact ⟨rfl, fun _ => rfl, fun h => absurd rfl h⟩
  | append_singleton cs c ih =>
    have hline := line_start_after cs
    obtain ⟨hl, hfirst, hlater⟩ := ih
    rw [after_concat, after_concat]
    unfold next
    split
    · dsimp only
      omega
    · dsimp only
      omega

/-- The line and the column after some characters that do not begin at the start. -/
theorem point_after (base : Place) (cs : List Char) :
    (base.after cs).point = (start.after cs).point.shifted base := by
  obtain ⟨hl, hfirst, hlater⟩ := line_col_after base cs
  unfold Point.shifted
  by_cases h : (start.after cs).point.line = 1
  · rw [if_pos h]
    simp only [point, Point.mk.injEq] at h ⊢
    omega
  · rw [if_neg h]
    simp only [point, Point.mk.injEq] at h ⊢
    omega

theorem byte_after_start (base : Place) (cs : List Char) :
    ((base.after cs).byte : Int) = base.byte + (start.after cs).byte := by
  rw [byte_after, byte_after]
  simp [start]

theorem spot_after (base : Place) (cs : List Char) :
    (base.after cs).spot = (start.after cs).spot.shifted base := by
  unfold spot
  rw [point_after, byte_after_start]
  rfl

theorem between_after (base : Place) (xs ys zs : List Char) :
    Span.between (base.after xs) (base.after ys) (base.after zs) =
      (Span.between (start.after xs) (start.after ys) (start.after zs)).shifted base := by
  unfold Span.between
  rw [point_after base xs, point_after base ys, byte_after_start base xs, byte_after_start base zs]
  rfl

end Place

namespace Cursor.Continues

variable {base : Place} {c d : Cursor}

theorem location_eq (h : c.Continues base d) : c.location = d.location.shifted base := by
  unfold Cursor.location
  rw [h.place_eq, h.sound.placed, Place.spot_after]

theorem markIfEmpty (h : c.Continues base d) : c.markIfEmpty.Continues base d.markIfEmpty where
  ahead_eq := h.ahead_eq
  exhausted_eq := by
    simp only [Cursor.markIfEmpty, Cursor.isEmpty, h.ahead_eq, h.exhausted_eq]
  place_eq := h.place_eq
  sound := h.sound.markIfEmpty

theorem move (h : c.Continues base d) (n : Nat) : (c.move n).Continues base (d.move n) where
  ahead_eq := by simp only [Cursor.move, h.ahead_eq]
  exhausted_eq := h.exhausted_eq
  place_eq := by
    simp only [Cursor.move, h.ahead_eq, h.place_eq, List.reverse_append, List.reverse_reverse,
      Place.after_append]
  sound := h.sound.move n

theorem spanOf_eq (h : c.Continues base d) (n : Nat) : c.spanOf n = (d.spanOf n).shifted base := by
  have hend := (h.move n).place_eq
  have hend' := (h.sound.move n).placed
  unfold Cursor.spanOf
  rw [hend, hend', h.place_eq, h.sound.placed, h.ahead_eq, Place.last_eq_after,
    Place.last_eq_after, ← Place.after_append, ← Place.after_append]
  exact Place.between_after ..

end Cursor.Continues

/-- Trying the rules sees the remaining text and the flag of the cursor only. -/
theorem RuleTable.attempt_continues (t : RuleTable) {base : Place} {c d : Cursor}
    (h : c.Continues base d) : (t.attempt c).1 = (t.attempt d).1.shifted base ∧
      (t.attempt c).2.Continues base (t.attempt d).2 := by
  cases hex : d.exhausted with
  | true =>
    have hex' : c.exhausted = true := h.exhausted_eq.trans hex
    rw [attempt, attempt, if_pos hex, if_pos hex']
    exact ⟨rfl, h⟩
  | false =>
    rw [t.attempt_eq hex, t.attempt_eq (h.exhausted_eq.trans hex), h.ahead_eq]
    cases t.leading d.ahead with
    | none =>
      cases d.ahead with
      | nil => exact ⟨rfl, h.markIfEmpty⟩
      | cons x xs =>
        refine ⟨?_, h.markIfEmpty⟩
        simp only [Attempt.shifted, h.location_eq]
    | some found =>
      obtain ⟨k, r, m⟩ := found
      cases m with
      | tangled => exact ⟨rfl, h.markIfEmpty⟩
      | length n =>
        refine ⟨?_, h.markIfEmpty.move n⟩
        simp only [Attempt.shifted, h.spanOf_eq]

/-- Results of two steps that are the same but for the base and for numbers. -/
def Outcome.Alike (base : Place) (r r' : Except Fault Outcome) : Prop :=
  Fault.clear unnumbered r = Fault.clear unnumbered (r'.map (shifted base))

theorem Outcome.map_clear_of_alike {base : Place} {rs rs' : List (Except Fault Outcome)}
    (h : List.Forall₂ (Alike base) rs rs') : rs.map (Fault.clear unnumbered) =
      rs'.map fun r => Fault.clear unnumbered (r.map (shifted base)) := by
  induction h with
  | nil => rfl
  | cons hr _ ih => rw [List.map_cons, List.map_cons, hr, ih]

section

variable {t : RuleTable} {perform : Performer} {context : Arguments} {s₀ s s' u u' : Session}
  {act : CompiledRule → List Char → Option (Except Fault Value)} {base : Place} {i j i' j' : Nat}

namespace Session.Follows

theorem untouched (h : Follows t context s₀ base i j i' j' s s') (hu : s.Untouched i j u)
    (hu' : s'.Untouched i' j' u') : Follows t context s₀ base i j i' j' u u' where
  cursors := by rw [hu.cursor_eq, hu'.cursor_eq]; exact h.cursors
  streams := by rw [hu.stream_eq, hu'.stream_eq]; exact h.streams
  lexers := by rw [hu.lexers_eq, hu'.lexers_eq]; exact h.lexers
  engines := by rw [hu.engines_eq, hu'.engines_eq]; exact h.engines

theorem tried (h : Follows t context s₀ base i j i' j' s s') :
    Follows t context s₀ base i j i' j' (s.tried t i) (s'.tried t i') := by
  obtain ⟨c, d, hc, hd, hcd⟩ := h.cursors
  obtain ⟨hcursor, hstreams, hlexers, hengines⟩ := Session.tried_eq t hc
  obtain ⟨hcursor', hstreams', hlexers', hengines'⟩ := Session.tried_eq t hd
  constructor
  · exact ⟨_, _, hcursor, hcursor', (t.attempt_continues hcd).2⟩
  · rw [hstreams, hstreams']
    exact h.streams
  · rw [hlexers, hlexers']
    exact h.lexers
  · rw [hengines, hengines']
    exact h.engines

theorem numbered (h : Follows t context s₀ base i j i' j' s s') (n n' : Nat) :
    Follows t context s₀ base i j i' j' { s with nextSerial := n } { s' with nextSerial := n' } :=
  h.untouched ⟨rfl, rfl, rfl, rfl⟩ ⟨rfl, rfl, rfl, rfl⟩

/-- An outcome that stops one stream stops the other. -/
theorem recorded (h : Follows t context s₀ base i j i' j' s s') {a b : Stream}
    (ha : s.streams[j]? = some a) (hb : s'.streams[j']? = some b) {o o' : Outcome}
    (ho : o.unnumbered = (o'.shifted base).unnumbered) :
    Follows t context s₀ base i j i' j' (s.recorded j a o) (s'.recorded j' b o') := by
  obtain ⟨done, e, e', hstream, hstream', he⟩ := h.streams
  cases ha.symm.trans hstream
  cases hb.symm.trans hstream'
  cases o with
  | emitted token span =>
    cases o' with
    | emitted token' span' => exact h
    | _ => cases ho
  | skipped span =>
    cases o' with
    | skipped span' => exact h
    | _ => cases ho
  | exhausted =>
    cases o' with
    | exhausted =>
      refine ⟨h.cursors, ⟨true, e, e', ?_, ?_, he⟩, h.lexers, h.engines⟩
      · exact Run.stream_setStream hstream _
      · exact Run.stream_setStream hstream' _
    | _ => cases ho
  | failed f =>
    cases o' with
    | failed f' =>
      refine ⟨h.cursors, ⟨done, some f, some f', ?_, ?_, ?_⟩, h.lexers, h.engines⟩
      · exact Run.stream_setStream hstream _
      · exact Run.stream_setStream hstream' _
      · exact congrArg some (Outcome.failed.inj ho)
    | _ => cases ho

end Session.Follows

theorem Fault.isOrdinary_unnumbered (f : Fault) : f.unnumbered.isOrdinary = f.isOrdinary := by
  cases f <;> rfl

theorem Outcome.unnumbered_ofResult (v : Value) (span : Span) :
    (Outcome.ofResult v span).unnumbered = .ofResult v.unnumbered span := by
  cases v <;> rfl

theorem Outcome.shifted_ofResult (base : Place) (v : Value) (span : Span) :
    (Outcome.ofResult v span).shifted base = .ofResult v (span.shifted base) := by
  cases v <;> rfl

namespace RuleTable.ReadsText

/-- Two calls for the same text come to the same, and leave the streams going along. -/
theorem invoke (reads : t.ReadsText perform context s₀ act)
    (h : Session.Follows t context s₀ base i j i' j' s s') {rule : CompiledRule} (hrule : rule ∈ t.rules)
    (text : List Char) (span span' : Span) :
    Option.Rel (fun p q => Fault.clear Value.unnumbered p.1 = Fault.clear Value.unnumbered q.1 ∧
        Session.Follows t context s₀ base i j i' j' p.2 q.2)
      (rule.invoke perform text i span context s)
      (rule.invoke perform text i' span' context s') := by
  have hcall := reads.call rule hrule text i span s h.lexers.1 h.engines.1
  have hcall' := reads.call rule hrule text i' span' s' h.lexers.2 h.engines.2
  obtain ⟨c, d, hc, hd, -⟩ := h.cursors
  obtain ⟨done, e, e', hstream, hstream', -⟩ := h.streams
  cases hrun : rule.invoke perform text i span context s with
  | none =>
    rw [hrun] at hcall
    rw [← hcall] at hcall'
    rw [Option.map_eq_none_iff.mp hcall']
    exact .none
  | some p =>
    rw [hrun] at hcall
    rw [← hcall] at hcall'
    obtain ⟨q, hrun', heq⟩ := Option.map_eq_some_iff.mp hcall'
    rw [hrun']
    refine .some ⟨heq.symm, h.untouched ?_ ?_⟩
    · exact reads.apart rule hrule text i span s p.1 p.2 h.lexers.1 h.engines.1 hrun j
        (Array.getElem?_eq_some_iff.mp hc).1 (Array.getElem?_eq_some_iff.mp hstream).1
    · exact reads.apart rule hrule text i' span' s' q.1 q.2 h.lexers.2 h.engines.2 hrun' j'
        (Array.getElem?_eq_some_iff.mp hd).1 (Array.getElem?_eq_some_iff.mp hstream').1

/-- So do steps of the table that come to the same match. -/
theorem stepWith_of_fired (reads : t.ReadsText perform context s₀ act)
    (h : Session.Follows t context s₀ base i j i' j' s s') {rule : CompiledRule} {text : List Char}
    {span : Span} (hfired : (t.attempt (s.cursor i)).1 = .fired rule text (span.shifted base))
    (hfired' : (t.attempt (s'.cursor i')).1 = .fired rule text span) :
    Option.Rel (fun p q => Outcome.Alike base p.1 q.1 ∧
        Session.Follows t context s₀ base i j i' j' p.2 q.2)
      (t.stepWith perform i context s) (t.stepWith perform i' context s') := by
  have hinvoke := reads.invoke h.tried (RuleTable.mem_of_fired hfired') text (span.shifted base) span
  rw [RuleTable.stepWith_apply, RuleTable.stepWith_apply, hfired, hfired']
  dsimp only
  generalize rule.invoke perform text i (span.shifted base) context (s.tried t i) = x at hinvoke
  generalize rule.invoke perform text i' span context (s'.tried t i') = y at hinvoke
  cases hinvoke with
  | none => exact .none
  | @some p q hpq =>
    obtain ⟨r, u⟩ := p
    obtain ⟨r', u'⟩ := q
    obtain ⟨hresult, hu⟩ := hpq
    cases r with
    | ok v =>
      cases r' with
      | error f => cases hresult
      | ok v' =>
        refine .some ⟨?_, hu⟩
        have hv : v.unnumbered = v'.unnumbered := Except.ok.inj hresult
        change Except.ok _ = Except.ok _
        rw [Outcome.shifted_ofResult, Outcome.unnumbered_ofResult, Outcome.unnumbered_ofResult, hv]
    | error f =>
      cases r' with
      | ok v => cases hresult
      | error f' =>
        have hf : f.unnumbered = f'.unnumbered := Except.error.inj hresult
        have hordinary : f.isOrdinary = f'.isOrdinary := by
          rw [← Fault.isOrdinary_unnumbered, hf, Fault.isOrdinary_unnumbered]
        dsimp only
        rw [hordinary]
        cases f'.isOrdinary with
        | false => exact .some ⟨congrArg Except.error hf, hu⟩
        | true =>
          refine .some ⟨?_, hu.numbered _ _⟩
          exact congrArg (fun g => Except.ok (Outcome.failed
            (.action 0 g (span.shifted base) rule.priority true))) hf

/-- Steps of the table on both cursors come to the same. -/
theorem stepWith (reads : t.ReadsText perform context s₀ act)
    (h : Session.Follows t context s₀ base i j i' j' s s') :
    Option.Rel (fun p q => Outcome.Alike base p.1 q.1 ∧
        Session.Follows t context s₀ base i j i' j' p.2 q.2)
      (t.stepWith perform i context s) (t.stepWith perform i' context s') := by
  obtain ⟨c, d, hc, hd, hcd⟩ := h.cursors
  have hattempt : (t.attempt (s.cursor i)).1 = (t.attempt (s'.cursor i')).1.shifted base := by
    rw [Session.cursor_of_getElem? hc, Session.cursor_of_getElem? hd]
    exact (t.attempt_continues hcd).1
  cases hfired : (t.attempt (s'.cursor i')).1 with
  | fired rule text span =>
    rw [hfired] at hattempt
    exact reads.stepWith_of_fired h hattempt hfired
  | exhausted =>
    rw [RuleTable.stepWith_apply, RuleTable.stepWith_apply, hattempt, hfired]
    exact .some ⟨rfl, h.tried⟩
  | unmatched character location =>
    rw [RuleTable.stepWith_apply, RuleTable.stepWith_apply, hattempt, hfired]
    exact .some ⟨rfl, h.tried.numbered _ _⟩
  | overrun o =>
    rw [RuleTable.stepWith_apply, RuleTable.stepWith_apply, hattempt, hfired]
    exact .some ⟨rfl, h.tried⟩
  | tangled =>
    rw [RuleTable.stepWith_apply, RuleTable.stepWith_apply, hattempt, hfired]
    exact .some ⟨rfl, h.tried⟩

/-- And so do steps of the streams. -/
theorem streamStepWith (reads : t.ReadsText perform context s₀ act)
    (h : Session.Follows t context s₀ base i j i' j' s s') :
    Option.Rel (fun p q => Outcome.Alike base p.1 q.1 ∧
        Session.Follows t context s₀ base i j i' j' p.2 q.2)
      (Run.streamStepWith perform j s) (Run.streamStepWith perform j' s') := by
  obtain ⟨done, e, e', hstream, hstream', he⟩ := h.streams
  cases e with
  | some f =>
    obtain ⟨f', rfl, hf⟩ := Option.map_eq_some_iff.mp he.symm
    rw [Run.streamStepWith_of_answer hstream rfl, Run.streamStepWith_of_answer hstream' rfl]
    exact .some ⟨congrArg (fun g => Except.ok (Outcome.failed g)) hf.symm, h⟩
  | none =>
    obtain rfl : e' = none := Option.map_eq_none_iff.mp he.symm
    cases done with
    | true =>
      rw [Run.streamStepWith_of_answer hstream rfl, Run.streamStepWith_of_answer hstream' rfl]
      exact .some ⟨rfl, h⟩
    | false =>
      have hstep := reads.stepWith h
      rw [Run.streamStepWith_of_live hstream rfl, Run.streamStepWith_of_live hstream' rfl]
      dsimp only
      generalize t.stepWith perform i context s = x at hstep
      generalize t.stepWith perform i' context s' = y at hstep
      cases hstep with
      | none => exact .none
      | @some p q hpq =>
        obtain ⟨r, u⟩ := p
        obtain ⟨r', u'⟩ := q
        obtain ⟨hresult, hu⟩ := hpq
        cases r with
        | error f =>
          cases r' with
          | ok o => cases hresult
          | error f' => exact .some ⟨hresult, hu⟩
        | ok o =>
          cases r' with
          | error f => cases hresult
          | ok o' =>
            obtain ⟨_, _, _, ha, hb, -⟩ := hu.streams
            dsimp only [Session.stream?]
            rw [ha, hb]
            exact .some ⟨hresult, hu.recorded ha hb (Except.ok.inj hresult)⟩

/-- The same is true of any number of steps. -/
theorem results (reads : t.ReadsText perform context s₀ act)
    (h : Session.Follows t context s₀ base i j i' j' s s') (n : Nat) :
    Option.Rel (fun p q => List.Forall₂ (Outcome.Alike base) p.1 q.1 ∧
        Session.Follows t context s₀ base i j i' j' p.2 q.2)
      (Run.results perform j n s) (Run.results perform j' n s') := by
  induction n generalizing s s' with
  | zero => exact .some ⟨.nil, h⟩
  | succ n ih =>
    have hstep := reads.streamStepWith h
    unfold Run.results
    generalize Run.streamStepWith perform j s = x at hstep
    generalize Run.streamStepWith perform j' s' = y at hstep
    cases hstep with
    | none => exact .none
    | @some p q hpq =>
      obtain ⟨r, u⟩ := p
      obtain ⟨r', u'⟩ := q
      obtain ⟨hresult, hu⟩ := hpq
      have hrest := ih hu
      dsimp only
      generalize Run.results perform j n u = x at hrest
      generalize Run.results perform j' n u' = y at hrest
      cases hrest with
      | none => exact .none
      | some hpq => exact .some ⟨.cons hresult hpq.1, hpq.2⟩

end RuleTable.ReadsText

end

/-- A stream on a cursor that stands anywhere in a text comes to the outcomes of a stream on the remaining
text alone, with the same tokens, characters, rules and errors, and their locations shifted by where the
cursor stood. Afterwards the cursors have the same text ahead. -/
theorem stream_on_remaining_text {t : RuleTable} {perform : Performer} {context : Arguments}
    {s s' : Session} {act : CompiledRule → List Char → Option (Except Fault Value)}
    (reads : t.ReadsText perform context s act) (hlexers : s'.lexers = s.lexers)
    (hengines : s'.engines = s.engines) {i j i' j' : Nat} {c : Cursor}
    (hc : s.cursors[i]? = some c) (hexhausted : c.exhausted = false)
    (hstream : s.streams[j]? = some ⟨t, i, context, false, none⟩)
    (hc' : s'.cursors[i']? = some (.ofText c.ahead))
    (hstream' : s'.streams[j']? = some ⟨t, i', context, false, none⟩) (n : Nat) :
    Option.Rel (fun p q => List.Forall₂ (Outcome.Alike c.place) p.1 q.1 ∧
        (p.2.cursor i).Continues c.place (q.2.cursor i'))
      (Run.results perform j n s) (Run.results perform j' n s') := by
  have hcontinues : c.Continues c.place (.ofText c.ahead) :=
    ⟨rfl, hexhausted, rfl, Cursor.sound_ofText _⟩
  have hfollows : Session.Follows t context s c.place i j i' j' s s' :=
    ⟨⟨c, _, hc, hc', hcontinues⟩, ⟨false, none, none, hstream, hstream', rfl⟩, ⟨rfl, hlexers⟩,
      ⟨rfl, hengines⟩⟩
  have hresults := reads.results hfollows n
  generalize Run.results perform j n s = x at hresults
  generalize Run.results perform j' n s' = y at hresults
  cases hresults with
  | none => exact .none
  | some h =>
    obtain ⟨houtcomes, hafter⟩ := h
    obtain ⟨d, d', hd, hd', hdd⟩ := hafter.cursors
    rw [← Session.cursor_of_getElem? hd, ← Session.cursor_of_getElem? hd'] at hdd
    exact .some ⟨houtcomes, hdd⟩

/-- What a script comes to that asks for nothing. -/
def Script.answer? {α : Type} : Script α → Option (Except Fault α)
  | done a => some (.ok a)
  | fail f => some (.error f)
  | ask _ _ => none
  | stall => none

/-- An action that takes the text only and asks for nothing comes to the same wherever it is called. -/
theorem CompiledRule.invoke_plain {r : CompiledRule} (harity : r.shape.arity = 1)
    (hplain : ∀ b, (r.action.body b).answer?.isSome) (perform : Performer) (text : List Char)
    (context : Arguments) : ∃ e, ∀ i span s, r.invoke perform text i span context s = some (e, s) := by
  have hscript (i : Nat) (span : Span) : r.script text i span context =
      (r.action.signature.bind [.text text] (r.shape.select context)).map r.action.body := by
    unfold CompiledRule.script CompiledRule.positional
    rw [harity]
    rfl
  cases hbind : r.action.signature.bind [.text text] (r.shape.select context) with
  | error flaw =>
    refine ⟨.error (.call flaw), fun i span s => ?_⟩
    unfold CompiledRule.invoke
    rw [hscript, hbind]
    rfl
  | ok b =>
    obtain ⟨e, he⟩ := Option.isSome_iff_exists.mp (hplain b)
    refine ⟨e, fun i span s => ?_⟩
    unfold CompiledRule.invoke
    rw [hscript, hbind]
    change (r.action.body b).run perform s = some (e, s)
    cases hbody : r.action.body b <;> rw [hbody] at he <;> cases he <;> rfl

/-- Tables of such actions read the text only. -/
theorem RuleTable.readsText_of_plain {t : RuleTable} (h : ∀ r ∈ t.rules, r.shape.arity = 1 ∧
      ∀ b, (r.action.body b).answer?.isSome) (perform : Performer) (context : Arguments)
    (s₀ : Session) : ∃ act, t.ReadsText perform context s₀ act := by
  refine ⟨fun r text => (r.invoke perform text 0 default context s₀).map fun p =>
    Fault.clear Value.unnumbered p.1, fun r hr text i span s _ _ => ?_,
    fun r hr text i span s v u _ _ hrun j _ _ => ?_⟩
  · obtain ⟨e, he⟩ := r.invoke_plain (h r hr).1 (h r hr).2 perform text context
    rw [he, he]
    rfl
  · obtain ⟨e, he⟩ := r.invoke_plain (h r hr).1 (h r hr).2 perform text context
    rw [he] at hrun
    cases hrun
    exact ⟨rfl, rfl, rfl, rfl⟩

/-- One letter is a token, and blanks are skipped. -/
def letters : RuleTable := ⟨[
  ⟨0, .regex .pattern ['a'] ⟨.char 97 .exact, 1⟩, .string, ⟨1, [], [], false⟩⟩,
  ⟨1, .whitespace, .skip, ⟨1, [], [], false⟩⟩]⟩

/-- A session with a stream of letters on a cursor. -/
def lettersSession (c : Cursor) : Session :=
  { Session.empty with cursors := #[c], streams := #[⟨letters, 0, [], false, none⟩] }

/-- Behind a newline and a letter the same match, blank and character are met as on the rest alone. -/
theorem stream_on_remaining_text_letters :
    ∃ rs u u',
      Run.results (Run.perform 1) 0 3
        (lettersSession ((Cursor.ofText ['\n', 'a', 'a', '\n', 'x']).move 2)) = some (rs, u) ∧
      Run.results (Run.perform 1) 0 3 (lettersSession (.ofText ['a', '\n', 'x'])) = some
        ([.ok (.emitted (.text ['a']) ⟨⟨1, 1⟩, ⟨1, 1⟩, (0, 1)⟩),
          .ok (.skipped ⟨⟨1, 2⟩, ⟨1, 2⟩, (1, 2)⟩),
          .ok (.failed (.unmatched 0 (some ['x']) (.spot ⟨2, 1⟩ 2)))], u') ∧
      rs.map (Fault.clear Outcome.unnumbered) =
        [.ok (.emitted (.text ['a']) ⟨⟨2, 2⟩, ⟨2, 2⟩, (2, 3)⟩),
          .ok (.skipped ⟨⟨2, 3⟩, ⟨2, 3⟩, (3, 4)⟩),
          .ok (.failed (.unmatched 0 (some ['x']) (.spot ⟨3, 1⟩ 4)))] ∧
      (u.cursor 0).Continues ⟨2, 2, 2, 2⟩ (u'.cursor 0) := by
  have hplain : ∀ r ∈ letters.rules, r.shape.arity = 1 ∧ ∀ b, (r.action.body b).answer?.isSome := by
    intro r hr
    simp only [letters, List.mem_cons, List.not_mem_nil, or_false] at hr
    rcases hr with rfl | rfl
    · exact ⟨rfl, fun b => rfl⟩
    · exact ⟨rfl, fun b => rfl⟩
  let c : Cursor := (Cursor.ofText ['\n', 'a', 'a', '\n', 'x']).move 2
  let d : Cursor := .ofText ['a', '\n', 'x']
  obtain ⟨act, reads⟩ := letters.readsText_of_plain hplain (Run.perform 1) [] (lettersSession c)
  have halone : ∃ u', Run.results (Run.perform 1) 0 3 (lettersSession d) = some
        ([.ok (.emitted (.text ['a']) ⟨⟨1, 1⟩, ⟨1, 1⟩, (0, 1)⟩),
          .ok (.skipped ⟨⟨1, 2⟩, ⟨1, 2⟩, (1, 2)⟩),
          .ok (.failed (.unmatched 0 (some ['x']) (.spot ⟨2, 1⟩ 2)))], u') := ⟨_, rfl⟩
  obtain ⟨u', halone⟩ := halone
  have hc : (lettersSession c).cursors[0]? = some c := rfl
  have hd : (lettersSession d).cursors[0]? = some (.ofText c.ahead) := rfl
  have hstream : (lettersSession c).streams[0]? = some ⟨letters, 0, [], false, none⟩ := rfl
  have hstream' : (lettersSession d).streams[0]? = some ⟨letters, 0, [], false, none⟩ := rfl
  have hlexers : (lettersSession d).lexers = (lettersSession c).lexers := rfl
  have hboth := stream_on_remaining_text reads hlexers rfl hc rfl hstream hd hstream' 3
  rw [halone] at hboth
  cases hrun : Run.results (Run.perform 1) 0 3 (lettersSession c) with
  | none =>
    rw [hrun] at hboth
    cases hboth
  | some p =>
    rw [hrun] at hboth
    obtain ⟨rs, u⟩ := p
    cases hboth with
    | some h =>
      obtain ⟨houtcomes, hcursors⟩ := h
      refine ⟨rs, u, u', rfl, halone, ?_, hcursors⟩
      exact (Outcome.map_clear_of_alike houtcomes).trans rfl

end FirstMatch
