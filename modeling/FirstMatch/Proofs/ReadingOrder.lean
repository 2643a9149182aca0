import FirstMatch.Proofs.CursorLaws

/-!
The order of reading. Within a text the number of characters, the number of bytes and the line with the
column order all places alike, so each of them determines the others. Spans do not stop before they start,
and what is consumed first stops before what is consumed later starts.
-/

namespace FirstMatch

theorem byteAt_lt (text : List Char) {i j : Nat} (hij : i < j) (hj : j ≤ text.length) :
    byteAt text i < byteAt text j := by
  obtain ⟨c, cs, hbetween⟩ : ∃ c cs, (text.drop i).take (j - i) = c :: cs := by
    apply List.exists_cons_of_length_pos
    simp only [List.length_take, List.length_drop]
    omega
  have hsplit : text.take j = text.take i ++ c :: cs := by
    rw [← hbetween, ← List.take_add]
    congr 1
    omega
  have hpos := c.utf8Size_pos
  simp only [byteAt, hsplit, utf8_append, ByteArray.size_append, size_utf8 (c :: cs), Place.byteCount]
  omega

theorem Point.Before.asymm {p q : Point} (h : p.Before q) : ¬q.Before p :=
  fun hback => (h.trans hback).ne rfl

section

variable {text : List Char} {i j : Nat} (hi : i ≤ text.length) (hj : j ≤ text.length)

include hi hj

theorem byteAt_lt_iff : i < j ↔ byteAt text i < byteAt text j := by
  constructor
  · intro h
    exact byteAt_lt text h hj
  · intro h
    rcases Nat.lt_trichotomy i j with hlt | rfl | hgt
    · exact hlt
    · omega
    · have := byteAt_lt text hgt hi
      omega

theorem pointAt_before_iff : i < j ↔ (pointAt text i).Before (pointAt text j) := by
  constructor
  · intro h
    exact pointAt_before text h hj
  · intro h
    rcases Nat.lt_trichotomy i j with hlt | rfl | hgt
    · exact hlt
    · exact absurd rfl h.ne
    · exact absurd (pointAt_before text hgt hi) h.asymm

theorem byteAt_inj : i = j ↔ byteAt text i = byteAt text j := by
  have hlt := byteAt_lt_iff hi hj
  have hgt := byteAt_lt_iff hj hi
  omega

theorem pointAt_inj : i = j ↔ pointAt text i = pointAt text j := by
  constructor
  · rintro rfl
    rfl
  · intro h
    rcases Nat.lt_trichotomy i j with hlt | heq | hgt
    · exact absurd h (pointAt_before text hlt hj).ne
    · exact heq
    · exact absurd h.symm (pointAt_before text hgt hi).ne

end

/-- Characters, bytes, and lines with columns order two places alike. -/
structure Place.OrderedAlike (p q : Place) : Prop where
  byte_lt : p.char < q.char ↔ p.byte < q.byte
  before : p.char < q.char ↔ p.point.Before q.point
  byte_eq : p.char = q.char ↔ p.byte = q.byte
  point_eq : p.char = q.char ↔ p.point = q.point

/-- A span stops where it starts or after that. -/
def Span.Forward (span : Span) : Prop := span.start = span.stop ∨ span.start.Before span.stop

namespace Cursor

theorem Sound.char_le {c : Cursor} (h : c.Sound) : c.place.char ≤ c.text.length := by
  have := c.length_text
  rw [h.char]
  omega

theorem Sound.orderedAlike {c d : Cursor} (hc : c.Sound) (hd : d.Sound) (htext : c.text = d.text) :
    c.place.OrderedAlike d.place := by
  have hle := hc.char_le
  have hle' : d.place.char ≤ c.text.length := htext ▸ hd.char_le
  constructor
  · rw [hc.byte, hd.byte, ← htext]
    exact byteAt_lt_iff hle hle'
  · rw [hc.point, hd.point, ← htext]
    exact pointAt_before_iff hle hle'
  · rw [hc.byte, hd.byte, ← htext]
    exact byteAt_inj hle hle'
  · rw [hc.point, hd.point, ← htext]
    exact pointAt_inj hle hle'

end Cursor

namespace Located

variable {text taken taken' : List Char} {k n k' n' : Nat} {span span' : Span}

theorem forward (h : Located text k n taken span) : span.Forward := by
  by_cases hn : n ≤ 1
  · left
    exact h.short.mpr hn
  · right
    have hinside := h.inside
    rw [h.start, h.stop, if_neg (by omega)]
    apply pointAt_before <;> omega

/-- Characters stop before those start that come after them. -/
theorem before (h : Located text k n taken span) (h' : Located text k' n' taken' span') (hn : 0 < n)
    (hk : k + n ≤ k') : span.stop.Before span'.start := by
  have hinside := h'.inside
  rw [h.stop, h'.start, if_neg (by omega)]
  apply pointAt_before <;> omega

end Located

namespace Cursor

variable {c d : Cursor} {es : List Entry}

/-- The moves of a cursor consume characters of its text from where it stands on. -/
theorem Moves.located (h : c.Moves es d) (hc : c.Sound) :
    ∀ e ∈ es, ∃ k, c.place.char ≤ k ∧ Located c.text k e.text.length e.text e.span := by
  induction h with
  | done c => simp
  | mark _ ih => exact ih hc.markIfEmpty
  | @take c d e es n le text span _ ih =>
    intro f hf
    rcases List.mem_cons.mp hf with rfl | hf
    · have hlength : f.text.length = n := by simp [text, le]
      refine ⟨c.place.char, Nat.le_refl _, ?_⟩
      rw [hlength, text, span]
      exact hc.located le
    · obtain ⟨k, hk, hlocated⟩ := ih (hc.move n) f hf
      rw [text_move] at hlocated
      exact ⟨k, (comesTo_move c n).char.trans hk, hlocated⟩

/-- What a cursor consumes stops before that starts which it consumes later. -/
theorem Moves.pairwise_before (h : c.Moves es d) (hc : c.Sound) :
    es.Pairwise fun e f => e.text ≠ [] → e.span.stop.Before f.span.start := by
  induction h with
  | done c => exact .nil
  | mark _ ih => exact ih hc.markIfEmpty
  | @take c d e es n le text span rest ih =>
    rw [List.pairwise_cons]
    constructor
    · intro f hf hsome
      have hpos : 0 < n := by
        apply Nat.pos_of_ne_zero
        rintro rfl
        exact hsome (by simp [text])
      obtain ⟨k, hk, hlocated⟩ := rest.located (hc.move n) f hf
      have hchar : (c.move n).place.char = c.place.char + n := by
        simp [move, Place.char_after, le]
      rw [text_move] at hlocated
      rw [span]
      apply (hc.located le).before hlocated hpos
      omega
    · exact ih (hc.move n)

end Cursor

/-- The match of a step is the first thing that is noted in the journal. -/
theorem Run.entry_of_engineStep {depth i : Nat} {table : RuleTable} {context : Arguments}
    {s u : Session} {o : Outcome} {span : Span} (hi : i < s.cursors.size)
    (h : engineStep depth table i context s = some (.ok o, u)) (ho : o.matchSpan? = some span) :
    ∃ e es, u.journal = es ++ e :: s.journal ∧ e.cursor = i ∧ e.span = span := by
  have hstep : table.stepWith (perform depth) i context s = some (.ok o, u) := h
  obtain ⟨rule, taken, v, hfired, -⟩ := RuleTable.fired_of_matchSpan? hstep ho
  have htried : (s.tried table i).journal =
      ⟨i, .rule rule.kind rule.priority, taken, span⟩ :: s.journal := by
    cases hattempt : table.attempt (s.cursor i) with
    | mk a d =>
      rw [hattempt] at hfired
      obtain rfl : a = .fired rule taken span := hfired
      simp only [Session.tried, hattempt]
  -- What the action does is noted in front of the match.
  have hinvoked {r : Except Fault Value} {t : Session}
      (hr : rule.invoke (perform depth) taken i span context (s.tried table i) = some (r, t)) :
      ∃ es, t.journal = es ++ ⟨i, .rule rule.kind rule.priority, taken, span⟩ :: s.journal := by
    have hleads : (s.tried table i).Leads t :=
      moves_invoke (fun q _ _ _ hq => Session.Works.leads (moves_perform depth q hq)) rule taken i span
        context hr
    obtain ⟨-, es, hes, -⟩ := hleads.moves (by rwa [Session.size_tried])
    exact ⟨es, htried ▸ hes⟩
  rw [RuleTable.stepWith_apply, hfired] at hstep
  dsimp only at hstep
  split at hstep
  · cases hstep
  · next hr =>
    cases hstep
    obtain ⟨es, hes⟩ := hinvoked hr
    exact ⟨_, es, hes, rfl, rfl⟩
  · next hr =>
    obtain ⟨es, hes⟩ := hinvoked hr
    split at hstep
    · cases hstep
      exact ⟨_, es, hes, rfl, rfl⟩
    · cases hstep

/-- Places in a text are in the order of its characters, by their bytes as by their lines and columns: a
cursor that is advanced further from the start comes to a later place, and at any two moments of cursors on
the text all coordinates agree which place comes first and whether they are the same. The span of a match
does not stop before it starts, and of what is consumed on a cursor, by matches of any engines and by direct
advances, what comes first stops before the rest starts, unless it is empty. -/
theorem places_follow_characters (text : List Char) :
    (∀ i j, i < j → j ≤ text.length → ∃ p q c d,
      (Cursor.ofText text).advance i = .ok (p, c) ∧ (Cursor.ofText text).advance j = .ok (q, d) ∧
      c.place.char = i ∧ d.place.char = j ∧
      c.place.point.Before d.place.point ∧ c.place.byte < d.place.byte) ∧
    (∀ (m n : Nat) (s t : Session), s.Reachable text m → t.Reachable text n →
      (s.cursor m).place.OrderedAlike (t.cursor n).place) ∧
    ∀ (m : Nat) (s : Session), s.Reachable text m →
      (∀ depth table context o u span, Run.engineStep depth table m context s = some (.ok o, u) →
        o.matchSpan? = some span → span.Forward ∧ s.Leads u ∧
          ∃ e es, u.journal = es ++ e :: s.journal ∧ e.cursor = m ∧ e.span = span) ∧
      ∀ t, s.Leads t → ∃ es, t.journal = es ++ s.journal ∧
        (∀ e ∈ Session.entriesOn m es, e.span.Forward) ∧
        (Session.entriesOn m es).Pairwise fun e f =>
          e.text ≠ [] → e.span.stop.Before f.span.start := by
  refine ⟨fun i j hij hj => ?_, fun m n s t hs ht => ?_, fun m s hs => ⟨?_, fun t hl => ?_⟩⟩
  · have hsound := Cursor.sound_ofText text
    have hmoved {k : Nat} (hk : k ≤ text.length) : ((Cursor.ofText text).move k).place.char = k := by
      simp [Cursor.move, Cursor.ofText, Place.char_after, Place.start, hk]
    have halike := (hsound.move i).orderedAlike (hsound.move j) (by simp)
    have hlt : ((Cursor.ofText text).move i).place.char < ((Cursor.ofText text).move j).place.char := by
      rw [hmoved hj, hmoved (by omega)]
      exact hij
    refine ⟨_, _, _, _, Cursor.advance_of_le ?_, Cursor.advance_of_le hj, hmoved (by omega), hmoved hj,
      halike.before.mp hlt, halike.byte_lt.mp hlt⟩
    change i ≤ text.length
    omega
  · obtain ⟨-, htext, hsound⟩ := hs.cursor
    obtain ⟨-, htext', hsound'⟩ := ht.cursor
    exact hsound.orderedAlike hsound' (htext.trans htext'.symm)
  · intro depth table context o u span hstep ho
    obtain ⟨hi, -, hsound⟩ := hs.cursor
    obtain ⟨rule, taken, v, hfired, -⟩ := RuleTable.fired_of_matchSpan? hstep ho
    obtain ⟨n, -, -, hn, -, rfl, -⟩ := RuleTable.of_fired hfired
    exact ⟨(hsound.located hn).forward, Run.leads_of_engineStep hstep,
      Run.entry_of_engineStep hi hstep ho⟩
  · obtain ⟨hi, -, hsound⟩ := hs.cursor
    obtain ⟨-, es, hes, hmoves⟩ := hl.moves hi
    refine ⟨es, hes, fun e he => ?_, hmoves.pairwise_before hsound⟩
    obtain ⟨k, -, hlocated⟩ := hmoves.located hsound e he
    exact hlocated.forward

/-- The letter of the second line is matched behind an advance over the first one, which stops before it. -/
theorem places_follow_characters_accent :
    (∃ p q c d, (Cursor.ofText ['é', '\n', 'b']).advance 1 = .ok (p, c) ∧
      (Cursor.ofText ['é', '\n', 'b']).advance 2 = .ok (q, d) ∧
      c.place.point.Before d.place.point ∧ c.place.byte < d.place.byte) ∧
    accentSession.Reachable ['é', '\n', 'b'] 0 ∧
    (accentSession.advanced 0 2).Reachable ['é', '\n', 'b'] 0 ∧
    (accentSession.cursor 0).place.OrderedAlike ((accentSession.advanced 0 2).cursor 0).place ∧
    ∃ o u, Run.engineStep 4 letterB 0 [] (accentSession.advanced 0 2) = some (.ok o, u) ∧
      o.matchSpan? = some ⟨⟨2, 1⟩, ⟨2, 1⟩, (3, 4)⟩ ∧
      Span.Forward ⟨⟨2, 1⟩, ⟨2, 1⟩, (3, 4)⟩ ∧ accentSession.Leads u ∧
      ∃ e f, Session.entriesOn 0 u.journal = [e, f] ∧ e.text = ['é', '\n'] ∧ e.span.Forward ∧
        e.span.stop.Before f.span.start := by
  obtain ⟨hplaces, halike, hspans⟩ := places_follow_characters ['é', '\n', 'b']
  obtain ⟨p, q, c, d, hc, hd, -, -, hpoints, hbytes⟩ := hplaces 1 2 (by decide) (by decide)
  have hs : accentSession.Reachable ['é', '\n', 'b'] 0 :=
    ⟨{ Session.empty with lexers := accentSession.lexers }, rfl, .refl⟩
  have hadvance : accentSession.Leads (accentSession.advanced 0 2) :=
    .single (.advanced accentSession 0 2 (by decide))
  have ht := hs.leads hadvance
  have hrun : ((Run.engineStep 4 letterB 0 [] (accentSession.advanced 0 2)).any fun r =>
      r.1.toOption.bind Outcome.matchSpan? == some ⟨⟨2, 1⟩, ⟨2, 1⟩, (3, 4)⟩ &&
        (Session.entriesOn 0 r.2.journal).map (·.text) == [['é', '\n'], ['b']]) = true := by
    decide +kernel
  obtain ⟨⟨r, u⟩, hstep, hboth⟩ := (Option.any_eq_true _ _).mp hrun
  obtain ⟨hspan, htexts⟩ := (Bool.and_eq_true _ _).mp hboth
  cases r with
  | error f => cases hspan
  | ok o =>
    obtain ⟨hforward, hleads, -⟩ := (hspans 0 _ ht).1 4 letterB [] o u _ hstep (eq_of_beq hspan)
    have hall := hadvance.trans hleads
    obtain ⟨es, hes, hforwards, hpairs⟩ := (hspans 0 _ hs).2 u hall
    obtain rfl : u.journal = es := by simpa [accentSession, Session.empty] using hes
    obtain ⟨e, rest, hentries, htext, hrest⟩ := List.map_eq_cons_iff.mp (eq_of_beq htexts)
    obtain ⟨f, rfl, -⟩ := List.map_eq_singleton_iff.mp hrest
    rw [hentries] at hforwards hpairs
    have hbefore := (List.pairwise_cons.mp hpairs).1 f (by simp) (by simp [htext])
    exact ⟨⟨p, q, c, d, hc, hd, hpoints, hbytes⟩, hs, ht, halike 0 0 _ _ hs ht, o, u, hstep,
      eq_of_beq hspan, hforward, hall, e, f, hentries, htext, hforwards e (by simp), hbefore⟩

end FirstMatch
