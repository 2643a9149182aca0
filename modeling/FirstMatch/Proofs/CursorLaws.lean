import FirstMatch.Proofs.Location
import FirstMatch.Proofs.Unjournaled

/-!
Laws of cursors. Whatever is done with a cursor, all that it keeps beside its text is a function of how
far it has come, it never goes back, and nothing moves it once it is exhausted. An advance is refused if it
would go back or beyond the end, and two advances are one by the sum of both.
-/

namespace FirstMatch

namespace Place

theorem line_le_next (p : Place) (c : Char) : p.line ≤ (p.next c).line := by
  unfold next
  split
  · exact Nat.le_succ _
  · exact Nat.le_refl _

theorem line_le_after (p : Place) (cs : List Char) : p.line ≤ (p.after cs).line := by
  induction cs generalizing p with
  | nil => exact Nat.le_refl _
  | cons c cs ih => exact (p.line_le_next c).trans (ih (p.next c))

/-- The last of some characters is the last of those behind a cut, unless there are none. -/
theorem last_take_add (p : Place) {cs : List Char} {m n : Nat} (hn : 0 < n) (h : m + n ≤ cs.length) :
    (p.after (cs.take m)).last ((cs.drop m).take n) = p.last (cs.take (m + n)) := by
  obtain ⟨k, rfl⟩ : ∃ k, n = k + 1 := Nat.exists_eq_add_one.mpr hn
  have hk : k < (cs.drop m).length := by
    rw [List.length_drop]
    omega
  calc (p.after (cs.take m)).last ((cs.drop m).take (k + 1))
      = (p.after (cs.take m)).after ((cs.drop m).take k) := last_take_succ _ hk
    _ = p.after (cs.take (m + k)) := by rw [← after_append, ← List.take_add]
    _ = p.last (cs.take (m + (k + 1))) := (last_take_succ p (by omega)).symm

end Place

namespace Cursor

/-- Where a cursor stands in a text: its coordinates are functions of the characters behind it, and it is
exhausted at the end only. -/
structure Stands (text : List Char) (c : Cursor) : Prop where
  text_eq : c.text = text
  inside : c.place.char ≤ text.length
  left : c.ahead = text.drop c.place.char
  byte : c.place.byte = (utf8 (text.take c.place.char)).size
  total : c.place.byte + (utf8 c.ahead).size = c.totalBytes
  whole : c.totalBytes = (utf8 text).size
  line : c.place.line = 1 + (text.take c.place.char).count '\n'
  col : c.place.col = 1 + ((text.take c.place.char).reverse.takeWhile (· ≠ '\n')).length
  ended : c.exhausted = true → text.drop c.place.char = []

/-- The second cursor has come as far as the first or further. Columns begin anew on each line. -/
structure ComesTo (c d : Cursor) : Prop where
  char : c.place.char ≤ d.place.char
  byte : c.place.byte ≤ d.place.byte
  line : c.place.line ≤ d.place.line
  exhausted : c.exhausted = true → d.exhausted = true

theorem Sound.stands {c : Cursor} (h : c.Sound) : c.Stands c.text := by
  have hplace : c.place = Place.start.after (c.text.take c.place.char) := by
    rw [h.char, c.take_text, h.placed]
  have hlength : c.text.length = c.place.char + c.ahead.length := by rw [h.char, c.length_text]
  refine ⟨rfl, by omega, h.ahead_eq_drop, h.byte, ?_, (size_utf8 _).symm, ?_, ?_, fun he => ?_⟩
  · -- The bytes behind the cursor and those ahead of it are the bytes of the text.
    calc c.place.byte + (utf8 c.ahead).size
        = (utf8 (c.text.take c.place.char)).size + (utf8 (c.text.drop c.place.char)).size := by
          rw [h.byte, byteAt, ← h.ahead_eq_drop]
      _ = (utf8 c.text).size := by
          rw [← ByteArray.size_append, ← utf8_append, List.take_append_drop]
      _ = c.totalBytes := size_utf8 _
  · conv_lhs => rw [hplace]
    exact Place.line_start_after _
  · conv_lhs => rw [hplace]
    exact Place.col_start_after _
  · rw [← h.ahead_eq_drop, h.ended he]

theorem comesTo_refl (c : Cursor) : c.ComesTo c := ⟨Nat.le_refl _, Nat.le_refl _, Nat.le_refl _, id⟩

theorem ComesTo.trans {b c d : Cursor} (h : b.ComesTo c) (g : c.ComesTo d) : b.ComesTo d :=
  ⟨h.char.trans g.char, h.byte.trans g.byte, h.line.trans g.line, fun he => g.exhausted (h.exhausted he)⟩

theorem comesTo_markIfEmpty (c : Cursor) : c.ComesTo c.markIfEmpty := by
  refine ⟨Nat.le_refl _, Nat.le_refl _, Nat.le_refl _, fun he => ?_⟩
  rw [markIfEmpty_of_exhausted he, he]

theorem comesTo_move (c : Cursor) (n : Nat) : c.ComesTo (c.move n) := by
  refine ⟨?_, ?_, c.place.line_le_after _, id⟩
  · exact (Place.char_after c.place _).symm ▸ Nat.le_add_right _ _
  · exact (c.byte_move n).symm ▸ Nat.le_add_right _ _

theorem Moves.comesTo {c d : Cursor} {es : List Entry} (h : c.Moves es d) : c.ComesTo d := by
  induction h with
  | done c => exact c.comesTo_refl
  | mark _ ih => exact (comesTo_markIfEmpty _).trans ih
  | take n _ _ _ _ ih => exact (comesTo_move _ n).trans ih

/-- Nothing moves a cursor that is exhausted. -/
theorem Moves.eq_of_exhausted {c d : Cursor} {es : List Entry} (h : c.Moves es d) (hc : c.Sound)
    (he : c.exhausted = true) : d = c := by
  induction h with
  | done c => rfl
  | mark _ ih =>
    rw [markIfEmpty_of_exhausted he] at ih
    exact ih hc he
  | take n le _ _ _ ih =>
    obtain rfl : n = 0 := by
      rw [hc.ended he] at le
      exact Nat.le_zero.mp le
    exact ih hc he

end Cursor

/-- A step that a caller asks of any table moves a session by effects. -/
theorem Run.leads_of_engineStep {depth i : Nat} {table : RuleTable} {context : Arguments} {s t : Session}
    {r : Except Fault Outcome} (h : engineStep depth table i context s = some (r, t)) : s.Leads t :=
  chain_of_stepWith (fun q _ _ _ hq => Session.Works.leads (moves_perform depth q hq)) (.tried s table i)
    (fun _ _ => .beside rfl rfl rfl) h

/-- A step on an exhausted cursor reports the end and does nothing. -/
theorem RuleTable.stepWith_of_exhausted {perform : Performer} {table : RuleTable} {i : Nat}
    {context : Arguments} {s : Session} (h : (s.cursor i).exhausted = true) :
    table.stepWith perform i context s = some (.ok .exhausted, s) := by
  have hattempt : (table.attempt (s.cursor i)).1 = .exhausted := by rw [attempt, if_pos h]
  rw [stepWith_apply, hattempt, Session.tried_of_exhausted h]

/-- At every moment of a cursor's use, after any requests of callers and actions and any steps, nested to
any depth and with or without errors, the cursor stands in its text as its number of characters tells. From
there on it does not go back, and if it is exhausted nothing changes it and every step reports the end. -/
theorem cursor_invariant {text : List Char} {i : Nat} {s : Session} (hs : s.Reachable text i) :
    (∀ (α : Type) (p : Script α) (depth : Nat) (r : Except Fault α) (t : Session),
      p.run (Run.perform depth) s = some (r, t) → s.Leads t) ∧
    (∀ (table : RuleTable) (j depth : Nat) (context : Arguments) (r : Except Fault Outcome)
      (t : Session), Run.engineStep depth table j context s = some (r, t) → s.Leads t) ∧
    (∀ t, s.Leads t → (t.cursor i).Stands text ∧ (s.cursor i).ComesTo (t.cursor i)) ∧
    ((s.cursor i).exhausted = true →
      (∀ t, s.Leads t → t.cursor i = s.cursor i) ∧
      ∀ perform table context,
        RuleTable.stepWith perform table i context s = some (.ok .exhausted, s)) := by
  obtain ⟨hi, -, hsound⟩ := hs.cursor
  refine ⟨fun _ _ _ _ _ => Run.leads_of_script, fun _ _ _ _ _ _ => Run.leads_of_engineStep,
    fun t hl => ?_, fun he => ⟨fun t hl => ?_, fun _ _ _ => RuleTable.stepWith_of_exhausted he⟩⟩
  · obtain ⟨-, htext, htsound⟩ := (hs.leads hl).cursor
    obtain ⟨-, es, -, hmoves⟩ := hl.moves hi
    exact ⟨htext ▸ htsound.stands, hmoves.comesTo⟩
  · obtain ⟨-, es, -, hmoves⟩ := hl.moves hi
    exact hmoves.eq_of_exhausted hsound he

/-- The letter `b`, as the text itself. -/
def letterB : RuleTable :=
  ⟨[⟨0, .regex .pattern ['b'] ⟨.char 98 .exact, 1⟩, .string, ⟨1, [], [], false⟩⟩]⟩

/-- A session with a cursor before a letter of two bytes, a newline and another letter. -/
def accentSession : Session :=
  { Session.empty with
    cursors := #[.ofText ['é', '\n', 'b']]
    lexers := [("b", letterB)] }

/-- Asks for one thing after the other, whatever the answers are. -/
def Script.inTurn : List Request → Script Unit
  | [] => .done ()
  | q :: qs => .ask q fun _ => inTurn qs

/-- Goes over the first line, which is followed by two advances that are refused and by a step, and marks
the cursor before and after it has come to the end. -/
def accentVisit : Script Unit :=
  .inTurn [.advance 0 2, .advance 0 2, .advance 0 (-1), .mark 0, .step "b" 0 [], .mark 0]

/-- The cursor stands on the second line behind all bytes, and stays there. -/
theorem cursor_invariant_accent :
    accentSession.Reachable ['é', '\n', 'b'] 0 ∧
    ∃ r t, accentVisit.run (Run.perform 4) accentSession = some (r, t) ∧ accentSession.Leads t ∧
      (t.cursor 0).Stands ['é', '\n', 'b'] ∧ (t.cursor 0).place = ⟨3, 4, 2, 2⟩ ∧
      (t.cursor 0).exhausted = true ∧ (∀ u, t.Leads u → u.cursor 0 = t.cursor 0) ∧
      letterB.stepWith (Run.perform 4) 0 [] t = some (.ok .exhausted, t) := by
  have hs : accentSession.Reachable ['é', '\n', 'b'] 0 :=
    ⟨{ Session.empty with lexers := accentSession.lexers }, rfl, .refl⟩
  have hvisit : ((accentVisit.run (Run.perform 4) accentSession).any fun p =>
      (p.2.cursor 0).place == ⟨3, 4, 2, 2⟩ && (p.2.cursor 0).exhausted) = true := by
    decide +kernel
  obtain ⟨⟨r, t⟩, hrun, hend⟩ := (Option.any_eq_true _ _).mp hvisit
  obtain ⟨hplace, hover⟩ := (Bool.and_eq_true _ _).mp hend
  obtain ⟨hleads, -, hstands, -⟩ := cursor_invariant hs
  have hl := hleads _ _ _ _ _ hrun
  obtain ⟨-, -, -, hstill⟩ := cursor_invariant (hs.leads hl)
  obtain ⟨hsame, hsteps⟩ := hstill hover
  exact ⟨hs, r, t, hrun, hl, (hstands t hl).1, eq_of_beq hplace, hover, hsame, hsteps _ letterB []⟩

namespace Session

theorem setCursor_setCursor (s : Session) (i : Nat) (c d : Cursor) :
    (s.setCursor i c).setCursor i d = s.setCursor i d := by
  simp only [setCursor, Array.setIfInBounds_setIfInBounds]

/-- A cursor that is advanced twice has been advanced by the sum, and nothing else is changed but the
journal, which has an entry for each advance. -/
theorem unjournaled_advanced_advanced {s : Session} {i : Nat} (hi : i < s.cursors.size) (m n : Nat) :
    ((s.advanced i m).advanced i n).unjournaled = (s.advanced i (m + n)).unjournaled :=
  calc ((s.advanced i m).advanced i n).unjournaled
      = ((s.advanced i m).setCursor i (((s.advanced i m).cursor i).move n)).unjournaled := rfl
    _ = ((s.advanced i m).setCursor i ((s.cursor i).move (m + n))).unjournaled := by
      rw [cursor_advanced_self hi, Cursor.move_move]
    _ = ((s.setCursor i ((s.cursor i).move m)).setCursor i ((s.cursor i).move (m + n))).unjournaled :=
      rfl
    _ = (s.advanced i (m + n)).unjournaled := by
      rw [setCursor_setCursor]
      rfl

end Session

namespace Run

variable {i : Nat} {s : Session}

theorem advance_of_le {n : Nat} (h : n ≤ (s.cursor i).ahead.length) : advance i n s =
    some (.ok ((s.cursor i).place.last ((s.cursor i).ahead.take n)), s.advanced i n) := by
  rw [advance_apply, if_neg (by omega), Int.toNat_natCast]

/-- An advance is refused if it would go back or beyond the end, and the session is as before. -/
theorem advance_eq_error_iff {n : Int} {f : Fault} {t : Session} :
    advance i n s = some (.error f, t) ↔ (n < 0 ∨ ((s.cursor i).ahead.length : Int) < n) ∧
      f = .overrun ⟨n, (s.cursor i).behind.length, (s.cursor i).size⟩ ∧ t = s := by
  rw [advance_apply]
  split
  · next hn =>
    constructor
    · intro h
      cases h
      exact ⟨hn, rfl, rfl⟩
    · rintro ⟨-, rfl, rfl⟩
      rfl
  · next hn =>
    constructor
    · intro h
      cases h
    · exact fun h => absurd h.1 hn

end Run

/-- An advance is refused, with a value error and leaving all as it was, exactly if it would go back or
beyond the end. Two advances that stay within the text come to the same as the one by their sum, and the
second answers as that one does: unless it is by no characters and comes after some, for then it answers the
point behind them, and not that of the last of them. -/
theorem advance_adds {text : List Char} {i : Nat} {s : Session} (hs : s.Reachable text i) (m n : Int) :
    ((∃ f t, Run.advance i n s = some (.error f, t)) ↔
      n < 0 ∨ ((s.cursor i).ahead.length : Int) < n) ∧
    (∀ f t, Run.advance i n s = some (.error f, t) → f.kind = "ValueError" ∧ t = s) ∧
    (0 ≤ m → 0 ≤ n → m + n ≤ (s.cursor i).ahead.length →
      ∃ first second whole t u v,
        Run.advance i m s = some (.ok first, t) ∧ Run.advance i n t = some (.ok second, u) ∧
        Run.advance i (m + n) s = some (.ok whole, v) ∧
        u.cursor i = v.cursor i ∧ u.unjournaled = v.unjournaled ∧
        if n = 0 ∧ 0 < m then
          second.point = pointAt text ((s.cursor i).place.char + m.toNat) ∧
          whole.point = pointAt text ((s.cursor i).place.char + m.toNat - 1) ∧
          whole.point ≠ second.point
        else second = whole) := by
  obtain ⟨hi, htext, hsound⟩ := hs.cursor
  refine ⟨⟨fun ⟨f, t, h⟩ => (Run.advance_eq_error_iff.mp h).1,
      fun hn => ⟨_, s, Run.advance_eq_error_iff.mpr ⟨hn, rfl, rfl⟩⟩⟩, fun f t h => ?_,
    fun hm hn hle => ?_⟩
  · obtain ⟨-, rfl, rfl⟩ := Run.advance_eq_error_iff.mp h
    exact ⟨rfl, rfl⟩
  lift m to Nat using hm
  lift n to Nat using hn
  have hsum : m + n ≤ (s.cursor i).ahead.length := by omega
  have hcursor : (s.advanced i m).cursor i = (s.cursor i).move m := Session.cursor_advanced_self hi m
  have hahead : ((s.advanced i m).cursor i).ahead = (s.cursor i).ahead.drop m := by
    rw [hcursor]
    rfl
  have hrest : n ≤ ((s.advanced i m).cursor i).ahead.length := by
    rw [hahead, List.length_drop]
    omega
  have hsame := Session.unjournaled_advanced_advanced hi m n
  refine ⟨_, _, _, _, _, _, Run.advance_of_le (by omega), Run.advance_of_le hrest,
    Run.advance_of_le hsum, Session.cursor_of_unjournaled hsame i, hsame, ?_⟩
  have hplace : ((s.advanced i m).cursor i).place =
      (s.cursor i).place.after ((s.cursor i).ahead.take m) := by
    rw [hcursor]
    rfl
  rw [hplace, hahead]
  split
  · next hzero =>
    -- The second advance answers where the cursor stands, which is behind the last of the characters.
    obtain ⟨rfl, hpos⟩ : n = 0 ∧ 0 < m := by omega
    obtain ⟨k, rfl⟩ : ∃ k, m = k + 1 := Nat.exists_eq_add_one.mpr hpos
    have hlength : (s.cursor i).text.length = (s.cursor i).place.char + (s.cursor i).ahead.length := by
      rw [hsound.char, (s.cursor i).length_text]
    have hbehind : ((s.cursor i).place.after ((s.cursor i).ahead.take (k + 1))).point =
        pointAt text ((s.cursor i).place.char + (k + 1)) := by
      rw [hsound.after_take, Place.point_start_after_take, htext]
    have hlast : ((s.cursor i).place.last ((s.cursor i).ahead.take (k + 1))).point =
        pointAt text ((s.cursor i).place.char + k) := by
      rw [Place.last_take_succ _ (by omega), hsound.after_take, Place.point_start_after_take, htext]
    rw [htext] at hlength
    exact ⟨hbehind, hlast, hlast ▸ hbehind ▸ (pointAt_before text (Nat.lt_succ_self _) (by omega)).ne⟩
  · next hnot =>
    rcases Nat.eq_zero_or_pos n with rfl | hpos
    · obtain rfl : m = 0 := by omega
      rfl
    · exact Place.last_take_add _ hpos hsum

/-- By two characters and then by none, by one and then by two, by one too many, and back. -/
theorem advance_adds_accent :
    accentSession.Reachable ['é', '\n', 'b'] 0 ∧
    (∃ first second whole t u v,
      Run.advance 0 2 accentSession = some (.ok first, t) ∧ Run.advance 0 0 t = some (.ok second, u) ∧
      Run.advance 0 2 accentSession = some (.ok whole, v) ∧ u.cursor 0 = v.cursor 0 ∧
      second.point = ⟨2, 1⟩ ∧ whole.point = ⟨1, 2⟩) ∧
    (∃ first second whole t u v,
      Run.advance 0 1 accentSession = some (.ok first, t) ∧ Run.advance 0 2 t = some (.ok second, u) ∧
      Run.advance 0 3 accentSession = some (.ok whole, v) ∧ u.cursor 0 = v.cursor 0 ∧ second = whole) ∧
    (∃ f, Run.advance 0 4 accentSession = some (.error f, accentSession) ∧ f.kind = "ValueError") ∧
    ∃ f, Run.advance 0 (-1) accentSession = some (.error f, accentSession) ∧ f.kind = "ValueError" := by
  have hs : accentSession.Reachable ['é', '\n', 'b'] 0 :=
    ⟨{ Session.empty with lexers := accentSession.lexers }, rfl, .refl⟩
  have refused (n : Int) (hn : n < 0 ∨ ((accentSession.cursor 0).ahead.length : Int) < n) :
      ∃ f, Run.advance 0 n accentSession = some (.error f, accentSession) ∧ f.kind = "ValueError" := by
    obtain ⟨hiff, hvalue, -⟩ := advance_adds hs 0 n
    obtain ⟨f, t, h⟩ := hiff.mpr hn
    obtain ⟨hkind, rfl⟩ := hvalue f t h
    exact ⟨f, h, hkind⟩
  obtain ⟨-, -, hnone⟩ := advance_adds hs 2 0
  obtain ⟨p, q, r, t, u, v, hp, hq, hr, hsame, -, hpoints⟩ := hnone (by decide) (by decide) (by decide)
  obtain ⟨-, -, hsome⟩ := advance_adds hs 1 2
  obtain ⟨p', q', r', t', u', v', hp', hq', hr', hsame', -, heq⟩ :=
    hsome (by decide) (by decide) (by decide)
  rw [if_pos (by decide)] at hpoints
  rw [if_neg (by decide)] at heq
  refine ⟨hs, ⟨p, q, r, t, u, v, hp, hq, hr, hsame, hpoints.1.trans ?_, hpoints.2.1.trans ?_⟩,
    ⟨p', q', r', t', u', v', hp', hq', hr', hsame', heq⟩, refused 4 (by decide),
    refused (-1) (by decide)⟩
  · decide
  · decide

end FirstMatch
