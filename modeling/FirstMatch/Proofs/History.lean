import FirstMatch.Proofs.Coordinates
import FirstMatch.Proofs.Effects

/-!
The history of one cursor. Whatever is done with a session, a cursor in it moves by consuming some of
the characters ahead, each time with an entry in the journal, or is marked at the end. What holds of a
cursor in every history follows by induction on these moves.
-/

namespace FirstMatch

/-- The span of the next `n` characters of a cursor. -/
def Cursor.spanOf (c : Cursor) (n : Nat) : Span :=
  .between c.place (c.place.last (c.ahead.take n)) (c.move n).place

/-- The moves of a cursor, with the entries that they leave in the order in which they are made. -/
inductive Cursor.Moves : Cursor → List Entry → Cursor → Prop
  | done (c : Cursor) : Moves c [] c
  | mark {c d : Cursor} {es : List Entry} (rest : Moves c.markIfEmpty es d) : Moves c es d
  | take {c d : Cursor} {e : Entry} {es : List Entry} (n : Nat) (le : n ≤ c.ahead.length)
      (text : e.text = c.ahead.take n) (span : e.span = c.spanOf n) (rest : Moves (c.move n) es d) :
      Moves c (e :: es) d

/-- A cursor stands where its text has led it, and it is exhausted at the end only. -/
structure Cursor.Sound (c : Cursor) : Prop where
  placed : c.place = Place.start.after c.behind.reverse
  ended : c.exhausted = true → c.ahead = []

/-- The entries on one cursor, in the order in which they were made. -/
def Session.entriesOn (i : Nat) (journal : List Entry) : List Entry :=
  (journal.filter fun e => e.cursor = i).reverse

namespace Cursor

theorem take_text (c : Cursor) : c.text.take c.behind.length = c.behind.reverse := by
  rw [text, ← List.length_reverse, List.take_left]

theorem drop_text (c : Cursor) : c.text.drop c.behind.length = c.ahead := by
  rw [text, ← List.length_reverse, List.drop_left]

theorem length_text (c : Cursor) : c.text.length = c.behind.length + c.ahead.length := by
  simp [text]

theorem move_move (c : Cursor) (m n : Nat) : (c.move m).move n = c.move (m + n) := by
  simp only [move, List.take_add, List.drop_drop, List.reverse_append, List.append_assoc,
    Place.after_append]

theorem sound_ofText (text : List Char) : (ofText text).Sound := ⟨rfl, nofun⟩

theorem Sound.markIfEmpty {c : Cursor} (h : c.Sound) : c.markIfEmpty.Sound := by
  refine ⟨h.placed, fun he => ?_⟩
  simp only [Cursor.markIfEmpty, Bool.or_eq_true] at he
  exact he.elim h.ended List.isEmpty_iff.mp

theorem Sound.move {c : Cursor} (h : c.Sound) (n : Nat) : (c.move n).Sound := by
  refine ⟨?_, fun he => ?_⟩
  · simp only [Cursor.move, List.reverse_append, List.reverse_reverse, Place.after_append, h.placed]
  · simp [Cursor.move, h.ended he]

namespace Sound

theorem char {c : Cursor} (h : c.Sound) : c.place.char = c.behind.length := by
  rw [h.placed, Place.char_after, List.length_reverse]
  exact Nat.zero_add _

/-- The place after the next `n` characters. -/
theorem after_take {c : Cursor} (h : c.Sound) (n : Nat) :
    c.place.after (c.ahead.take n) = Place.start.after (c.text.take (c.place.char + n)) := by
  rw [h.char, List.take_add, c.take_text, c.drop_text, Place.after_append, ← h.placed]

theorem point {c : Cursor} (h : c.Sound) : c.place.point = pointAt c.text c.place.char := by
  rw [← Place.point_start_after_take]
  exact congrArg Place.point (h.after_take 0)

theorem byte {c : Cursor} (h : c.Sound) : c.place.byte = byteAt c.text c.place.char := by
  rw [← Place.byte_start_after_take]
  exact congrArg Place.byte (h.after_take 0)

theorem ahead_eq_drop {c : Cursor} (h : c.Sound) : c.ahead = c.text.drop c.place.char := by
  rw [h.char, c.drop_text]

end Sound

namespace Moves

theorem trans {c d b : Cursor} {es fs : List Entry} (h : c.Moves es d) (g : d.Moves fs b) :
    c.Moves (es ++ fs) b := by
  induction h with
  | done c => exact g
  | mark _ ih => exact .mark (ih g)
  | take n le text span _ ih => exact .take n le text span (ih g)

theorem text {c d : Cursor} {es : List Entry} (h : c.Moves es d) : d.text = c.text := by
  induction h with
  | done c => rfl
  | mark _ ih => exact ih
  | take n _ _ _ _ ih => rw [ih, text_move]

theorem sound {c d : Cursor} {es : List Entry} (h : c.Moves es d) (hc : c.Sound) : d.Sound := by
  induction h with
  | done c => exact hc
  | mark _ ih => exact ih hc.markIfEmpty
  | take n _ _ _ _ ih => exact ih (hc.move n)

end Moves

theorem markIfEmpty_of_exhausted {c : Cursor} (h : c.exhausted = true) : c.markIfEmpty = c := by
  obtain ⟨behind, ahead, place, exhausted⟩ := c
  simp only [markIfEmpty] at h ⊢
  rw [h, Bool.true_or]

theorem advance_of_le {c : Cursor} {n : Nat} (h : n ≤ c.ahead.length) :
    c.advance n = .ok (c.place.last (c.ahead.take n), c.move n) := by
  unfold advance
  rw [if_neg (by omega)]
  rfl

end Cursor

/-- What trying a table does: a rule fires and the cursor moves over its match, or the cursor is marked
if it stands at the end. -/
theorem RuleTable.attempt_cases (t : RuleTable) (c : Cursor) :
    (∃ rule n, c.exhausted = false ∧ firstMatch t.rules c.markIfEmpty = some (rule, .length n) ∧
        n ≤ c.ahead.length ∧
        t.attempt c = (.fired rule (c.ahead.take n) (c.spanOf n), c.markIfEmpty.move n)) ∨
      (∀ rule text span, (t.attempt c).1 ≠ .fired rule text span) ∧
        (t.attempt c).2 = c.markIfEmpty := by
  unfold attempt
  cases hex : c.exhausted with
  | true =>
    right
    simp [Cursor.markIfEmpty_of_exhausted hex]
  | false =>
    simp only [Bool.false_eq_true, ↓reduceIte]
    cases hm : firstMatch t.rules c.markIfEmpty with
    | none =>
      right
      dsimp only
      split <;> simp
    | some found =>
      obtain ⟨rule, m⟩ := found
      cases m with
      | tangled =>
        right
        simp
      | length n =>
        by_cases hn : n ≤ c.ahead.length
        · left
          have hadv := Cursor.advance_of_le (c := c.markIfEmpty) hn
          refine ⟨rule, n, trivial, rfl, hn, ?_⟩
          simp only [hadv]
          rfl
        · right
          have hadv : c.markIfEmpty.advance n =
              .error ⟨n, c.behind.length, c.size⟩ := by
            unfold Cursor.advance
            rw [if_pos (by change ((n : Int) < 0 ∨ (c.ahead.length : Int) < n); omega)]
            rfl
          simp [hadv]

/-- A rule that fires is the first to match, and the cursor stands behind its match. -/
theorem RuleTable.of_fired {t : RuleTable} {c : Cursor} {rule : CompiledRule} {text : List Char}
    {span : Span} (h : (t.attempt c).1 = .fired rule text span) :
    ∃ n, c.exhausted = false ∧ firstMatch t.rules c.markIfEmpty = some (rule, .length n) ∧
      n ≤ c.ahead.length ∧ text = c.ahead.take n ∧ span = c.spanOf n ∧
      (t.attempt c).2 = c.markIfEmpty.move n := by
  rcases t.attempt_cases c with ⟨rule', n, hex, hfirst, hn, ha⟩ | ⟨hnone, -⟩
  · rw [ha] at h ⊢
    cases h
    exact ⟨n, hex, hfirst, hn, rfl, rfl, rfl⟩
  · exact absurd h (hnone rule text span)

namespace Session

theorem cursor_setCursor (s : Session) (i j : Nat) (c : Cursor) :
    (s.setCursor i c).cursor j = if i = j ∧ i < s.cursors.size then c else s.cursor j := by
  simp only [setCursor, cursor, Array.getElem?_setIfInBounds]
  by_cases hij : i = j
  · subst hij
    by_cases hi : i < s.cursors.size <;> simp [hi]
  · simp [hij]

theorem size_setCursor (s : Session) (i : Nat) (c : Cursor) :
    (s.setCursor i c).cursors.size = s.cursors.size := by
  simp [setCursor]

theorem entriesOn_append (i : Nat) (es fs : List Entry) :
    entriesOn i (es ++ fs) = entriesOn i fs ++ entriesOn i es := by
  simp [entriesOn]

theorem entriesOn_self {i : Nat} {es : List Entry} (h : ∀ e ∈ es, e.cursor = i) :
    entriesOn i es = es.reverse := by
  rw [entriesOn, List.filter_eq_self.mpr]
  exact fun e he => decide_eq_true (h e he)

theorem entriesOn_other {i j : Nat} {es : List Entry} (h : ∀ e ∈ es, e.cursor = j) (hij : j ≠ i) :
    entriesOn i es = [] := by
  rw [entriesOn, List.filter_eq_nil_iff.mpr, List.reverse_nil]
  exact fun e he => by simpa [h e he] using hij

/-- The move of one cursor, seen from any: the others rest, and none of the entries are on them. -/
theorem moves_setCursor {s : Session} {i j : Nat} {c : Cursor} {es : List Entry}
    (hi : i < s.cursors.size) (on : ∀ e ∈ es, e.cursor = j) (h : (s.cursor j).Moves es.reverse c) :
    (s.cursor i).Moves (entriesOn i es) ((s.setCursor j c).cursor i) := by
  rw [cursor_setCursor]
  by_cases hij : j = i
  · subst hij
    rw [if_pos ⟨rfl, hi⟩, entriesOn_self on]
    exact h
  · rw [if_neg fun both => hij both.1, entriesOn_other on hij]
    exact .done _

/-- An effect moves a cursor, and the journal tells how. -/
theorem Effect.moves {s t : Session} (h : Effect s t) {i : Nat} (hi : i < s.cursors.size) :
    i < t.cursors.size ∧
      ∃ es, t.journal = es ++ s.journal ∧ (s.cursor i).Moves (entriesOn i es) (t.cursor i) := by
  have still {t : Session} (cursors : t.cursors = s.cursors) (journal : t.journal = s.journal) :
      i < t.cursors.size ∧
        ∃ es, t.journal = es ++ s.journal ∧ (s.cursor i).Moves (entriesOn i es) (t.cursor i) := by
    refine ⟨cursors ▸ hi, [], journal, ?_⟩
    have hc : t.cursor i = s.cursor i := by simp only [Session.cursor, cursors]
    rw [hc]
    exact .done _
  have marked (j : Nat) : i < (s.setCursor j (s.cursor j).markIfEmpty).cursors.size ∧
      ∃ es, (s.setCursor j (s.cursor j).markIfEmpty).journal = es ++ s.journal ∧
        (s.cursor i).Moves (entriesOn i es)
          ((s.setCursor j (s.cursor j).markIfEmpty).cursor i) :=
    ⟨by rwa [size_setCursor], [], rfl,
      moves_setCursor hi (fun e he => absurd he List.not_mem_nil) (.mark (.done _))⟩
  cases h with
  | tried table j =>
    unfold Session.tried
    rcases table.attempt_cases (s.cursor j) with ⟨rule, n, -, -, hn, ha⟩ | ⟨hf, hd⟩
    · rw [ha]
      refine ⟨by rwa [size_setCursor], [_], rfl, ?_⟩
      exact moves_setCursor hi (by simp) (.mark (.take n hn rfl rfl (.done _)))
    · cases ha : table.attempt (s.cursor j) with
      | mk a d =>
        rw [ha] at hf hd
        obtain rfl : d = _ := hd
        cases a with
        | fired rule text span => exact absurd rfl (hf rule text span)
        | _ => exact marked j
  | advanced j n le =>
    refine ⟨by rwa [Session.advanced, size_setCursor], [_], rfl, ?_⟩
    exact moves_setCursor hi (by simp) (.take n le rfl rfl (.done _))
  | marked j => exact marked j
  | textOpened text =>
    refine ⟨by simp; omega, [], rfl, ?_⟩
    have hsame : (s.cursors.push (.ofText text))[i]? = s.cursors[i]? := by
      rw [Array.getElem?_push_lt hi, Array.getElem?_eq_getElem hi]
    have hc : Session.cursor { s with cursors := s.cursors.push (.ofText text) } i = s.cursor i := by
      simp only [Session.cursor, hsame]
    rw [hc]
    exact .done _
  | streamOpened table j context => exact still rfl rfl
  | streamFailed j t f of => exact still rfl rfl
  | streamEnded j t of => exact still rfl rfl
  | beside cursors streams journal => exact still cursors journal

/-- What happens to a session moves a cursor in it, and the journal tells how. -/
theorem Leads.moves {s t : Session} (h : s.Leads t) {i : Nat} (hi : i < s.cursors.size) :
    i < t.cursors.size ∧
      ∃ es, t.journal = es ++ s.journal ∧ (s.cursor i).Moves (entriesOn i es) (t.cursor i) := by
  induction h with
  | refl => exact ⟨hi, [], rfl, .done _⟩
  | tail _ effect ih =>
    obtain ⟨hu, es, hes, hmoves⟩ := ih
    obtain ⟨ht, fs, hfs, hmoves'⟩ := effect.moves hu
    refine ⟨ht, fs ++ es, by rw [hfs, hes, List.append_assoc], ?_⟩
    rw [entriesOn_append]
    exact hmoves.trans hmoves'

/-- A moment after a cursor, which has the given number, was opened on a text. -/
def Reachable (text : List Char) (i : Nat) (t : Session) : Prop :=
  ∃ s : Session, s.cursors.size = i ∧
    Leads { s with cursors := s.cursors.push (.ofText text) } t

/-- The cursor of a reachable moment stands in its text, soundly. -/
theorem Reachable.cursor {text : List Char} {i : Nat} {t : Session} (h : t.Reachable text i) :
    i < t.cursors.size ∧ (t.cursor i).text = text ∧ (t.cursor i).Sound := by
  obtain ⟨s, rfl, hl⟩ := h
  obtain ⟨ht, es, -, hmoves⟩ := hl.moves (i := s.cursors.size) (by simp)
  have hc : Session.cursor { s with cursors := s.cursors.push (.ofText text) } s.cursors.size =
      .ofText text := by
    simp [Session.cursor]
  rw [hc] at hmoves
  exact ⟨ht, hmoves.text, hmoves.sound (Cursor.sound_ofText text)⟩

theorem Reachable.leads {text : List Char} {i : Nat} {t u : Session} (h : t.Reachable text i)
    (hl : t.Leads u) : u.Reachable text i := by
  obtain ⟨s, hs, hst⟩ := h
  exact ⟨s, hs, hst.trans hl⟩

end Session

end FirstMatch
