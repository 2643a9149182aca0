import FirstMatch.Proofs.History
import FirstMatch.Recipe

/-!
Locations of matches and of unmatched input. The four coordinates that a cursor keeps step by step are,
at every moment of every run, those of the characters of its text, and the span of a match begins at
its first character and stops at its last one.
-/

namespace FirstMatch

/-- The span of `n` characters of a text from its `k`-th on, and the characters that they are. -/
structure Located (text : List Char) (k n : Nat) (taken : List Char) (span : Span) : Prop where
  inside : k + n ≤ text.length
  start : span.start = pointAt text k
  stop : span.stop = if n = 0 then pointAt text k else pointAt text (k + n - 1)
  bytes : span.bytes = (↑(byteAt text k), ↑(byteAt text (k + n)))
  decoded : String.fromUTF8? ((utf8 text).extract (byteAt text k) (byteAt text (k + n))) =
    some (String.ofList taken)
  short : span.start = span.stop ↔ n ≤ 1

/-- The span of the match that an outcome is about. -/
def Outcome.matchSpan? : Outcome → Option Span
  | emitted _ span | skipped span | failed (.action _ _ span _ _) => some span
  | _ => none

namespace Cursor.Sound

theorem located {c : Cursor} (h : c.Sound) {n : Nat} (hn : n ≤ c.ahead.length) :
    Located c.text c.place.char n (c.ahead.take n) (c.spanOf n) := by
  have hlen := c.length_text
  have hinside : c.place.char + n ≤ c.text.length := by
    rw [h.char]
    omega
  have hstop : (c.spanOf n).stop =
      if n = 0 then pointAt c.text c.place.char else pointAt c.text (c.place.char + n - 1) := by
    cases n with
    | zero => exact h.point
    | succ n =>
      have hlast : c.place.last (c.ahead.take (n + 1)) = c.place.after (c.ahead.take n) :=
        Place.last_take_succ _ hn
      simp only [spanOf, Span.between, hlast, h.after_take, Place.point_start_after_take]
      rfl
  refine ⟨hinside, h.point, hstop, ?_, ?_, ?_⟩
  · have hafter : (c.move n).place = Place.start.after (c.text.take (c.place.char + n)) :=
      h.after_take n
    simp only [spanOf, Span.between, hafter, h.byte, Place.byte_start_after_take]
  · rw [extract_byteAt, ← h.ahead_eq_drop]
    exact fromUTF8?_utf8 _
  · have hstart : (c.spanOf n).start = pointAt c.text c.place.char := h.point
    rw [hstart, hstop]
    by_cases hn : n ≤ 1
    · have : c.place.char + n - 1 = c.place.char ∨ n = 0 := by omega
      rcases this with heq | rfl
      · simp [heq, hn]
      · simp
    · have hbefore := pointAt_before c.text (i := c.place.char) (j := c.place.char + n - 1)
        (by omega) (by omega)
      rw [if_neg (by omega)]
      exact ⟨fun heq => absurd heq hbefore.ne, fun hle => absurd hle hn⟩

end Cursor.Sound

namespace RuleTable

/-- Input is unmatched at a character, and its location is the spot before it. -/
theorem attempt_unmatched {table : RuleTable} {c : Cursor} {character : Option Char}
    {location : Span} (h : (table.attempt c).1 = .unmatched character location) :
    ∃ x, c.ahead.head? = some x ∧ character = some x ∧ location = c.place.spot := by
  cases hex : c.exhausted with
  | true =>
    simp [attempt, hex] at h
  | false =>
    unfold attempt at h
    simp only [hex, Bool.false_eq_true, ↓reduceIte] at h
    split at h
    · split at h <;> cases h
    · cases h
    · split at h
      · cases h
      · next he =>
        cases h
        cases ha : c.ahead with
        | nil => simp [Cursor.markIfEmpty, hex, Cursor.isEmpty, ha] at he
        | cons x xs => exact ⟨x, rfl, by simp [Cursor.peek, Cursor.markIfEmpty, ha], rfl⟩

/-- An outcome about a match has the span of the rule that fired, whose action got the matched text. -/
theorem fired_of_matchSpan? {perform : Performer} {table : RuleTable} {i : Nat}
    {context : Arguments} {s u : Session} {o : Outcome} {span : Span}
    (h : table.stepWith perform i context s = some (.ok o, u)) (ho : o.matchSpan? = some span) :
    ∃ rule taken v, (table.attempt (s.cursor i)).1 = .fired rule taken span ∧
      rule.invoke perform taken i span context (s.tried table i) = some v := by
  rw [stepWith_apply] at h
  split at h
  · cases h
    cases ho
  · cases h
    cases ho
  · cases h
  · cases h
  · next rule taken fired ha =>
    split at h
    · cases h
    · next v t hv =>
      cases h
      have : span = fired := by
        cases v <;> exact (Option.some.inj ho).symm
      subst this
      exact ⟨rule, taken, _, ha, hv⟩
    · next f t hf =>
      split at h
      · cases h
        obtain rfl := Option.some.inj ho
        exact ⟨rule, taken, _, ha, hf⟩
      · cases h

end RuleTable

end FirstMatch
