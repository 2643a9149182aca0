import FirstMatch.Proofs.History
import FirstMatch.Recipe

/-!
Consumed spans tile the text. Whatever engines, streams, actions and callers do with a cursor, in
whatever order and however nested, the byte ranges of what they consume follow each other without a
gap and without overlap, from where the cursor stood to where it stands.
-/

namespace FirstMatch

/-- Ranges that lead from one offset to another, each beginning where the one before ends. -/
def Tiles : Int → List (Int × Int) → Int → Prop
  | a, [], b => a = b
  | a, r :: rs, b => r.1 = a ∧ r.1 ≤ r.2 ∧ Tiles r.2 rs b

/-- The parts of some bytes at the given ranges, one after the other. -/
def slices (bytes : ByteArray) (ranges : List (Int × Int)) : ByteArray :=
  ranges.foldr (fun r rest => bytes.extract r.1.toNat r.2.toNat ++ rest) ByteArray.empty

namespace Tiles

theorem le {a b : Int} {rs : List (Int × Int)} (h : Tiles a rs b) : a ≤ b := by
  induction rs generalizing a with
  | nil => exact Int.le_of_eq h
  | cons r rs ih =>
    obtain ⟨rfl, hr, ht⟩ := h
    exact Int.le_trans hr (ih ht)

/-- No range begins before the tiling does. -/
theorem le_fst {a b : Int} {rs : List (Int × Int)} (h : Tiles a rs b) : ∀ r ∈ rs, a ≤ r.1 := by
  induction rs generalizing a with
  | nil => exact nofun
  | cons q rs ih =>
    obtain ⟨rfl, hq, ht⟩ := h
    intro r hr
    rcases List.mem_cons.mp hr with rfl | hr
    · exact Int.le_refl _
    · exact Int.le_trans hq (ih ht r hr)

theorem pairwise {a b : Int} {rs : List (Int × Int)} (h : Tiles a rs b) :
    rs.Pairwise fun q r => q.2 ≤ r.1 := by
  induction rs generalizing a with
  | nil => exact .nil
  | cons q rs ih =>
    obtain ⟨-, -, ht⟩ := h
    exact List.pairwise_cons.mpr ⟨ht.le_fst, ih ht⟩

/-- The parts of a tiling are what lies between its ends. -/
theorem slices_eq_extract {bytes : ByteArray} {a b : Int} {rs : List (Int × Int)}
    (h : Tiles a rs b) : slices bytes rs = bytes.extract a.toNat b.toNat := by
  induction rs generalizing a with
  | nil =>
    obtain rfl : a = b := h
    rw [ByteArray.extract_same]
    rfl
  | cons r rs ih =>
    obtain ⟨rfl, hr, ht⟩ := h
    have hb := ht.le
    calc slices bytes (r :: rs)
        = bytes.extract r.1.toNat r.2.toNat ++ slices bytes rs := rfl
      _ = bytes.extract r.1.toNat r.2.toNat ++ bytes.extract r.2.toNat b.toNat := by rw [ih ht]
      _ = bytes.extract r.1.toNat b.toNat := by
          rw [ByteArray.extract_append_extract, Nat.min_eq_left (by omega),
            Nat.max_eq_right (by omega)]

end Tiles

namespace Cursor

theorem byte_move (c : Cursor) (n : Nat) :
    (c.move n).place.byte = c.place.byte + Place.byteCount (c.ahead.take n) :=
  Place.byte_after ..

/-- The moves of a cursor tile the bytes that it passes. -/
theorem Moves.tiles {c d : Cursor} {es : List Entry} (h : c.Moves es d) :
    Tiles c.place.byte (es.map fun e => e.span.bytes) d.place.byte := by
  induction h with
  | done c => rfl
  | mark _ ih => exact ih
  | @take c d e es n le text span _ ih =>
    rw [List.map_cons, span]
    refine ⟨rfl, ?_, ih⟩
    have hbyte := c.byte_move n
    simp only [spanOf, Span.between]
    omega

/-- The moves of a cursor consume the characters ahead in their order, each of them once. -/
theorem Moves.flatMap_text {c d : Cursor} {es : List Entry} (h : c.Moves es d) :
    (es.flatMap fun e => e.text) ++ d.ahead = c.ahead := by
  induction h with
  | done c => rfl
  | mark _ ih => exact ih
  | @take c d e es n le text span _ ih =>
    have hdrop : (c.move n).ahead = c.ahead.drop n := rfl
    rw [List.flatMap_cons, List.append_assoc, ih, text, hdrop, List.take_append_drop]

/-- From a cursor to the end of its text there are the bytes of what is ahead. -/
theorem Sound.extract {c : Cursor} (h : c.Sound) :
    (utf8 c.text).extract c.place.byte (utf8 c.text).size = utf8 c.ahead := by
  have hlen : c.text.length = c.place.char + c.ahead.length := by rw [h.char, c.length_text]
  rw [h.byte, ← byteAt_length, hlen, extract_byteAt, ← h.ahead_eq_drop, List.take_length]

/-- A sound cursor with nothing ahead stands behind all bytes. -/
theorem Sound.byte_of_ahead {c : Cursor} (h : c.Sound) (ha : c.ahead = []) :
    c.place.byte = (utf8 c.text).size := by
  have hlen : c.text.length = c.place.char := by rw [h.char, c.length_text, ha]; rfl
  rw [h.byte, ← byteAt_length, hlen]

end Cursor

/-- Exhaustion is reported at the end of the text only. -/
theorem RuleTable.ahead_of_attempt_exhausted {table : RuleTable} {c : Cursor} (hc : c.Sound)
    (h : (table.attempt c).1 = .exhausted) : c.ahead = [] := by
  cases hex : c.exhausted with
  | true => exact hc.ended hex
  | false =>
    unfold attempt at h
    rw [hex] at h
    simp only [Bool.false_eq_true, ↓reduceIte] at h
    split at h
    · split at h <;> cases h
    · cases h
    · split at h
      · next he => simpa [Cursor.markIfEmpty, hex, Cursor.isEmpty] using he
      · cases h

theorem RuleTable.attempt_of_stepWith_exhausted {perform : Performer} {table : RuleTable} {i : Nat}
    {context : Arguments} {s t : Session}
    (h : table.stepWith perform i context s = some (.ok .exhausted, t)) :
    (table.attempt (s.cursor i)).1 = .exhausted := by
  rw [RuleTable.stepWith_apply] at h
  split at h
  · assumption
  · cases h
  · cases h
  · cases h
  · next rule text span _ =>
    split at h
    · cases h
    · next v _ _ =>
      cases v <;> cases h
    · split at h <;> cases h

/-- From any moment of a cursor's use on, whatever callers and actions do, the byte ranges of matches
and advances tile the bytes from where the cursor stood to where it stands, and their texts are the
characters between. When an engine reports that the input is exhausted, they have reached its end. -/
theorem consumed_spans_tile {text : List Char} {i : Nat} {s : Session} (hs : s.Reachable text i) :
    (∀ (α : Type) (p : Script α) (depth : Nat) (r : Except Fault α) (t : Session),
      p.run (Run.perform depth) s = some (r, t) → s.Leads t) ∧
    ∀ t, s.Leads t → ∃ es, t.journal = es ++ s.journal ∧
      let ranges := (Session.entriesOn i es).map fun e => e.span.bytes
      Tiles (s.cursor i).place.byte ranges (t.cursor i).place.byte ∧
      (s.cursor i).place.byte ≤ (t.cursor i).place.byte ∧
      (ranges.Pairwise fun q r => q.2 ≤ r.1) ∧
      ((Session.entriesOn i es).flatMap fun e => e.text) ++ (t.cursor i).ahead =
        (s.cursor i).ahead ∧
      ∀ (perform : Performer) (table : RuleTable) (context : Arguments) (u : Session),
        table.stepWith perform i context t = some (.ok .exhausted, u) →
        (t.cursor i).place.byte = (utf8 text).size ∧
        slices (utf8 text) ranges = utf8 (s.cursor i).ahead := by
  refine ⟨fun α p depth r t => Run.leads_of_script, fun t hl => ?_⟩
  obtain ⟨hi, htext, hsound⟩ := hs.cursor
  obtain ⟨-, httext, htsound⟩ := (hs.leads hl).cursor
  obtain ⟨-, es, hes, hmoves⟩ := hl.moves hi
  have htiles := hmoves.tiles
  refine ⟨es, hes, htiles, ?_, htiles.pairwise, hmoves.flatMap_text, ?_⟩
  · exact Int.ofNat_le.mp htiles.le
  intro perform table context u hstep
  have hahead : (t.cursor i).ahead = [] :=
    RuleTable.ahead_of_attempt_exhausted htsound (RuleTable.attempt_of_stepWith_exhausted hstep)
  have hend : (t.cursor i).place.byte = (utf8 text).size := by
    rw [htsound.byte_of_ahead hahead, httext]
  refine ⟨hend, ?_⟩
  rw [htiles.slices_eq_extract, Int.toNat_natCast, Int.toNat_natCast, hend, ← htext]
  exact hsound.extract

open Script (request)

/-- Takes one digit. -/
def digits : RuleTable :=
  ⟨[⟨0, .regex .pattern "[0-9]".toList ⟨.set false [.range 48 57] .exact, 1⟩, .string,
    ⟨1, [], [], false⟩⟩]⟩

/-- Reads the digits after a number sign as tokens, until there is an error or the end. -/
def numberSign : Action where
  display := "numberSign"
  signature := Action.standardSignature 2
  body b := do
    let stream ← request (.openStream "digits" (b.cursor?.getD 0) [])
    Script.iterate (fun _ => do
      match ← request (.next stream) with
      | some _ => return .inl ()
      | none => return .inr .null) 4 ()

def numbers : RuleTable :=
  ⟨[⟨0, .regex .pattern ['#'] ⟨.char 35 .exact, 1⟩, numberSign, ⟨2, [], [], false⟩⟩]⟩

/-- A session with a cursor before a number sign, two digits and a letter. -/
def numberSession : Session :=
  { Session.empty with
    cursors := #[.ofText "#12x".toList]
    lexers := [("numbers", numbers), ("digits", digits)] }

/-- A step whose action fails at the letter, an advance over it, and a step at the end. -/
def numberVisit : Script Outcome := do
  let _ ← request (.step "numbers" 0 [])
  let _ ← request (.advance 0 1)
  request (.step "numbers" 0 [])

/-- The match of the number sign comes before those within its action, and the advance after them. -/
theorem consumed_spans_tile_numbers :
    numberSession.Reachable "#12x".toList 0 ∧
    ∃ r t, numberVisit.run (Run.perform 4) numberSession = some (r, t) ∧ numberSession.Leads t ∧
      ∃ es, t.journal = es ∧
        ((Session.entriesOn 0 es).map fun e => e.span.bytes) = [(0, 1), (1, 2), (2, 3), (3, 4)] ∧
        Tiles 0 [(0, 1), (1, 2), (2, 3), (3, 4)] (t.cursor 0).place.byte ∧
        ((Session.entriesOn 0 es).flatMap fun e => e.text) ++ (t.cursor 0).ahead =
          "#12x".toList := by
  have hs : numberSession.Reachable "#12x".toList 0 :=
    ⟨{ Session.empty with lexers := numberSession.lexers }, rfl, .refl⟩
  have hsome : (numberVisit.run (Run.perform 4) numberSession).isSome = true := by decide +kernel
  have hranges : ((numberVisit.run (Run.perform 4) numberSession).map fun p =>
      (Session.entriesOn 0 p.2.journal).map fun e => e.span.bytes) =
        some [(0, 1), (1, 2), (2, 3), (3, 4)] := by
    decide +kernel
  obtain ⟨⟨r, t⟩, hrun⟩ := Option.isSome_iff_exists.mp hsome
  rw [hrun] at hranges
  obtain ⟨hleads, htile⟩ := consumed_spans_tile hs
  have hl := hleads _ _ _ _ _ hrun
  obtain ⟨es, hes, htiles, -, -, htexts, -⟩ := htile t hl
  have hjournal : t.journal = es := by simpa [numberSession, Session.empty] using hes
  have hmap : ((Session.entriesOn 0 es).map fun e => e.span.bytes) =
      [(0, 1), (1, 2), (2, 3), (3, 4)] := by
    rw [← hjournal]
    exact Option.some.inj hranges
  refine ⟨hs, r, t, hrun, hl, es, hjournal, hmap, ?_, htexts⟩
  rw [hmap] at htiles
  exact htiles

end FirstMatch
