import FirstMatch.Cursor
import Mathlib.Data.List.Induction
import Mathlib.Data.List.TakeWhile
import Mathlib.Tactic.Common

/-!
Coordinates in closed form: the line, the column and the byte offset of a place are functions of the
text before it. Bytes are those of the text in UTF-8, so a range of bytes that lies between two places
encodes the characters between them.
-/

namespace FirstMatch

/-- The line and the column of the `i`-th character of a text, by the newlines before it. -/
def pointAt (text : List Char) (i : Nat) : Point :=
  let before := text.take i
  ⟨1 + before.count '\n', 1 + (before.reverse.takeWhile (· ≠ '\n')).length⟩

def utf8 (text : List Char) : ByteArray := (String.ofList text).toUTF8

/-- The byte offset of the `i`-th character of a text. -/
def byteAt (text : List Char) (i : Nat) : Nat := (utf8 (text.take i)).size

/-- The order of reading: by lines, then by columns. -/
def Point.Before (p q : Point) : Prop := p.line < q.line ∨ p.line = q.line ∧ p.col < q.col

theorem Point.Before.trans {p q r : Point} (hpq : p.Before q) (hqr : q.Before r) : p.Before r := by
  unfold Point.Before at *
  omega

theorem Point.Before.ne {p q : Point} (h : p.Before q) : p ≠ q := by
  rintro rfl
  unfold Point.Before at h
  omega

theorem utf8_append (cs ds : List Char) : utf8 (cs ++ ds) = utf8 cs ++ utf8 ds := by
  simp [utf8]

theorem size_utf8 (cs : List Char) : (utf8 cs).size = Place.byteCount cs := by
  induction cs with
  | nil => rfl
  | cons c cs ih =>
    have hc : (utf8 [c]).size = c.utf8Size := by
      simp [utf8, List.utf8Encode_singleton]
    rw [← List.singleton_append, utf8_append, ByteArray.size_append, ih, hc]
    rfl

/-- Reading the bytes of a text gives the text. -/
theorem fromUTF8?_utf8 (cs : List Char) : String.fromUTF8? (utf8 cs) = some (String.ofList cs) := by
  have hv : (utf8 cs).IsValidUTF8 := (String.ofList cs).isValidUTF8
  unfold String.fromUTF8?
  rw [dif_pos hv]
  rfl

namespace Place

theorem after_concat (p : Place) (cs : List Char) (c : Char) :
    p.after (cs ++ [c]) = (p.after cs).next c := by
  rw [after_append, after_cons, after_nil]

theorem line_start_after (cs : List Char) : (start.after cs).line = 1 + cs.count '\n' := by
  induction cs using List.reverseRecOn with
  | nil => rfl
  | append_singleton cs c ih =>
    rw [after_concat, next]
    by_cases hc : c = '\n'
    · simp [hc, ih]
      omega
    · simp [hc, ih]

theorem col_start_after (cs : List Char) :
    (start.after cs).col = 1 + (cs.reverse.takeWhile (· ≠ '\n')).length := by
  induction cs using List.reverseRecOn with
  | nil => rfl
  | append_singleton cs c ih =>
    rw [after_concat, next]
    by_cases hc : c = '\n'
    · simp [hc]
    · simp [hc, ih]
      omega

theorem point_start_after_take (text : List Char) (i : Nat) :
    (start.after (text.take i)).point = pointAt text i := by
  simp only [point, pointAt, line_start_after, col_start_after]
  norm_cast

theorem byte_start_after_take (text : List Char) (i : Nat) :
    (start.after (text.take i)).byte = byteAt text i := by
  rw [byte_after, byteAt, size_utf8]
  simp [start]

/-- The last of some characters stands where the place was before it. -/
theorem last_take_succ (p : Place) {cs : List Char} {n : Nat} (h : n < cs.length) :
    p.last (cs.take (n + 1)) = p.after (cs.take n) := by
  rw [List.take_succ_eq_append_getElem h, last_append_singleton]

end Place

/-- The bytes from one character of a text to another encode what lies between them. -/
theorem extract_byteAt (text : List Char) (i n : Nat) :
    (utf8 text).extract (byteAt text i) (byteAt text (i + n)) = utf8 ((text.drop i).take n) := by
  have hupto : text.take (i + n) = text.take i ++ (text.drop i).take n := List.take_add
  have hsplit : text = text.take i ++ (text.drop i).take n ++ text.drop (i + n) := by
    rw [← hupto, List.take_append_drop]
  have henc : utf8 text =
      utf8 (text.take i) ++ utf8 ((text.drop i).take n) ++ utf8 (text.drop (i + n)) := by
    rw [← utf8_append, ← utf8_append, ← hsplit]
  rw [henc, byteAt, byteAt, hupto, utf8_append, ByteArray.extract_append]
  simp [ByteArray.extract_append_eq_right]

theorem byteAt_length (text : List Char) : byteAt text text.length = (utf8 text).size := by
  rw [byteAt, List.take_length]

theorem pointAt_before_succ (text : List Char) {i : Nat} (h : i < text.length) :
    (pointAt text i).Before (pointAt text (i + 1)) := by
  have hsucc : text.take (i + 1) = text.take i ++ [text[i]] := List.take_succ_eq_append_getElem h
  generalize text[i] = c at hsucc
  simp only [pointAt, hsucc, List.count_append, List.reverse_append]
  by_cases hc : c = '\n'
  · left
    have hcount : [c].count '\n' = 1 := by rw [hc]; rfl
    rw [hcount]
    dsimp only
    omega
  · right
    have hcount : [c].count '\n' = 0 := List.count_eq_zero.mpr (by simpa using Ne.symm hc)
    have hcol : ([c].reverse ++ (text.take i).reverse).takeWhile (· ≠ '\n') =
        c :: (text.take i).reverse.takeWhile (· ≠ '\n') :=
      List.takeWhile_cons_of_pos (by simpa using hc)
    rw [hcount, hcol, List.length_cons]
    dsimp only
    omega

/-- Characters stand in the order of reading, so no two at the same point. -/
theorem pointAt_before (text : List Char) {i j : Nat} (hij : i < j) (hj : j ≤ text.length) :
    (pointAt text i).Before (pointAt text j) := by
  induction j, hij using Nat.le_induction with
  | base => exact pointAt_before_succ text hj
  | succ j hij ih => exact (ih (by omega)).trans (pointAt_before_succ text hj)

end FirstMatch
