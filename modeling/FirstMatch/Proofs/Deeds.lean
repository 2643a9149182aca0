import FirstMatch.Proofs.Reading

/-!
Deeds on one cursor. Seen from a cursor, a deed tries a table on it, advances it, marks it, or leaves
it alone, and the entries of the journal on it tell which matches and advances there were. A measure of
the cursor that falls with each entry of some sort bounds how many of them there can be, whatever else
happens in between.
-/

namespace FirstMatch

/-- The entry of a match, and not of a direct advance. -/
def Entry.isMatch (e : Entry) : Bool :=
  match e.consumer with
  | .rule .. => true
  | .direct => false

/-- The entry of a match of a rule for the end. -/
def Entry.endsInput (e : Entry) : Bool :=
  match e.consumer with
  | .rule .eof _ => true
  | _ => false

/-- The entry that an attempt leaves if a rule fires. -/
def Attempt.entries (i : Nat) : Attempt → List Entry
  | .fired rule text span => [⟨i, .rule rule.kind rule.priority, text, span⟩]
  | _ => []

theorem Attempt.entries_eq_nil {a : Attempt} (h : ∀ rule text span, a ≠ .fired rule text span)
    (i : Nat) : a.entries i = [] := by
  cases a with
  | fired rule text span => exact absurd rfl (h rule text span)
  | _ => rfl

/-- The entry of a direct advance by `n` characters. -/
def Cursor.advanceEntry (i : Nat) (c : Cursor) (n : Nat) : Entry :=
  ⟨i, .direct, c.ahead.take n, c.spanOf n⟩

namespace Session

/-- What a deed is for one cursor. -/
inductive DeedOn (i : Nat) (s : Session) : Session → Prop
  | tried (table : RuleTable) (held : s.Holds table) : DeedOn i s (s.tried table i)
  | advanced (n : Nat) (le : n ≤ (s.cursor i).ahead.length) : DeedOn i s (s.advanced i n)
  | marked : DeedOn i s (s.setCursor i (s.cursor i).markIfEmpty)
  | apart {t : Session} (cursor : t.cursor i = s.cursor i)
      (entries : entriesOn i t.journal = entriesOn i s.journal) : DeedOn i s t

section

variable {s t : Session} {i j : Nat}

theorem entriesOn_cons_self (e : Entry) (es : List Entry) (h : e.cursor = i) :
    entriesOn i (e :: es) = entriesOn i es ++ [e] := by
  simp [entriesOn, h]

theorem entriesOn_cons_ne (e : Entry) (es : List Entry) (h : e.cursor ≠ i) :
    entriesOn i (e :: es) = entriesOn i es := by
  simp [entriesOn, h]

theorem cursor_setCursor_self (hi : i < s.cursors.size) (c : Cursor) :
    (s.setCursor i c).cursor i = c := by
  rw [cursor_setCursor, if_pos ⟨rfl, hi⟩]

theorem cursor_setCursor_ne (h : j ≠ i) (c : Cursor) :
    (s.setCursor j c).cursor i = s.cursor i := by
  rw [cursor_setCursor, if_neg fun both => h both.1]

theorem setCursor_self (s : Session) (i : Nat) : s.setCursor i (s.cursor i) = s := by
  have hcursors : s.cursors.setIfInBounds i (s.cursor i) = s.cursors := by
    apply Array.ext_getElem?
    intro k
    rw [Array.getElem?_setIfInBounds]
    split
    · next hk =>
      subst hk
      split
      · next hi => simp [cursor, hi]
      · next hi => simp [hi]
    · rfl
  unfold setCursor
  rw [hcursors]

@[simp] theorem lexers_tried (s : Session) (table : RuleTable) (i : Nat) :
    (s.tried table i).lexers = s.lexers := by
  unfold tried
  split <;> rfl

@[simp] theorem engines_tried (s : Session) (table : RuleTable) (i : Nat) :
    (s.tried table i).engines = s.engines := by
  unfold tried
  split <;> rfl

@[simp] theorem streams_tried (s : Session) (table : RuleTable) (i : Nat) :
    (s.tried table i).streams = s.streams := by
  unfold tried
  split <;> rfl

theorem size_tried (s : Session) (table : RuleTable) (i : Nat) :
    (s.tried table i).cursors.size = s.cursors.size := by
  unfold tried
  split <;> exact size_setCursor s i _

theorem cursor_tried_self (hi : i < s.cursors.size) (table : RuleTable) :
    (s.tried table i).cursor i = (table.attempt (s.cursor i)).2 := by
  unfold tried
  split
  · next ha =>
    rw [ha]
    exact cursor_setCursor_self hi _
  · next ha =>
    rw [ha]
    exact cursor_setCursor_self hi _

theorem cursor_tried_ne (h : j ≠ i) (table : RuleTable) :
    (s.tried table j).cursor i = s.cursor i := by
  unfold tried
  split <;> exact cursor_setCursor_ne h _

/-- A table does nothing on an exhausted cursor. -/
theorem tried_of_exhausted (h : (s.cursor i).exhausted = true) (table : RuleTable) :
    s.tried table i = s := by
  have hattempt : table.attempt (s.cursor i) = (.exhausted, s.cursor i) := if_pos h
  unfold tried
  rw [hattempt]
  exact s.setCursor_self i

theorem entriesOn_tried_self (s : Session) (table : RuleTable) (i : Nat) :
    entriesOn i (s.tried table i).journal =
      entriesOn i s.journal ++ (table.attempt (s.cursor i)).1.entries i := by
  unfold tried
  cases table.attempt (s.cursor i) with
  | mk a d =>
    cases a with
    | fired rule text span => exact entriesOn_cons_self _ _ rfl
    | _ => exact (List.append_nil _).symm

theorem entriesOn_tried_ne (h : j ≠ i) (table : RuleTable) :
    entriesOn i (s.tried table j).journal = entriesOn i s.journal := by
  unfold tried
  split
  · exact entriesOn_cons_ne _ _ h
  · rfl

theorem cursor_advanced_self (hi : i < s.cursors.size) (n : Nat) :
    (s.advanced i n).cursor i = (s.cursor i).move n :=
  cursor_setCursor_self hi _

theorem entriesOn_advanced_self (s : Session) (i n : Nat) :
    entriesOn i (s.advanced i n).journal =
      entriesOn i s.journal ++ [(s.cursor i).advanceEntry i n] :=
  entriesOn_cons_self _ _ rfl

theorem cursor_push (hi : i < s.cursors.size) (c : Cursor) :
    Session.cursor { s with cursors := s.cursors.push c } i = s.cursor i := by
  simp only [cursor, Array.getElem?_push_lt hi, Array.getElem?_eq_getElem hi]

theorem stream?_push (a : Stream) {j : Nat} {b : Stream}
    (h : stream? { s with streams := s.streams.push a } j = some b) :
    s.stream? j = some b ∨ b = a := by
  rw [stream?, Array.getElem?_push] at h
  split at h
  · exact .inr (Option.some.inj h).symm
  · exact .inl h

theorem stream?_setStream {a b : Stream} (h : (s.setStream i a).stream? j = some b) :
    s.stream? j = some b ∨ i = j ∧ b = a := by
  simp only [setStream, stream?, Array.getElem?_setIfInBounds] at h
  split at h
  · next hij =>
    split at h
    · exact .inr ⟨hij, (Option.some.inj h).symm⟩
    · cases h
  · exact .inl h

/-- A table that is held after a deed was held before it. -/
theorem Deed.holds (h : Deed s t) {table : RuleTable} (ht : t.Holds table) : s.Holds table := by
  -- A stream that records its end keeps its table.
  have recorded {j : Nat} {a b : Stream} (of : s.stream? j = some a) (same : b.table = a.table)
      (ht : (s.setStream j b).Holds table) : s.Holds table := by
    rcases ht with hl | he | ⟨k, d, hd, rfl⟩
    · exact .inl hl
    · exact .inr (.inl he)
    · rcases stream?_setStream hd with hd | ⟨-, rfl⟩
      · exact .inr (.inr ⟨k, d, hd, rfl⟩)
      · exact .inr (.inr ⟨j, a, of, same.symm⟩)
  cases h with
  | tried other held i =>
    simpa only [Holds, stream?, lexers_tried, engines_tried, streams_tried] using ht
  | advanced i n le => exact ht
  | marked i => exact ht
  | textOpened text => exact ht
  | streamOpened other held i context =>
    rcases ht with hl | he | ⟨j, a, ha, rfl⟩
    · exact .inl hl
    · exact .inr (.inl he)
    · rcases stream?_push _ ha with ha | rfl
      · exact .inr (.inr ⟨j, a, ha, rfl⟩)
      · exact held
  | streamFailed j a f of => exact recorded (b := { a with error := some f }) of rfl ht
  | streamEnded j a of => exact recorded (b := { a with done := true }) of rfl ht
  | beside cursors streams lexers engines journal =>
    simpa only [Holds, stream?, lexers, engines, streams] using ht

theorem Works.holds (h : s.Works t) {table : RuleTable} (ht : t.Holds table) : s.Holds table := by
  induction h with
  | refl => exact ht
  | tail _ deed ih => exact ih (deed.holds ht)

/-- What is true of all tables that are held stays so. -/
theorem Works.forall_holds {T : RuleTable → Prop} (h : s.Works t)
    (hT : ∀ table, s.Holds table → T table) : ∀ table, t.Holds table → T table :=
  fun table ht => hT table (h.holds ht)

/-- A stream stays on its cursor. -/
theorem Deed.stream_kept (h : Deed s t) {a : Stream} (ha : s.stream? j = some a) :
    ∃ b, t.stream? j = some b ∧ b.cursor = a.cursor := by
  -- A stream that records its end stays where it is.
  have recorded {k : Nat} {b c : Stream} (of : s.stream? k = some b) (same : c.cursor = b.cursor) :
      ∃ d, (s.setStream k c).stream? j = some d ∧ d.cursor = a.cursor := by
    simp only [stream?] at ha of
    simp only [setStream, stream?, Array.getElem?_setIfInBounds]
    by_cases hkj : k = j
    · subst hkj
      obtain ⟨hk, -⟩ := Array.getElem?_eq_some_iff.mp of
      rw [of] at ha
      cases ha
      exact ⟨c, by simp [hk], same⟩
    · exact ⟨a, by simp [hkj, ha], rfl⟩
  cases h with
  | tried table held i => exact ⟨a, by rwa [stream?, streams_tried], rfl⟩
  | advanced i n le => exact ⟨a, ha, rfl⟩
  | marked i => exact ⟨a, ha, rfl⟩
  | textOpened text => exact ⟨a, ha, rfl⟩
  | streamOpened table held i context =>
    obtain ⟨hj, -⟩ := Array.getElem?_eq_some_iff.mp ha
    exact ⟨a, (Array.getElem?_push_lt hj).trans ((Array.getElem?_eq_getElem hj).symm.trans ha), rfl⟩
  | streamFailed k b f of => exact recorded (c := { b with error := some f }) of rfl
  | streamEnded k b of => exact recorded (c := { b with done := true }) of rfl
  | beside cursors streams lexers engines journal => exact ⟨a, by rwa [stream?, streams], rfl⟩

theorem Works.stream_kept (h : s.Works t) {a : Stream} (ha : s.stream? j = some a) :
    ∃ b, t.stream? j = some b ∧ b.cursor = a.cursor := by
  induction h with
  | refl => exact ⟨a, ha, rfl⟩
  | tail _ deed ih =>
    obtain ⟨b, hb, hcursor⟩ := ih
    obtain ⟨c, hc, hcursor'⟩ := deed.stream_kept hb
    exact ⟨c, hc, hcursor'.trans hcursor⟩

theorem Deed.size_le (h : Deed s t) : s.cursors.size ≤ t.cursors.size := by
  cases h with
  | tried table held j => exact (size_tried s table j).ge
  | advanced j n le => exact (size_setCursor s j _).ge
  | marked j => exact (size_setCursor s j _).ge
  | textOpened text =>
    rw [Array.size_push]
    exact Nat.le_succ _
  | streamOpened table held j context => exact le_rfl
  | streamFailed j a f of => exact le_rfl
  | streamEnded j a of => exact le_rfl
  | beside cursors streams lexers engines journal => exact (congrArg Array.size cursors).ge

theorem Works.size_le (h : s.Works t) : s.cursors.size ≤ t.cursors.size := by
  induction h with
  | refl => exact le_rfl
  | tail _ deed ih => exact ih.trans deed.size_le

/-- This says all that a deed can do to one cursor. -/
theorem Deed.on (h : Deed s t) (hi : i < s.cursors.size) : DeedOn i s t := by
  cases h with
  | tried table held j =>
    by_cases hij : j = i
    · subst hij
      exact .tried table held
    · exact .apart (cursor_tried_ne hij table) (entriesOn_tried_ne hij table)
  | advanced j n le =>
    by_cases hij : j = i
    · subst hij
      exact .advanced n le
    · exact .apart (cursor_setCursor_ne hij _) (entriesOn_cons_ne _ _ hij)
  | marked j =>
    by_cases hij : j = i
    · subst hij
      exact .marked
    · exact .apart (cursor_setCursor_ne hij _) rfl
  | textOpened text => exact .apart (cursor_push hi _) rfl
  | streamOpened table held j context => exact .apart rfl rfl
  | streamFailed j a f of => exact .apart rfl rfl
  | streamEnded j a of => exact .apart rfl rfl
  | beside cursors streams lexers engines journal =>
    exact .apart (by rw [cursor, cursors]; rfl) (congrArg _ journal)

end

end Session

/-- A measure of cursors that pays for entries of a sort: each of them lowers it, and nothing that is
done to a cursor raises it, if the tables tried are of the given kind. -/
structure Cursor.Pays (μ : Cursor → Nat) (p : Entry → Bool) (T : RuleTable → Prop) : Prop where
  tried : ∀ {table : RuleTable}, T table → ∀ (c : Cursor) (i : Nat),
    ((table.attempt c).1.entries i).countP p + μ (table.attempt c).2 ≤ μ c
  advanced : ∀ (c : Cursor) (i n : Nat), n ≤ c.ahead.length →
    [c.advanceEntry i n].countP p + μ (c.move n) ≤ μ c
  marked : ∀ c : Cursor, μ c.markIfEmpty ≤ μ c

namespace Session

variable {μ : Cursor → Nat} {p : Entry → Bool} {T : RuleTable → Prop} {s t : Session} {i : Nat}

theorem DeedOn.count_add_le (pays : Cursor.Pays μ p T) (hT : ∀ table, s.Holds table → T table)
    (hi : i < s.cursors.size) (h : DeedOn i s t) :
    ∃ es, entriesOn i t.journal = entriesOn i s.journal ++ es ∧
      es.countP p + μ (t.cursor i) ≤ μ (s.cursor i) := by
  cases h with
  | tried table held =>
    refine ⟨_, entriesOn_tried_self s table i, ?_⟩
    rw [cursor_tried_self hi]
    exact pays.tried (hT table held) _ i
  | advanced n le =>
    refine ⟨_, entriesOn_advanced_self s i n, ?_⟩
    rw [cursor_advanced_self hi]
    exact pays.advanced _ i n le
  | marked =>
    refine ⟨[], (List.append_nil _).symm, ?_⟩
    rw [cursor_setCursor_self hi, List.countP_nil, Nat.zero_add]
    exact pays.marked _
  | apart cursor entries =>
    refine ⟨[], entries.trans (List.append_nil _).symm, ?_⟩
    rw [cursor, List.countP_nil, Nat.zero_add]

/-- In any chain of deeds the entries that are paid for are no more than the measure has fallen. -/
theorem Works.count_add_le (pays : Cursor.Pays μ p T) (hT : ∀ table, s.Holds table → T table)
    (hi : i < s.cursors.size) (h : s.Works t) :
    ∃ es, entriesOn i t.journal = entriesOn i s.journal ++ es ∧
      es.countP p + μ (t.cursor i) ≤ μ (s.cursor i) := by
  induction h with
  | refl => exact ⟨[], (List.append_nil _).symm, by simp⟩
  | @tail t u works deed ih =>
    obtain ⟨es, hes, hcount⟩ := ih
    have hi' := hi.trans_le (Works.size_le works)
    obtain ⟨fs, hfs, hstep⟩ :=
      (deed.on hi').count_add_le pays (Works.forall_holds works hT) hi'
    refine ⟨es ++ fs, by rw [hfs, hes, List.append_assoc], ?_⟩
    rw [List.countP_append]
    omega

end Session

end FirstMatch
