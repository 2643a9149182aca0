import FirstMatch.Proofs.Deeds
import FirstMatch.Proofs.Tiling
import FirstMatch.Proofs.Tokenizing

/-!
When rules for the end fire. On one cursor at most one match of such a rule is ever made, whoever steps
on it, and it is made behind the last character. A stream that is left alone ends with such a match
exactly if no pattern before the first rule for the end takes the empty text.
-/

namespace FirstMatch

namespace RuleTable

/-- There is a rule for the end, and no pattern before the first one matches the empty text. -/
def EndsInEof (t : RuleTable) : Prop :=
  ∃ before r after, t.rules = before ++ r :: after ∧ r.kind = .eof ∧
    ∀ q ∈ before, q.kind ≠ .eof ∧
      ∀ source program, q.trigger = .regex .pattern source program → program.run [] = none

variable {t : RuleTable} {c : Cursor} {r : CompiledRule}

theorem Built.trigger_eof (h : t.Built) (hr : r ∈ t.rules) (hkind : r.kind = .eof) :
    r.trigger = .eof := by
  have hdeclared := h.declared hr
  unfold CompiledRule.kind at hkind
  generalize r.trigger = trigger at hdeclared hkind
  cases hdeclared with
  | eof => rfl
  | wildcard => cases hkind
  | whitespace => cases hkind
  | pattern source program => cases hkind

/-- The rule that matches first, with those before it that do not match. -/
theorem firstMatch_eq_some_iff {rules : List CompiledRule} {m : Regex.Match} :
    firstMatch rules c = some (r, m) ↔ ∃ before after, rules = before ++ r :: after ∧
      (∀ q ∈ before, q.matchAt c (some c.ahead) = none) ∧ r.matchAt c (some c.ahead) = some m := by
  induction rules with
  | nil => simp [firstMatch]
  | cons q rules ih =>
    unfold firstMatch
    constructor
    · intro h
      split at h
      · next m' hm =>
        cases h
        exact ⟨[], rules, rfl, fun q hq => absurd hq List.not_mem_nil, hm⟩
      · next hnone =>
        obtain ⟨before, after, rfl, hbefore, hm⟩ := ih.mp h
        exact ⟨q :: before, after, rfl, List.forall_mem_cons.mpr ⟨hnone, hbefore⟩, hm⟩
    · rintro ⟨before, after, heq, hbefore, hm⟩
      cases before with
      | nil =>
        cases heq
        rw [hm]
      | cons q' before =>
        cases heq
        obtain ⟨hnone, hbefore⟩ := List.forall_mem_cons.mp hbefore
        rw [hnone]
        exact ih.mpr ⟨before, after, rfl, hbefore, hm⟩

theorem mem_of_firstMatch {m : Regex.Match} (h : firstMatch t.rules c = some (r, m)) :
    r ∈ t.rules ∧ r.matchAt c (some c.ahead) = some m := by
  obtain ⟨before, after, hrules, -, hm⟩ := firstMatch_eq_some_iff.mp h
  exact ⟨hrules ▸ List.mem_append_right _ List.mem_cons_self, hm⟩

/-- A rule for the end matches no characters. -/
theorem Built.match_eof (h : t.Built) (hex : c.exhausted = true) {m : Regex.Match}
    (hfirst : firstMatch t.rules c = some (r, m)) (hkind : r.kind = .eof) : m = .length 0 := by
  obtain ⟨hmem, hmatch⟩ := mem_of_firstMatch hfirst
  rw [CompiledRule.matchAt, h.trigger_eof hmem hkind, Trigger.matchAt, hex] at hmatch
  cases hmatch
  rfl

/-- At the end of the text the rule that matches first is one for the end just if no pattern before the
first of these matches the empty text. -/
theorem Built.endsInEof_iff (h : t.Built) (hex : c.exhausted = true) (ha : c.ahead = []) :
    t.EndsInEof ↔ ∃ r m, firstMatch t.rules c = some (r, m) ∧ r.kind = .eof := by
  constructor
  · rintro ⟨before, r, after, hrules, hkind, hbefore⟩
    have hmem : r ∈ t.rules := hrules ▸ List.mem_append_right _ List.mem_cons_self
    have hmatch : r.matchAt c (some c.ahead) = some (.length 0) := by
      rw [CompiledRule.matchAt, h.trigger_eof hmem hkind, Trigger.matchAt, hex]
      rfl
    refine ⟨r, _, firstMatch_eq_some_iff.mpr ⟨before, after, hrules, fun q hq => ?_, hmatch⟩, hkind⟩
    obtain ⟨hnot, hpattern⟩ := hbefore q hq
    have hdeclared := h.declared (hrules ▸ List.mem_append_left _ hq)
    rw [CompiledRule.matchAt, ha]
    unfold CompiledRule.kind at hnot
    generalize q.trigger = trigger at hdeclared hnot hpattern
    cases hdeclared with
    | eof => exact absurd rfl hnot
    | wildcard => rfl
    | whitespace => rfl
    | pattern source program => exact hpattern source program rfl
  · rintro ⟨r, m, hfirst, hkind⟩
    obtain ⟨before, after, hrules, hbefore, -⟩ := firstMatch_eq_some_iff.mp hfirst
    refine ⟨before, r, after, hrules, hkind, fun q hq => ?_⟩
    have hnone := hbefore q hq
    rw [CompiledRule.matchAt, ha] at hnone
    refine ⟨fun hq' => ?_, fun source program htrigger => ?_⟩
    · rw [h.trigger_eof (hrules ▸ List.mem_append_left _ hq) hq', Trigger.matchAt, hex] at hnone
      cases hnone
    · rw [htrigger] at hnone
      exact hnone

/-- A rule for the end fires where nothing is left only, and then for the first time. -/
theorem Built.ahead_of_fired_eof (h : t.Built) {taken : List Char} {span : Span}
    (hfired : (t.attempt c).1 = .fired r taken span) (hkind : r.kind = .eof) :
    c.ahead = [] ∧ c.exhausted = false ∧ taken = [] ∧ span = c.place.spot ∧
      (t.attempt c).2.exhausted = true := by
  rcases t.attempt_cases c with ⟨rule, n, hex, hfirst, -, ha⟩ | ⟨hnone, -⟩
  · rw [ha] at hfired
    cases hfired
    obtain ⟨hmem, hmatch⟩ := mem_of_firstMatch hfirst
    rw [CompiledRule.matchAt, h.trigger_eof hmem hkind] at hmatch
    have hmark : c.markIfEmpty.exhausted = true := by
      unfold Trigger.matchAt at hmatch
      by_contra hne
      rw [if_neg hne] at hmatch
      cases hmatch
    have hempty : c.ahead = [] := by
      rw [Cursor.markIfEmpty, hex, Bool.false_or] at hmark
      exact List.isEmpty_iff.mp hmark
    refine ⟨hempty, hex, by rw [hempty, List.take_nil], ?_, by rw [ha]; exact hmark⟩
    simp only [Cursor.spanOf, Cursor.move, hempty, List.take_nil]
    rfl
  · exact absurd hfired (hnone r taken span)

/-- Of the one attempt that is made where nothing is left, a rule for the end comes just if no pattern
takes the empty text before. -/
theorem Built.entries_at_end (h : t.Built) (i : Nat) (hex : c.exhausted = false)
    (ha : c.ahead = []) :
    (∃ e, (t.attempt c).1.entries i = [e] ∧ e.endsInput = true ∧ t.EndsInEof) ∨
      ((t.attempt c).1.entries i).countP Entry.endsInput = 0 ∧ ¬t.EndsInEof := by
  have hmark : c.markIfEmpty.exhausted = true := by
    rw [Cursor.markIfEmpty, hex, Cursor.isEmpty, ha]
    rfl
  rw [h.endsInEof_iff hmark ha]
  rcases t.attempt_cases c with ⟨rule, n, -, hfirst, -, hattempt⟩ | ⟨hnone, -⟩
  · rw [hattempt]
    by_cases hkind : rule.kind = .eof
    · exact .inl ⟨_, rfl, by simp [Entry.endsInput, hkind], rule, _, hfirst, hkind⟩
    · right
      constructor
      · simp [Attempt.entries, Entry.endsInput, hkind]
      · rintro ⟨r, m, hr, hk⟩
        rw [hfirst] at hr
        cases hr
        exact hkind hk
  · right
    constructor
    · rw [Attempt.entries_eq_nil hnone, List.countP_nil]
    · rintro ⟨r, m, hr, hk⟩
      -- A rule for the end that matches first also fires: its match is no longer than what is left.
      obtain rfl := h.match_eof hmark hr hk
      refine hnone r [] c.place.spot ?_
      have hadv := Cursor.advance_of_le (c := c.markIfEmpty) (Nat.zero_le _)
      unfold attempt
      simp only [hex, Bool.false_eq_true, ↓reduceIte, hr, hadv]
      rfl

/-- As long as something is left, no rule for the end fires. -/
theorem Built.entries_before_end (h : t.Built) (i : Nat) (ha : c.ahead ≠ []) :
    ((t.attempt c).1.entries i).countP Entry.endsInput = 0 := by
  cases hattempt : (t.attempt c).1 with
  | fired rule text span =>
    have hkind : rule.kind ≠ .eof := fun hk => ha (h.ahead_of_fired_eof hattempt hk).1
    simp [Attempt.entries, Entry.endsInput, hkind]
  | _ => rfl

end RuleTable

namespace Cursor

/-- How many matches of rules for the end there can still be. -/
def endsLeft (c : Cursor) : Nat := if c.exhausted then 0 else 1

theorem endsLeft_markIfEmpty_le (c : Cursor) : c.markIfEmpty.endsLeft ≤ c.endsLeft := by
  unfold endsLeft markIfEmpty
  cases c.exhausted with
  | true => simp
  | false => split <;> simp

/-- A match of a rule for the end takes the one that is left. -/
theorem pays_endsLeft : Pays endsLeft Entry.endsInput RuleTable.Built where
  tried := by
    intro table built c i
    rcases table.attempt_cases c with ⟨rule, n, hex, -, -, ha⟩ | ⟨hnone, hd⟩
    · by_cases hkind : rule.kind = .eof
      · obtain ⟨-, -, -, -, hafter⟩ := built.ahead_of_fired_eof (congrArg Prod.fst ha) hkind
        rw [endsLeft, endsLeft, if_pos hafter, hex, ha]
        exact List.countP_le_length
      · have hcount : ((table.attempt c).1.entries i).countP Entry.endsInput = 0 := by
          rw [ha]
          simp [Attempt.entries, Entry.endsInput, hkind]
        rw [hcount, Nat.zero_add, ha]
        exact c.endsLeft_markIfEmpty_le
    · rw [Attempt.entries_eq_nil hnone, hd, List.countP_nil, Nat.zero_add]
      exact c.endsLeft_markIfEmpty_le
  advanced c i n le := (Nat.zero_add _).le
  marked := endsLeft_markIfEmpty_le

end Cursor

namespace Session

variable {s t : Session} {i : Nat} {text : List Char}

/-- The entry of a match of a rule for the end is made behind the last character. -/
def StandsLast (text : List Char) (e : Entry) : Prop :=
  e.text = [] ∧ e.span = .spot (pointAt text text.length) (utf8 text).size

theorem entries_endsInput (hsound : (s.cursor i).Sound) {table : RuleTable} (built : table.Built)
    {e : Entry} (he : e ∈ (table.attempt (s.cursor i)).1.entries i) (hends : e.endsInput = true) :
    StandsLast (s.cursor i).text e := by
  cases hattempt : (table.attempt (s.cursor i)).1 with
  | fired rule taken span =>
    rw [hattempt] at he
    obtain rfl := List.mem_singleton.mp he
    have hkind : rule.kind = .eof := by
      cases hk : rule.kind <;> simp [Entry.endsInput, hk] at hends
      rfl
    obtain ⟨ha, -, htaken, hspan, -⟩ := built.ahead_of_fired_eof hattempt hkind
    have hchar : (s.cursor i).place.char = (s.cursor i).text.length := by
      rw [hsound.char, (s.cursor i).length_text, ha]
      rfl
    refine ⟨htaken, hspan.trans ?_⟩
    rw [Place.spot, hsound.point, hsound.byte_of_ahead ha, hchar]
  | _ =>
    rw [hattempt] at he
    cases he

theorem Works.standsLast (hi : i < s.cursors.size) (hsound : (s.cursor i).Sound)
    (built : ∀ table, s.Holds table → table.Built) (h : s.Works t) :
    ∃ es, entriesOn i t.journal = entriesOn i s.journal ++ es ∧
      ∀ e ∈ es, e.endsInput = true → StandsLast (s.cursor i).text e := by
  have hnil : ∀ e ∈ [], e.endsInput = true → StandsLast (s.cursor i).text e :=
    fun _ he => absurd he List.not_mem_nil
  induction h with
  | refl => exact ⟨[], (List.append_nil _).symm, hnil⟩
  | @tail t u works deed ih =>
    obtain ⟨es, hes, hends⟩ := ih
    have ht := hi.trans_le (Works.size_le works)
    obtain ⟨-, gs, -, hmoves⟩ := (Works.leads works).moves hi
    have extended {fs : List Entry} (hfs : entriesOn i u.journal = entriesOn i t.journal ++ fs)
        (hlast : ∀ e ∈ fs, e.endsInput = true → StandsLast (s.cursor i).text e) :
        ∃ es, entriesOn i u.journal = entriesOn i s.journal ++ es ∧
          ∀ e ∈ es, e.endsInput = true → StandsLast (s.cursor i).text e :=
      ⟨es ++ fs, by rw [hfs, hes, List.append_assoc],
        fun e he => (List.mem_append.mp he).elim (hends e) (hlast e)⟩
    cases deed.on ht with
    | tried table held =>
      refine extended (entriesOn_tried_self t table i) fun e he hlast => ?_
      rw [← hmoves.text]
      exact entries_endsInput (hmoves.sound hsound) (built table (Works.holds works held)) he hlast
    | advanced n le =>
      refine extended (entriesOn_advanced_self t i n) fun e he hlast => ?_
      obtain rfl := List.mem_singleton.mp he
      cases hlast
    | marked => exact extended (List.append_nil _).symm hnil
    | apart cursor entries => exact extended (entries.trans (List.append_nil _).symm) hnil

end Session

end FirstMatch
