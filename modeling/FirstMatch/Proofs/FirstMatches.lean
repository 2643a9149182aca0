import FirstMatch.Proofs.EndFiring

/-!
The first match. Rules are tried one after the other, so the first match of two lists of rules is that of
the one or, if there is none, that of the other. Trying rules depends on what makes them match only: where
a table has other rules with the same triggers, these fire instead.
-/

namespace FirstMatch

/-- A cursor at the end of its text is marked before the rules are tried. -/
theorem CompiledRule.matchAt_markIfEmpty (r : CompiledRule) {c : Cursor} (hex : c.exhausted = false) :
    r.matchAt c.markIfEmpty none = r.trigger.matchAt c.ahead.isEmpty c.ahead := by
  unfold matchAt Cursor.markIfEmpty Cursor.isEmpty
  rw [hex, Bool.false_or]
  rfl

/-- What comes of a match at a cursor: the rule fires, if the length of its match can be told. -/
def Attempt.ofMatch (c : Cursor) (r : CompiledRule) : Regex.Match → Attempt
  | .length n => .fired r (c.ahead.take n) (c.spanOf n)
  | .tangled => .tangled

/-- The same attempt with another rule in place of the one that fired. -/
def Attempt.mapRule (g : CompiledRule → CompiledRule) : Attempt → Attempt
  | fired rule text span => fired (g rule) text span
  | a => a

theorem Attempt.mapRule_id (a : Attempt) : a.mapRule (fun r => r) = a := by
  cases a <;> rfl

namespace RuleTable

variable {a b : RuleTable} {rules : List CompiledRule} {c : Cursor} {g : CompiledRule → CompiledRule}

theorem firstMatch_cons (r : CompiledRule) (rules : List CompiledRule) (c : Cursor) :
    firstMatch (r :: rules) c = ((r.matchAt c none).map fun m => (r, m)).or (firstMatch rules c) := by
  have hmatch : r.matchAt c none = r.matchAt c (some c.ahead) := rfl
  rw [hmatch]
  conv_lhs => unfold firstMatch
  cases r.matchAt c (some c.ahead) <;> rfl

theorem firstMatch_append (before after : List CompiledRule) (c : Cursor) :
    firstMatch (before ++ after) c = (firstMatch before c).or (firstMatch after c) := by
  induction before with
  | nil => rfl
  | cons r before ih => rw [List.cons_append, firstMatch_cons, firstMatch_cons, ih, Option.or_assoc]

theorem firstMatch_eq_none_iff :
    firstMatch rules c = none ↔ ∀ r ∈ rules, r.matchAt c none = none := by
  induction rules with
  | nil => simp [firstMatch]
  | cons r rules ih => rw [firstMatch_cons, List.forall_mem_cons, Option.or_eq_none_iff, ih,
      Option.map_eq_none_iff]

theorem firstMatch_isSome_iff :
    (firstMatch rules c).isSome ↔ ∃ r ∈ rules, (r.matchAt c none).isSome := by
  simp only [Option.isSome_iff_ne_none, ne_eq, firstMatch_eq_none_iff, not_forall, exists_prop]

/-- Rules match the same whatever they have besides their triggers. -/
theorem firstMatch_map (hg : ∀ r, (g r).trigger = r.trigger) (rules : List CompiledRule) (c : Cursor) :
    firstMatch (rules.map g) c = (firstMatch rules c).map fun p => (g p.1, p.2) := by
  induction rules with
  | nil => rfl
  | cons r rules ih =>
    have hmatch : (g r).matchAt c none = r.matchAt c none := by
      unfold CompiledRule.matchAt
      rw [hg]
    rw [List.map_cons, firstMatch_cons, firstMatch_cons, ih, hmatch]
    cases r.matchAt c none <;> rfl

/-- The first rule that matches fires, unless its match cannot be told. -/
theorem attempt_of_firstMatch {t : RuleTable} {r : CompiledRule} {m : Regex.Match}
    (hex : c.exhausted = false) (h : firstMatch t.rules c.markIfEmpty = some (r, m)) :
    (t.attempt c).1 = .ofMatch c r m := by
  cases m with
  | tangled =>
    unfold attempt
    simp only [hex, Bool.false_eq_true, ↓reduceIte, h]
    rfl
  | length n =>
    have hn := Trigger.length_le_of_matchAt (mem_of_firstMatch h).2
    have hadv := Cursor.advance_of_le (c := c.markIfEmpty) hn
    unfold attempt
    simp only [hex, Bool.false_eq_true, ↓reduceIte, h, hadv]
    rfl

/-- Where nothing is left and the cursor has not been marked, the rule for the end fires. -/
theorem Built.fires_eof {t : RuleTable} (h : t.Built) (hends : t.EndsInEof)
    (fresh : c.exhausted = false) (hahead : c.ahead = []) :
    ∃ eof, (t.attempt c).1 = .fired eof [] c.location ∧ eof.kind = .eof := by
  have hmarked : c.markIfEmpty.exhausted = true := by
    simp [Cursor.markIfEmpty, Cursor.isEmpty, hahead]
  obtain ⟨eof, m, hfirst, hkind⟩ := (h.endsInEof_iff hmarked hahead).mp hends
  obtain rfl := h.match_eof hmarked hfirst hkind
  have hfired := attempt_of_firstMatch fresh hfirst
  obtain ⟨-, -, -, hspan, -⟩ := h.ahead_of_fired_eof hfired hkind
  exact ⟨eof, hfired.trans (congrArg _ hspan), hkind⟩

/-- Tables whose rules match alike are tried alike. -/
theorem attempt_mapRule (h : firstMatch b.rules c.markIfEmpty =
      (firstMatch a.rules c.markIfEmpty).map fun p => (g p.1, p.2)) :
    b.attempt c = ((a.attempt c).1.mapRule g, (a.attempt c).2) := by
  unfold attempt
  cases c.exhausted with
  | true => rfl
  | false =>
    dsimp only
    rw [h]
    cases firstMatch a.rules c.markIfEmpty with
    | none => cases c.markIfEmpty.exhausted <;> simp [Attempt.mapRule]
    | some found =>
      obtain ⟨rule, m⟩ := found
      cases m with
      | tangled => rfl
      | length n =>
        dsimp only [Option.map_some]
        cases c.markIfEmpty.advance n <;> rfl

end RuleTable

end FirstMatch
