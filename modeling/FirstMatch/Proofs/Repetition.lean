import FirstMatch.Proofs.Effects
import FirstMatch.Proofs.TameScripts

/-!
Steps one after the other, of a table on a cursor or of a stream. Each is taken whatever the one before came
to, so what the first steps come to does not depend on how many follow.
-/

namespace FirstMatch

namespace Run

variable {α : Type}

/-- What a run comes to each time that it is repeated, and the session after the last time. -/
def repeated (x : Run α) : Nat → Session → Option (List (Except Fault α) × Session)
  | 0, s => some ([], s)
  | n + 1, s =>
    match x s with
    | none => none
    | some (r, t) => (repeated x n t).map fun p => (r :: p.1, p.2)

variable {x : Run α} {s t u : Session} {m n : Nat} {r : Except Fault α}
  {rs qs : List (Except Fault α)}

theorem repeated_succ_of_some (h : x s = some (r, t)) :
    repeated x (n + 1) s = (repeated x n t).map fun p => (r :: p.1, p.2) := by
  simp [repeated, h]

/-- The first time and those after it. -/
theorem repeated_succ_eq_some (h : repeated x (n + 1) s = some (rs, u)) :
    ∃ r t qs, x s = some (r, t) ∧ repeated x n t = some (qs, u) ∧ rs = r :: qs := by
  unfold repeated at h
  split at h
  · cases h
  · next r t hx =>
    obtain ⟨⟨qs, u'⟩, hrest, heq⟩ := Option.map_eq_some_iff.mp h
    cases heq
    exact ⟨r, t, qs, hx, hrest, rfl⟩

/-- A run may be repeated in two parts. -/
theorem repeated_append (h : repeated x m s = some (rs, t)) (h' : repeated x n t = some (qs, u)) :
    repeated x (m + n) s = some (rs ++ qs, u) := by
  induction m generalizing s rs with
  | zero =>
    cases h
    rwa [Nat.zero_add]
  | succ m ih =>
    obtain ⟨r, v, rs', hx, hrest, rfl⟩ := repeated_succ_eq_some h
    rw [Nat.add_right_comm, repeated_succ_of_some hx, ih hrest]
    rfl

/-- What was repeated `m + n` times was repeated `m` times first. -/
theorem repeated_add_eq_some (h : repeated x (m + n) s = some (rs, u)) :
    ∃ t ps qs, repeated x m s = some (ps, t) ∧ repeated x n t = some (qs, u) ∧ rs = ps ++ qs := by
  induction m generalizing s rs with
  | zero =>
    rw [Nat.zero_add] at h
    exact ⟨s, [], rs, rfl, h, rfl⟩
  | succ m ih =>
    rw [Nat.add_right_comm] at h
    obtain ⟨r, v, rest, hx, hrest, rfl⟩ := repeated_succ_eq_some h
    obtain ⟨t, ps, qs, hps, hqs, rfl⟩ := ih hrest
    refine ⟨t, r :: ps, qs, ?_, hqs, rfl⟩
    rw [repeated_succ_of_some hx, hps]
    rfl

end Run

/-- A step goes on if a rule has fired and its action has returned. -/
theorem RuleTable.fired_of_goesOn {perform : Performer} {table : RuleTable} {i : Nat}
    {context : Arguments} {s t : Session} {o : Outcome}
    (h : table.stepWith perform i context s = some (.ok o, t)) (ho : o.GoesOn) :
    ∃ rule text span v, (table.attempt (s.cursor i)).1 = .fired rule text span ∧
      rule.invoke perform text i span context (s.tried table i) = some (.ok v, t) ∧
      o = .ofResult v span := by
  rw [stepWith_apply] at h
  split at h
  · cases h
    exact ho.elim
  · cases h
    exact ho.elim
  · cases h
  · cases h
  · next rule text span hfired =>
    split at h
    · cases h
    · next v u hcall =>
      cases h
      exact ⟨rule, text, span, v, hfired, hcall, rfl⟩
    · split at h
      · cases h
        exact ho.elim
      · cases h

end FirstMatch
