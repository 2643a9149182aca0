import FirstMatch.Proofs.Effects

/-!
Depth bounds how far a run is followed and says nothing else: a run that ends within some depth ends so
within any greater one.
-/

namespace FirstMatch.Run

variable {α β : Type}

/-- Wherever one run ends, the other ends so too. -/
def Below (x y : Run α) : Prop := ∀ ⦃s p⦄, x s = some p → y s = some p

theorem below_refl (x : Run α) : x.Below x := fun _ _ h => h

theorem below_unfinished (y : Run α) : (unfinished : Run α).Below y := by
  intro s p h
  cases h

theorem below_bind {x y : Run α} {k l : α → Run β} (hx : x.Below y)
    (hk : ∀ a, (k a).Below (l a)) : (x >>= k).Below (y >>= l) := by
  rintro s ⟨r, t⟩ h
  obtain ⟨a, u, hu, ht⟩ | ⟨f, hf, rfl⟩ := bind_eq_some h
  · rw [bind_of_ok (hx hu)]
    exact hk a ht
  · rw [bind_of_error (hx hf)]

theorem below_outcome {x y : Run α} (h : x.Below y) : x.outcome.Below y.outcome := by
  intro s p hp
  rw [outcome_apply] at hp ⊢
  obtain ⟨p', hp', rfl⟩ := Option.map_eq_some_iff.mp hp
  rw [h hp', Option.map_some]

section

variable {perform perform' : Performer} (h : ∀ q, (perform q).Below (perform' q))

include h

theorem below_script (p : Script α) : (p.run perform).Below (p.run perform') := by
  induction p with
  | done a => exact below_refl _
  | fail f => exact below_refl _
  | ask q reply ih => exact below_bind (below_outcome (h q)) ih
  | stall => exact below_refl _

theorem below_stepWith (table : RuleTable) (i : Nat) (context : Arguments) :
    (table.stepWith perform i context).Below (table.stepWith perform' i context) := by
  intro s p hp
  rw [RuleTable.stepWith_apply] at hp ⊢
  cases hattempt : (table.attempt (s.cursor i)).1 with
  | fired rule text span =>
    rw [hattempt] at hp
    have hinvoke : (rule.invoke perform text i span context).Below
        (rule.invoke perform' text i span context) :=
      below_bind (below_refl _) fun script => below_script h script
    cases hcall : rule.invoke perform text i span context (s.tried table i) with
    | none =>
      simp only [hcall] at hp
      cases hp
    | some q =>
      simp only [hcall] at hp
      simp only [hinvoke hcall]
      exact hp
  | _ =>
    rw [hattempt] at hp
    exact hp

theorem below_streamStepWith (j : Nat) :
    (streamStepWith perform j).Below (streamStepWith perform' j) := by
  refine below_bind (below_refl _) fun a => ?_
  cases a.error with
  | some f => exact below_refl _
  | none =>
    cases a.done with
    | true => exact below_refl _
    | false => exact below_bind (below_stepWith h a.table a.cursor a.context) fun _ => below_refl _

theorem below_nextWith (j : Nat) {turns turns' : Nat} (hturns : turns ≤ turns') :
    (nextWith perform j turns).Below (nextWith perform' j turns') := by
  induction turns generalizing turns' with
  | zero => exact below_unfinished _
  | succ turns ih =>
    obtain ⟨turns', rfl⟩ := Nat.exists_eq_add_one.mpr (Nat.zero_lt_of_lt hturns)
    refine below_bind (below_streamStepWith h j) fun o => ?_
    cases o with
    | skipped span => exact ih (Nat.le_of_succ_le_succ hturns)
    | _ => exact below_refl _

end

theorem below_perform {depth depth' : Nat} (h : depth ≤ depth') (q : Request) :
    (perform depth q).Below (perform depth' q) := by
  induction depth generalizing depth' q with
  | zero =>
    cases q with
    | step name i context => exact below_unfinished _
    | streamStep j => exact below_unfinished _
    | next j => exact below_unfinished _
    | _ => cases depth' <;> exact below_refl _
  | succ depth ih =>
    obtain ⟨depth', rfl⟩ := Nat.exists_eq_add_one.mpr (Nat.zero_lt_of_lt h)
    have h' := Nat.le_of_succ_le_succ h
    cases q with
    | step name i context =>
      exact below_bind (below_refl _) fun table => below_stepWith (ih h') table i context
    | streamStep j => exact below_streamStepWith (ih h') j
    | next j => exact below_nextWith (ih h') j h'
    | _ => exact below_refl _

theorem below_next {depth depth' : Nat} (h : depth ≤ depth') (j : Nat) :
    (next depth j).Below (next depth' j) :=
  below_nextWith (below_perform h) j h

theorem below_pairs {depth depth' : Nat} (h : depth ≤ depth') (j : Nat) :
    (pairs depth j).Below (pairs depth' j) := by
  suffices hfrom : ∀ (turns turns' : Nat) (before : List (Value × Span)), turns ≤ turns' →
      (pairsFrom depth j turns before).Below (pairsFrom depth' j turns' before) from
    hfrom depth depth' [] h
  intro turns
  induction turns with
  | zero => exact fun turns' before _ => below_unfinished _
  | succ turns ih =>
    intro turns' before hturns
    obtain ⟨turns', rfl⟩ := Nat.exists_eq_add_one.mpr (Nat.zero_lt_of_lt hturns)
    refine below_bind (below_next h j) fun r => ?_
    cases r with
    | some pair => exact ih turns' _ (Nat.le_of_succ_le_succ hturns)
    | none => exact below_refl _

end FirstMatch.Run
