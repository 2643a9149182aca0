import FirstMatch.Proofs.MatchBounds
import FirstMatch.RuleTable

/-!
What compiling makes of rules. A compiled table numbers its rules in order, and each of them has one of
the triggers that can be declared.
-/

namespace FirstMatch

namespace Build

variable {α β : Type}

theorem run_bind (x : Build α) (k : α → Build β) (before : List EmptyMatch) :
    (x >>= k).run.run before = match x.run.run before with
      | (.ok a, between) => (k a).run.run between
      | (.error f, between) => (.error f, between) := by
  unfold ExceptT.run StateT.run
  simp only [bind, ExceptT.bind, ExceptT.mk, StateT.bind, ExceptT.bindCont]
  cases x before with
  | mk r between => cases r <;> rfl

/-- What was built in two parts was built in both. -/
theorem bind_eq_ok {x : Build α} {k : α → Build β} {before after : List EmptyMatch} {b : β}
    (h : (x >>= k).run.run before = (.ok b, after)) :
    ∃ a between, x.run.run before = (.ok a, between) ∧
      (k a).run.run between = (.ok b, after) := by
  rw [run_bind] at h
  cases hx : x.run.run before with
  | mk r between =>
    rw [hx] at h
    cases r with
    | ok a => exact ⟨a, between, rfl, h⟩
    | error f => cases h

theorem run_ofFlaw_bind {e : Except DefinitionFlaw α} {a : α} (h : e = .ok a) (k : α → Build β)
    (before : List EmptyMatch) : (ofFlaw e >>= k).run.run before = (k a).run.run before := by
  rw [run_bind, h]
  rfl

theorem ofFlaw_bind_eq_ok {e : Except DefinitionFlaw α} {k : α → Build β}
    {before after : List EmptyMatch} {b : β}
    (h : (ofFlaw e >>= k).run.run before = (.ok b, after)) :
    ∃ a, e = .ok a ∧ (k a).run.run before = (.ok b, after) := by
  cases e with
  | ok a => exact ⟨a, rfl, run_ofFlaw_bind rfl k before ▸ h⟩
  | error flaw =>
    rw [run_bind] at h
    cases h

end Build

namespace Trigger

/-- The triggers that a rule can be declared with. -/
inductive Declared : Trigger → Prop
  | eof : Declared .eof
  | wildcard : Declared .wildcard
  | whitespace : Declared .whitespace
  | pattern (source : List Char) (program : Program) : Declared (.regex .pattern source program)

/-- A pattern for a single character never matches without one. -/
theorem run_single_ne_zero {tree : Regex} {test : Nat → Bool}
    (h : ∀ k s r, tree.run false k s r = Regex.step test k s r) (least : Nat) (text : List Char) :
    Program.run ⟨tree, least⟩ text ≠ some (.length 0) := by
  intro hrun
  unfold Program.run at hrun
  rw [h] at hrun
  unfold Regex.step at hrun
  split at hrun
  · cases hrun
  · cases heat : (Spot.start text).eat? test with
    | none =>
      rw [heat] at hrun
      cases hrun
    | some t =>
      rw [heat] at hrun
      unfold Spot.eat? at heat
      split at heat
      · cases heat
      · split at heat
        · cases heat
          cases hrun
        · cases heat

end Trigger

namespace Rule

variable {dialect : Regex.Dialect} {before after : List EmptyMatch} {priority : Int}

theorem declared_of_patternTrigger {pattern : Value} {t : Trigger}
    (h : (patternTrigger dialect priority pattern).run.run before = (.ok t, after)) : t.Declared := by
  obtain ⟨source, between, -, h⟩ := Build.bind_eq_ok h
  dsimp only at h
  split at h
  · split at h
    · cases h
    · cases h
  · split at h
    · cases h
      exact .pattern _ _
    · cases h
      exact .pattern _ _
    · cases h

theorem declared_of_trigger {pattern : Value} {t : Trigger}
    (h : (trigger dialect priority pattern).run.run before = (.ok t, after)) : t.Declared := by
  unfold trigger at h
  split at h
  · cases h
    exact .eof
  · cases h
    exact .wildcard
  · cases h
    exact .whitespace
  · exact declared_of_patternTrigger h

/-- A pattern whose compiled source reads as a program makes a trigger with that program. -/
theorem patternTrigger_of_program {pattern : Value} {source : List Char} {program : Program}
    (hsource : patternSource pattern = .ok source)
    (hread : Regex.ofSource dialect (EndAnchor.replace source) = .ok program) (before : List EmptyMatch) :
    ∃ after, (patternTrigger dialect priority pattern).run.run before =
      (.ok (.regex .pattern (EndAnchor.replace source) program), after) := by
  unfold patternTrigger
  rw [Build.run_ofFlaw_bind hsource]
  cases hempty : program.run [] with
  | none => exact ⟨before, by simp only [hread, hempty]; rfl⟩
  | some m =>
    cases m with
    | length n => exact ⟨before ++ [⟨source, priority⟩], by simp only [hread, hempty]; rfl⟩
    | tangled => exact absurd hempty program.run_nil_ne_tangled

/-- A pattern whose compiled source has a flaw is refused. -/
theorem patternTrigger_of_flaw {pattern : Value} {source : List Char} {flaw : Regex.Flaw}
    (hsource : patternSource pattern = .ok source)
    (hread : Regex.ofSource dialect (EndAnchor.replace source) = .error flaw) (before : List EmptyMatch) :
    ∃ fault, (patternTrigger dialect priority pattern).run.run before = (.error fault, before) := by
  unfold patternTrigger
  rw [Build.run_ofFlaw_bind hsource]
  simp only [hread]
  split
  · exact ⟨_, rfl⟩
  · exact ⟨_, rfl⟩

/-- A pattern with a source is no sentinel. -/
theorem trigger_of_source {pattern : Value} {source : List Char}
    (h : patternSource pattern = .ok source) :
    trigger dialect priority pattern = patternTrigger dialect priority pattern := by
  unfold trigger
  split
  · cases h
  · cases h
  · cases h
  · rfl

/-- Compiling a rule whose action can be called is a matter of its pattern. -/
theorem run_compile {r : Rule} {source : List Char} {action : Action} {shape : CallShape}
    (hshape : r.handler.callShape = .ok (action, shape))
    (hsource : patternSource r.pattern = .ok source) (before : List EmptyMatch) :
    (r.compile priority dialect).run.run before =
      match (patternTrigger dialect priority r.pattern).run.run before with
      | (.ok t, after) => (.ok ⟨priority, t, action, shape⟩, after)
      | (.error f, after) => (.error f, after) := by
  unfold compile
  rw [Build.run_ofFlaw_bind hshape]
  dsimp only
  rw [Build.run_bind, trigger_of_source hsource]
  cases (patternTrigger dialect priority r.pattern).run.run before with
  | mk result after => cases result <;> rfl

theorem of_compile {r : Rule} {c : CompiledRule}
    (h : (r.compile priority dialect).run.run before = (.ok c, after)) :
    c.priority = priority ∧ c.trigger.Declared := by
  obtain ⟨⟨action, shape⟩, between, -, h⟩ := Build.bind_eq_ok h
  obtain ⟨t, between', ht, h⟩ := Build.bind_eq_ok h
  cases h
  exact ⟨rfl, declared_of_trigger ht⟩

end Rule

namespace RuleTable

/-- A table that compiling made. -/
def Built (t : RuleTable) : Prop :=
  ∃ dialect source warnings, (ofSource source dialect).result = (.ok t, warnings)

theorem of_compileFrom {dialect : Regex.Dialect} {ds : List Declaration} {n : Nat}
    {rules : List CompiledRule} {before after : List EmptyMatch}
    (h : (compileFrom dialect n ds).run.run before = (.ok rules, after)) :
    ∀ i r, rules[i]? = some r → r.priority = ((n + i : Nat) : Int) ∧ r.trigger.Declared := by
  induction ds generalizing n rules before with
  | nil =>
    cases h
    intro i r hr
    cases hr
  | cons d ds ih =>
    obtain ⟨rule, between, -, h⟩ := Build.bind_eq_ok h
    obtain ⟨c, between', hc, h⟩ := Build.bind_eq_ok h
    obtain ⟨rest, between'', hrest, h⟩ := Build.bind_eq_ok h
    cases h
    intro i r hr
    cases i with
    | zero =>
      cases hr
      exact Rule.of_compile hc
    | succ i =>
      have h := ih hrest i r hr
      rwa [show n + 1 + i = n + (i + 1) by omega] at h

theorem Built.compiled {t : RuleTable} (h : t.Built) :
    ∃ dialect ds before after,
      (compileFrom dialect 0 ds).run.run before = (.ok t.rules, after) := by
  obtain ⟨dialect, source, warnings, h⟩ := h
  unfold ofSource at h
  split at h
  · cases h
  · next ds _ =>
    obtain ⟨rules, between, hrules, h⟩ := Build.bind_eq_ok h
    cases h
    exact ⟨dialect, ds, [], _, hrules⟩

theorem Built.priority {t : RuleTable} (h : t.Built) {i : Nat} {r : CompiledRule}
    (hr : t.rules[i]? = some r) : r.priority = i := by
  obtain ⟨_, ds, before, after, h⟩ := h.compiled
  rw [(of_compileFrom h i r hr).1, Nat.zero_add]

theorem Built.declared {t : RuleTable} (h : t.Built) {r : CompiledRule} (hr : r ∈ t.rules) :
    r.trigger.Declared := by
  obtain ⟨_, ds, before, after, h⟩ := h.compiled
  obtain ⟨i, hi⟩ := List.getElem?_of_mem hr
  exact (of_compileFrom h i r hi).2

end RuleTable

end FirstMatch
