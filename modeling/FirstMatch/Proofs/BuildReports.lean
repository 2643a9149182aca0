import FirstMatch.Proofs.Compilation

/-!
What a build reports, which is its result with the warnings before it, and what the numbers of the rules have
to do with it. Builds in parts report one part after the other, up to the first error. Where a rule is compiled
under another number, the same is reported of it with that number.
-/

namespace FirstMatch

/-- A flaw of a rule under another number. -/
def DefinitionFlaw.renumbered (number : Int → Int) : DefinitionFlaw → DefinitionFlaw
  | badPattern source rule flaw compiled => badPattern source (number rule) flaw compiled
  | flaw => flaw

/-- An error with another number of the rule that could not be compiled. -/
def Fault.declaredAs (number : Int → Int) : Fault → Fault
  | definition flaw => definition (flaw.renumbered number)
  | f => f

def EmptyMatch.renumbered (number : Int → Int) (w : EmptyMatch) : EmptyMatch :=
  { w with rule := number w.rule }

/-- What is built or why it is not, with the warnings in their order. -/
abbrev BuildReport (α : Type) := Except Fault α × List EmptyMatch

namespace BuildReport

variable {α β : Type}

/-- A report, followed by that of what goes on with the result. An error ends it. -/
def followed (r : BuildReport α) (next : α → BuildReport β) : BuildReport β :=
  match r with
  | (.ok a, ws) => ((next a).1, ws ++ (next a).2)
  | (.error f, ws) => (.error f, ws)

/-- A report about rules under other numbers. -/
def renumbered (number : Int → Int) (g : α → β) (r : BuildReport α) : BuildReport β :=
  ((r.1.mapError (Fault.declaredAs number)).map g, r.2.map (EmptyMatch.renumbered number))

@[simp] theorem renumbered_ok (number : Int → Int) (g : α → β) (a : α) (ws : List EmptyMatch) :
    renumbered number g (.ok a, ws) = (.ok (g a), ws.map (EmptyMatch.renumbered number)) := rfl

@[simp] theorem renumbered_error (number : Int → Int) (g : α → β) (f : Fault) (ws : List EmptyMatch) :
    renumbered number g (.error f, ws) =
      (.error (f.declaredAs number), ws.map (EmptyMatch.renumbered number)) := rfl

@[simp] theorem followed_ok (a : α) (ws : List EmptyMatch) (next : α → BuildReport β) :
    followed (.ok a, ws) next = ((next a).1, ws ++ (next a).2) := rfl

@[simp] theorem followed_error (f : Fault) (ws : List EmptyMatch) (next : α → BuildReport β) :
    followed (.error f, ws) next = (.error f, ws) := rfl

end BuildReport

namespace Build

variable {α β : Type}

/-- A build adds its warnings to those before, and does not depend on them otherwise. -/
def Emits (x : Build α) : Prop := ∀ before, x.run.run before = (x.result.1, before ++ x.result.2)

theorem emits_pure (a : α) : Emits (pure a) :=
  fun before => congrArg (Prod.mk _) (List.append_nil before).symm

theorem emits_throw (f : Fault) : Emits (throw f : Build α) :=
  fun before => congrArg (Prod.mk _) (List.append_nil before).symm

theorem result_bind (x : Build α) {k : α → Build β}
    (hk : ∀ a, x.result.1 = .ok a → Emits (k a)) :
    (x >>= k).result = BuildReport.followed x.result fun a => (k a).result := by
  unfold result at hk ⊢
  rw [run_bind]
  cases hrun : x.run.run [] with
  | mk r ws =>
    cases r with
    | ok a => exact hk a (by rw [hrun]) ws
    | error f => rfl

theorem result_bind_pure (x : Build α) (g : α → β) : (x >>= fun a => pure (g a)).result =
    BuildReport.followed x.result fun a => (.ok (g a), []) :=
  result_bind x fun a _ => emits_pure (g a)

theorem Emits.bind {x : Build α} {k : α → Build β} (hx : Emits x)
    (hk : ∀ a, x.result.1 = .ok a → Emits (k a)) : Emits (x >>= k) := by
  intro before
  rw [result_bind x hk, run_bind, hx before]
  cases hresult : x.result with
  | mk r ws =>
    cases r with
    | ok a =>
      have ha := hk a (by rw [hresult])
      simp [ha (before ++ ws)]
    | error f => rfl

theorem Emits.bind_pure {x : Build α} (hx : Emits x) (g : α → β) :
    Emits (x >>= fun a => pure (g a)) :=
  hx.bind fun a _ => emits_pure (g a)

/-- Two builds report alike, but for the numbers of the rules. -/
structure Renumbers {α α' : Type} (number : Int → Int) (g : α → α') (x : Build α) (y : Build α') :
    Prop where
  left : Emits x
  right : Emits y
  result_eq : y.result = BuildReport.renumbered number g x.result

section

variable {α' β' : Type} {number : Int → Int} {g : α → α'} {h : β → β'}

theorem renumbers_pure (a : α) : Renumbers number g (pure a) (pure (g a)) :=
  ⟨emits_pure a, emits_pure (g a), rfl⟩

theorem renumbers_throw {f f' : Fault} (hf : f' = f.declaredAs number) :
    Renumbers number g (throw f) (throw f') := by
  subst hf
  exact ⟨emits_throw f, emits_throw _, rfl⟩

theorem renumbers_warn (w : EmptyMatch) :
    Renumbers number id (warn w) (warn (w.renumbered number)) :=
  ⟨fun _ => rfl, fun _ => rfl, rfl⟩

/-- Flaws that name no rule are the same under any numbers. -/
theorem renumbers_ofFlaw {e : Except DefinitionFlaw α}
    (hflaw : ∀ flaw, e = .error flaw → flaw.renumbered number = flaw) :
    Renumbers number id (ofFlaw e) (ofFlaw e) := by
  cases e with
  | ok a => exact renumbers_pure a
  | error flaw =>
    apply renumbers_throw
    simp [Fault.declaredAs, hflaw flaw rfl]

/-- Builds in parts report alike if the parts do. -/
theorem Renumbers.bind {x : Build α} {y : Build α'} {k : α → Build β} {l : α' → Build β'}
    (hx : Renumbers number g x y) (hk : ∀ a, Renumbers number h (k a) (l (g a))) :
    Renumbers number h (x >>= k) (y >>= l) := by
  have hleft : ∀ a, x.result.1 = .ok a → Emits (k a) := fun a _ => (hk a).left
  -- The second build only goes on with results of the first, so nothing is asked of `l` elsewhere.
  have hright : ∀ a', y.result.1 = .ok a' → Emits (l a') := by
    intro a' ha'
    rw [hx.result_eq] at ha'
    cases hresult : x.result with
    | mk r ws =>
      rw [hresult] at ha'
      cases r with
      | ok a =>
        cases ha'
        exact (hk a).right
      | error f => cases ha'
  constructor
  · exact hx.left.bind hleft
  · exact hx.right.bind hright
  · rw [result_bind y hright, result_bind x hleft, hx.result_eq]
    cases x.result with
    | mk r ws =>
      cases r with
      | ok a =>
        rw [BuildReport.renumbered_ok, BuildReport.followed_ok, BuildReport.followed_ok,
          (hk a).result_eq]
        simp [BuildReport.renumbered]
      | error f => rfl

end

/-- What is built under one number is built under another. -/
theorem Renumbers.ok_at {α' : Type} {number : Int → Int} {g : α → α'} {x : Build α} {y : Build α'}
    (h : Renumbers number g x y) {a : α} {before after : List EmptyMatch}
    (hx : x.run.run before = (.ok a, after)) (before' : List EmptyMatch) :
    ∃ after', y.run.run before' = (.ok (g a), after') := by
  rw [h.left before] at hx
  have ha : x.result.1 = .ok a := (Prod.mk.inj hx).1
  have hy : y.result.1 = .ok (g a) := by
    rw [h.result_eq, BuildReport.renumbered, ha]
    rfl
  exact ⟨before' ++ y.result.2, by rw [h.right before', hy]⟩

end Build

section

variable (number : Int → Int)

theorem renumbered_of_fragmentSource {v : Value} {flaw : DefinitionFlaw}
    (h : fragmentSource v = .error flaw) : flaw.renumbered number = flaw := by
  cases v <;> cases h <;> rfl

theorem renumbered_of_fragments {vs : List Value} {flaw : DefinitionFlaw}
    (h : vs.mapM fragmentSource = .error flaw) : flaw.renumbered number = flaw := by
  induction vs with
  | nil => cases h
  | cons v vs ih =>
    rw [List.mapM_cons] at h
    cases hv : fragmentSource v with
    | error flaw' =>
      rw [hv] at h
      cases h
      exact renumbered_of_fragmentSource number hv
    | ok source =>
      rw [hv] at h
      cases hvs : vs.mapM fragmentSource with
      | error flaw' =>
        rw [hvs] at h
        cases h
        exact ih hvs
      | ok sources =>
        rw [hvs] at h
        cases h

theorem renumbered_of_patternSource {pattern : Value} {flaw : DefinitionFlaw}
    (h : patternSource pattern = .error flaw) : flaw.renumbered number = flaw := by
  have hfragments {items : List Value} (h : fragmentsSource items = .error flaw) :
      flaw.renumbered number = flaw := by
    unfold fragmentsSource at h
    split at h
    · cases h
      rfl
    · cases hitems : items.mapM fragmentSource with
      | error flaw' =>
        rw [hitems] at h
        cases h
        exact renumbered_of_fragments number hitems
      | ok sources =>
        rw [hitems] at h
        cases h
  unfold patternSource at h
  split at h
  · cases h
  · exact hfragments h
  · exact hfragments h
  · cases h
    rfl

theorem renumbered_of_callShape {handler : Handler} {flaw : DefinitionFlaw}
    (h : handler.callShape = .error flaw) : flaw.renumbered number = flaw := by
  cases handler with
  | value v =>
    cases h
    rfl
  | action a =>
    rw [Handler.callShape] at h
    unfold Signature.shape at h
    dsimp only at h
    split at h
    · cases h
      rfl
    · split at h
      · cases h
        rfl
      · cases h

theorem renumbered_of_rule? {d : Declaration} {flaw : DefinitionFlaw} (h : d.rule? = .error flaw) :
    flaw.renumbered number = flaw := by
  unfold Declaration.rule? at h
  split at h
  · cases h
  · split at h
    · cases h
    · cases h
      rfl

end

namespace Rule

variable (dialect : Regex.Dialect) (number : Int → Int) (n : Int)

theorem renumbers_patternTrigger (pattern : Value) : Build.Renumbers number id
    (patternTrigger dialect n pattern) (patternTrigger dialect (number n) pattern) := by
  apply Build.Renumbers.bind
  · exact Build.renumbers_ofFlaw fun flaw => renumbered_of_patternSource number
  · intro source
    dsimp only [id]
    cases Regex.ofSource dialect (EndAnchor.replace source) with
    | error flaw =>
      dsimp only
      split
      · exact Build.renumbers_throw rfl
      · exact Build.renumbers_throw rfl
    | ok program =>
      dsimp only
      cases program.run [] with
      | none => exact Build.renumbers_pure _
      | some m =>
        cases m with
        | length k => exact (Build.renumbers_warn _).bind fun _ => Build.renumbers_pure _
        | tangled => exact Build.renumbers_throw rfl

theorem renumbers_trigger (pattern : Value) : Build.Renumbers number id
    (trigger dialect n pattern) (trigger dialect (number n) pattern) := by
  unfold trigger
  split
  · exact Build.renumbers_pure _
  · exact Build.renumbers_pure _
  · exact Build.renumbers_pure _
  · exact renumbers_patternTrigger dialect number n pattern

/-- What makes a rule match does not depend on its number. -/
theorem trigger_at {dialect : Regex.Dialect} {pattern : Value} {t : Trigger} {number : Int} {before after : List EmptyMatch}
    (h : (trigger dialect number pattern).run.run before = (.ok t, after)) (number' : Int)
    (before' : List EmptyMatch) :
    ∃ after', (trigger dialect number' pattern).run.run before' = (.ok t, after') :=
  (renumbers_trigger dialect (fun _ => number') number pattern).ok_at h before'

end Rule

end FirstMatch
