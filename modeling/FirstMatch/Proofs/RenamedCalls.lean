import FirstMatch.Proofs.ErrorNumbers

/-!
Calls under other numbers. The arguments of a call are bound by their names and places, whatever the numbers
of the errors in them are. So an action takes these for names if what it does with what it receives is the
same under other numbers, and there are none in its defaults.
-/

namespace FirstMatch

variable {R S : Renaming}

namespace Value

mutual

/-- Whether there is no number of an error in a value. -/
def isNumberless : Value → Bool
  | list items => areNumberless items
  | tuple items => areNumberless items
  | mapping entries => entriesNumberless entries
  | fault f => f.serial?.isNone
  | _ => true

def areNumberless : List Value → Bool
  | [] => true
  | v :: vs => v.isNumberless && areNumberless vs

def entriesNumberless : List (Value × Value) → Bool
  | [] => true
  | (k, v) :: es => k.isNumberless && v.isNumberless && entriesNumberless es

end

mutual

/-- A value without numbers is the same under any. -/
theorem renamed_self {v : Value} (h : v.isNumberless = true) : v.Renamed R v := by
  cases v with
  | list items => exact .list (renamedAll_self h)
  | tuple items => exact .tuple (renamedAll_self h)
  | mapping entries => exact .mapping (renamedEntries_self h)
  | fault f => exact .fault (.other f (Option.isNone_iff_eq_none.mp h))
  | _ => exact .atom _ rfl

theorem renamedAll_self {vs : List Value} (h : areNumberless vs = true) : RenamedAll R vs vs := by
  cases vs with
  | nil => exact .nil
  | cons v vs =>
    obtain ⟨hv, hvs⟩ := (Bool.and_eq_true _ _).mp h
    exact .cons (renamed_self hv) (renamedAll_self hvs)

theorem renamedEntries_self {es : List (Value × Value)} (h : entriesNumberless es = true) :
    RenamedEntries R es es := by
  cases es with
  | nil => exact .nil
  | cons e es =>
    obtain ⟨k, v⟩ := e
    obtain ⟨he, hes⟩ := (Bool.and_eq_true _ _).mp h
    obtain ⟨hk, hv⟩ := (Bool.and_eq_true _ _).mp he
    exact .cons (renamed_self hk) (renamed_self hv) (renamedEntries_self hes)

end

end Value

def Arguments.isNumberless (c : Arguments) : Bool := c.all fun a => a.2.isNumberless

theorem Arguments.renamed_self {c : Arguments} (h : c.isNumberless = true) : RenamedArguments R c c := by
  induction c with
  | nil => exact .nil
  | cons a c ih =>
    obtain ⟨ha, hc⟩ := (Bool.and_eq_true _ _).mp h
    exact .cons ⟨rfl, Value.renamed_self ha⟩ (ih hc)

/-- What an action receives, but for the numbers of errors. -/
structure Bound.Renamed (R : Renaming) (b c : Bound) : Prop where
  positional : List.Forall₂ (Value.Renamed R) b.positional c.positional
  keywords : RenamedArguments R b.keywords c.keywords

namespace Bound

variable {b c : Bound}

theorem Renamed.mono (hRS : R ≤ S) (h : b.Renamed R c) : b.Renamed S c :=
  ⟨h.positional.imp fun _ _ => Value.Renamed.mono hRS, h.keywords.mono hRS⟩

theorem Renamed.text (h : b.Renamed R c) : c.text = b.text := by
  have hp := h.positional
  unfold Bound.text
  generalize b.positional = vs at hp
  generalize c.positional = ws at hp
  cases hp with
  | nil => rfl
  | @cons v _ _ _ head _ =>
    cases head with
    | atom _ atom => cases v <;> rfl
    | _ => rfl

theorem Renamed.cursor? (h : b.Renamed R c) : c.cursor? = b.cursor? := by
  have hp := h.positional
  unfold Bound.cursor?
  generalize b.positional = vs at hp
  generalize c.positional = ws at hp
  cases hp with
  | nil => rfl
  | cons _ tail =>
    cases tail with
    | nil => rfl
    | @cons v _ _ _ head _ =>
      cases head with
      | atom _ atom => cases v <;> rfl
      | _ => rfl

end Bound

namespace Signature

/-- Whether there is no number of an error in the defaults of a signature. -/
def isNumberless (s : Signature) : Bool := s.all fun p => p.default.all Value.isNumberless

/-- A parameter whose value is the same under other numbers. -/
structure Slot.Renamed (R : Renaming) (a b : Slot) : Prop where
  parameter : b.parameter = a.parameter
  numberless : a.parameter.default.all Value.isNumberless = true
  value : Option.Rel (Value.Renamed R) a.value b.value

structure Filling.Renamed (R : Renaming) (f g : Filling) : Prop where
  fixed : List.Forall₂ (Slot.Renamed R) f.fixed g.fixed
  keywordOnly : List.Forall₂ (Slot.Renamed R) f.keywordOnly g.keywordOnly
  others : RenamedArguments R f.others g.others

theorem renamed_fill {ps : List Parameter} (hps : ∀ p ∈ ps, p.default.all Value.isNumberless = true)
    {vs ws : List Value} (h : List.Forall₂ (Value.Renamed R) vs ws) :
    List.Forall₂ (Slot.Renamed R) (fill ps vs) (fill ps ws) := by
  induction ps generalizing vs ws with
  | nil => exact .nil
  | cons p ps ih =>
    obtain ⟨hp, hps⟩ := List.forall_mem_cons.mp hps
    cases h with
    | nil => exact .cons ⟨rfl, hp, .none⟩ (ih hps .nil)
    | cons head tail => exact .cons ⟨rfl, hp, .some head⟩ (ih hps tail)

theorem renamed_give (name : String) {v w : Value} (hvw : v.Renamed R w) {as bs : List Slot}
    (h : List.Forall₂ (Slot.Renamed R) as bs) :
    Option.Rel (SameCall (List.Forall₂ (Slot.Renamed R))) (give name v as) (give name w bs) := by
  induction h with
  | nil => exact .none
  | @cons a b as bs hab htail ih =>
    unfold give
    rw [hab.parameter]
    split
    · have hvalue := hab.value
      generalize a.value = x at hvalue
      generalize b.value = y at hvalue
      cases hvalue with
      | none => exact .some (.ok (.cons ⟨rfl, hab.numberless, .some hvw⟩ htail))
      | some _ => exact .some (.error _)
    · generalize give name v as = x at ih
      generalize give name w bs = y at ih
      cases ih with
      | none => exact .none
      | some hslots =>
        cases hslots with
        | ok hslots => exact .some (.ok (.cons hab hslots))
        | error flaw => exact .some (.error flaw)

theorem renamed_bindKeyword (takesOthers : Bool) {f g : Filling} (h : f.Renamed R g)
    {a b : String × Value} (hname : a.1 = b.1) (hab : a.2.Renamed R b.2) :
    SameCall (Filling.Renamed R) (bindKeyword takesOthers f a) (bindKeyword takesOthers g b) := by
  obtain ⟨name, v⟩ := a
  obtain ⟨name', w⟩ := b
  obtain rfl : name = name' := hname
  have hfixed := renamed_give name hab h.fixed
  have hkeyword := renamed_give name hab h.keywordOnly
  unfold bindKeyword
  dsimp only at hfixed hkeyword ⊢
  generalize give name v f.fixed = x at hfixed
  generalize give name w g.fixed = y at hfixed
  generalize give name v f.keywordOnly = x' at hkeyword
  generalize give name w g.keywordOnly = y' at hkeyword
  cases hfixed with
  | some hslots =>
    cases hslots with
    | ok hslots => exact .ok { h with fixed := hslots }
    | error flaw => exact .error flaw
  | none =>
    cases hkeyword with
    | some hslots =>
      cases hslots with
      | ok hslots => exact .ok { h with keywordOnly := hslots }
      | error flaw => exact .error flaw
    | none =>
      dsimp only
      split
      · exact .ok { h with others := List.rel_append h.others (.cons ⟨rfl, hab⟩ .nil) }
      · exact .error _

theorem renamed_bindKeywords (takesOthers : Bool) {f g : Filling} (h : f.Renamed R g) {c d : Arguments}
    (hcd : RenamedArguments R c d) :
    SameCall (Filling.Renamed R) (c.foldlM (bindKeyword takesOthers) f)
      (d.foldlM (bindKeyword takesOthers) g) := by
  induction hcd generalizing f g with
  | nil => exact .ok h
  | @cons a b c d hab _ ih =>
    have hfirst := renamed_bindKeyword takesOthers h hab.1 hab.2
    rw [List.foldlM_cons, List.foldlM_cons]
    generalize bindKeyword takesOthers f a = x at hfirst
    generalize bindKeyword takesOthers g b = y at hfirst
    cases hfirst with
    | ok hfilling => exact ih hfilling
    | error flaw => exact .error flaw

theorem Slot.Renamed.value? {a b : Slot} (h : a.Renamed R b) :
    Option.Rel (Value.Renamed R) a.value? b.value? := by
  have hvalue := h.value
  have hdefault := h.numberless
  unfold Slot.value?
  rw [h.parameter]
  generalize a.value = x at hvalue
  generalize b.value = y at hvalue
  cases hvalue with
  | some hvw => exact .some hvw
  | none =>
    cases ha : a.parameter.default with
    | none => exact .none
    | some v =>
      rw [ha] at hdefault
      exact .some (Value.renamed_self hdefault)

/-- A value under the name of its parameter. -/
theorem Slot.Renamed.named? {a b : Slot} (h : a.Renamed R b) :
    Option.Rel (fun x y => x.1 = y.1 ∧ x.2.Renamed R y.2)
      (a.value?.map fun v => (a.parameter.name, v)) (b.value?.map fun v => (b.parameter.name, v)) := by
  have hvalue := h.value?
  rw [h.parameter]
  generalize a.value? = x at hvalue
  generalize b.value? = y at hvalue
  cases hvalue with
  | none => exact .none
  | some hvw => exact .some ⟨rfl, hvw⟩

theorem renamed_missing {as bs : List Slot} (h : List.Forall₂ (Slot.Renamed R) as bs) :
    missing bs = missing as := by
  induction h with
  | nil => rfl
  | @cons a b as bs hab _ ih =>
    have hnone : b.value?.isNone = a.value?.isNone := by
      have hvalue := hab.value?
      generalize a.value? = x at hvalue
      generalize b.value? = y at hvalue
      cases hvalue <;> rfl
    unfold missing at ih ⊢
    rw [List.filter_cons, List.filter_cons, hnone]
    split
    · rw [List.map_cons, List.map_cons, hab.parameter, ih]
    · exact ih

/-- The arguments of a call are bound alike under other numbers. -/
theorem renamed_bind {s : Signature} (hs : s.isNumberless = true) {vs ws : List Value}
    (h : List.Forall₂ (Value.Renamed R) vs ws) {c d : Arguments} (hcd : RenamedArguments R c d) :
    SameCall (Bound.Renamed R) (s.bind vs c) (s.bind ws d) := by
  have hall : ∀ p ∈ s, p.default.all Value.isNumberless = true := List.all_eq_true.mp hs
  have hfixed : ∀ p ∈ s.fixed, p.default.all Value.isNumberless = true := fun p hp =>
    hall p (List.mem_filter.mp hp).1
  have hkeywordOnly : ∀ p ∈ s.keywordOnly, p.default.all Value.isNumberless = true := fun p hp =>
    hall p (List.mem_filter.mp hp).1
  have hstart : Filling.Renamed R ⟨fill s.fixed vs, fill s.keywordOnly [], []⟩
      ⟨fill s.fixed ws, fill s.keywordOnly [], []⟩ :=
    ⟨renamed_fill hfixed h, renamed_fill hkeywordOnly .nil, .nil⟩
  have hfill := renamed_bindKeywords (s.hasKind .keywords) hstart hcd
  have hextra := List.forall₂_drop s.fixed.length h
  have hempty : (ws.drop s.fixed.length).isEmpty = (vs.drop s.fixed.length).isEmpty := by
    generalize vs.drop s.fixed.length = us at hextra
    generalize ws.drop s.fixed.length = us' at hextra
    cases hextra <;> rfl
  unfold bind
  dsimp only
  generalize c.foldlM (bindKeyword (s.hasKind .keywords)) _ = x at hfill
  generalize d.foldlM (bindKeyword (s.hasKind .keywords)) _ = y at hfill
  cases hfill with
  | error flaw => exact .error flaw
  | ok hfg =>
    dsimp only [Bind.bind, Except.bind]
    rw [hempty, ← h.length_eq, renamed_missing hfg.fixed, renamed_missing hfg.keywordOnly]
    split
    · exact .error _
    · split
      · exact .error _
      · split
        · exact .error _
        · have hvalues := List.rel_filterMap (fun _ _ hab => hab.value?) hfg.fixed
          have hnamed := List.rel_filterMap (fun _ _ hab => hab.named?) hfg.keywordOnly
          exact .ok ⟨List.rel_append hvalues hextra, List.rel_append hnamed hfg.others⟩

end Signature

namespace CompiledRule

variable {r : CompiledRule}

/-- An action takes the numbers of errors for names if what it does with what it receives is the same under
other numbers, and there are none in its defaults. -/
theorem indifferent_of_body (hsignature : r.action.signature.isNumberless = true)
    (hbody : ∀ R b c, b.Renamed R c →
      Script.Renamed Value.Renamed R (r.action.body b) (r.action.body c)) : r.Indifferent := by
  intro R _ c d hcd text i span
  have hselect : RenamedArguments R (r.shape.select c) (r.shape.select d) := by
    unfold CallShape.select
    split
    · exact hcd
    · refine List.rel_filter (fun a b hab => iff_of_eq ?_) hcd
      exact congrArg (fun name => r.shape.keywords.contains name = true) hab.1
  have hpositional : List.Forall₂ (Value.Renamed R) (r.positional text i span)
      (r.positional text i span) :=
    List.forall₂_take _ (.cons (.atom _ rfl) (.cons (.atom _ rfl) (.cons (.atom _ rfl) .nil)))
  have hbind := Signature.renamed_bind hsignature hpositional hselect
  unfold script
  generalize r.action.signature.bind (r.positional text i span) (r.shape.select c) = x at hbind
  generalize r.action.signature.bind (r.positional text i span) (r.shape.select d) = y at hbind
  cases hbind with
  | ok hbc => exact .ok (hbody R _ _ hbc)
  | error flaw => exact .error flaw

end CompiledRule

end FirstMatch
