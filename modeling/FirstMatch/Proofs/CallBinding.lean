import FirstMatch.Engine
import FirstMatch.Proofs.Compilation
import FirstMatch.Recipe
import Mathlib.Data.List.Nodup
import Mathlib.Tactic.Common

/-!
Binding the arguments of a call. When a lexer has accepted its arguments, the calls of its actions bind
theirs, with one exception: an action that takes any keyword is given every lexer argument, also one
with the name of a parameter that has got its value by position.
-/

namespace FirstMatch

/-- The order in which parameters of the different kinds stand. -/
def ParameterKind.rank : ParameterKind → Nat
  | positionalOnly => 0
  | positional => 1
  | variadic => 2
  | keywordOnly => 3
  | keywords => 4

namespace Signature

/-- The signatures that functions have: names differ, kinds stand in order, there is at most one
parameter for further positional arguments and one for further keywords, both without a default, and no
parameter that needs a value follows a positional one with a default. -/
structure WellFormed (s : Signature) : Prop where
  names : (s.map (·.name)).Nodup
  kinds : s.Pairwise fun p q =>
    p.kind.rank < q.kind.rank ∨ p.kind = q.kind ∧ p.kind ≠ .variadic ∧ p.kind ≠ .keywords
  defaults : s.fixed.Pairwise fun p q => p.default.isSome → q.default.isSome
  collectors : ∀ p ∈ s, p.kind = .variadic ∨ p.kind = .keywords → p.default.isNone

instance (s : Signature) : Decidable s.WellFormed :=
  decidable_of_iff
    ((s.map (·.name)).Nodup ∧
      (s.Pairwise fun p q =>
        p.kind.rank < q.kind.rank ∨ p.kind = q.kind ∧ p.kind ≠ .variadic ∧ p.kind ≠ .keywords) ∧
      (s.fixed.Pairwise fun p q => p.default.isSome → q.default.isSome) ∧
      ∀ p ∈ s, p.kind = .variadic ∨ p.kind = .keywords → p.default.isNone)
    ⟨fun ⟨names, kinds, defaults, collectors⟩ => ⟨names, kinds, defaults, collectors⟩,
      fun h => ⟨h.names, h.kinds, h.defaults, h.collectors⟩⟩

variable {s : Signature}

theorem mem_fixed {p : Parameter} :
    p ∈ s.fixed ↔ p ∈ s ∧ (p.kind = .positionalOnly ∨ p.kind = .positional) := by
  simp [fixed]

theorem mem_keywordOnly {p : Parameter} : p ∈ s.keywordOnly ↔ p ∈ s ∧ p.kind = .keywordOnly := by
  simp [keywordOnly]

namespace WellFormed

theorem nodup_fixed (h : s.WellFormed) : (s.fixed.map (·.name)).Nodup :=
  (List.filter_sublist.map _).nodup h.names

theorem nodup_keywordOnly (h : s.WellFormed) : (s.keywordOnly.map (·.name)).Nodup :=
  (List.filter_sublist.map _).nodup h.names

/-- Parameters are told apart by their names. -/
theorem eq_of_name (h : s.WellFormed) {p q : Parameter} (hp : p ∈ s) (hq : q ∈ s)
    (hname : p.name = q.name) : p = q :=
  List.inj_on_of_nodup_map h.names hp hq hname

/-- No keyword-only parameter has the name of a positional one. -/
theorem name_ne (h : s.WellFormed) {p q : Parameter} (hp : p ∈ s.fixed) (hq : q ∈ s.keywordOnly) :
    p.name ≠ q.name := by
  intro hname
  have hp := mem_fixed.mp hp
  have hq := mem_keywordOnly.mp hq
  have heq := h.eq_of_name hp.1 hq.1 hname
  rw [heq, hq.2] at hp
  simp at hp

end WellFormed

/-- Behind as many parameters as need a value there are only such as have a default. -/
theorem default_of_mem_drop {ps : List Parameter} {n : Nat}
    (h : ps.Pairwise fun p q => p.default.isSome → q.default.isSome)
    (hn : (ps.filter fun p => p.default.isNone).length ≤ n) :
    ∀ p ∈ ps.drop n, p.default.isSome := by
  induction ps generalizing n with
  | nil => simp
  | cons p ps ih =>
    obtain ⟨hp, hps⟩ := List.pairwise_cons.mp h
    intro q hq
    cases hdefault : p.default with
    | some v =>
      have hall : ∀ q ∈ p :: ps, q.default.isSome := by
        simpa [hdefault] using fun q hq => hp q hq (by simp [hdefault])
      exact hall q (List.mem_of_mem_drop hq)
    | none =>
      cases n with
      | zero => simp [hdefault] at hn
      | succ n =>
        have hn' : (ps.filter fun p => p.default.isNone).length ≤ n := by
          simpa [hdefault] using hn
        exact ih hps hn' q hq

theorem parameters_fill (ps : List Parameter) (vs : List Value) :
    (fill ps vs).map (·.parameter) = ps := by
  induction ps generalizing vs with
  | nil => rfl
  | cons p ps ih => cases vs <;> simp [fill, ih]

/-- As many parameters have a value as there are positional arguments. -/
theorem value_of_mem_fill {ps : List Parameter} {vs : List Value} {slot : Slot}
    (h : slot ∈ fill ps vs) :
    slot.value.isSome ∧ slot.parameter ∈ ps.take vs.length ∨
      slot.value = none ∧ slot.parameter ∈ ps.drop vs.length := by
  induction ps generalizing vs with
  | nil => simp [fill] at h
  | cons p ps ih =>
    cases vs with
    | nil =>
      rcases List.mem_cons.mp h with rfl | h
      · simp
      · right
        have hnone : slot.value = none ∧ slot.parameter ∈ ps := by simpa using ih h
        simp [hnone]
    | cons v vs =>
      rcases List.mem_cons.mp h with rfl | h
      · simp
      · rcases ih h with ⟨hv, hp⟩ | hnone
        · left
          simp [hv, hp]
        · right
          simpa using hnone

/-- A slot with the value of a keyword, if it is the one that the keyword names. -/
def supplied (name : String) (v : Value) (slot : Slot) : Slot :=
  if slot.parameter.name = name then { slot with value := some v } else slot

@[simp] theorem parameter_supplied (name : String) (v : Value) (slot : Slot) :
    (supplied name v slot).parameter = slot.parameter := by
  unfold supplied
  split <;> rfl

theorem parameters_supplied (name : String) (v : Value) (slots : List Slot) :
    (slots.map (supplied name v)).map (·.parameter) = slots.map (·.parameter) := by
  simp

theorem supplied_of_ne {name : String} {slot : Slot} (h : slot.parameter.name ≠ name) (v : Value) :
    supplied name v slot = slot := by
  simp [supplied, h]

theorem give_of_not_named {name : String} {slots : List Slot}
    (h : ∀ slot ∈ slots, slot.parameter.name = name → slot.parameter.kind = .positionalOnly)
    (v : Value) : give name v slots = none := by
  induction slots with
  | nil => rfl
  | cons slot slots ih =>
    obtain ⟨hslot, hslots⟩ := List.forall_mem_cons.mp h
    have hnot : ¬(slot.parameter.name = name ∧ slot.parameter.kind ≠ .positionalOnly) :=
      fun both => both.2 (hslot both.1)
    simp [give, hnot, ih hslots]

/-- A keyword that names a parameter gives it a value unless it has one. -/
theorem give_of_named {name : String} {slots : List Slot} {slot : Slot} (hmem : slot ∈ slots)
    (hname : slot.parameter.name = name) (hkind : slot.parameter.kind ≠ .positionalOnly)
    (hnodup : (slots.map (·.parameter.name)).Nodup) (v : Value) :
    give name v slots = some (if slot.value.isSome then .error (.repeatedArgument name)
      else .ok (slots.map (supplied name v))) := by
  induction slots with
  | nil => simp at hmem
  | cons head rest ih =>
    have hnodup' : head.parameter.name ∉ rest.map (·.parameter.name) ∧
        (rest.map (·.parameter.name)).Nodup := by
      simpa using List.nodup_cons.mp hnodup
    rcases List.mem_cons.mp hmem with rfl | hrest
    · have hothers : rest.map (supplied name v) = rest := by
        have hsame : ∀ other ∈ rest, supplied name v other = id other := by
          intro other hother
          apply supplied_of_ne
          intro heq
          exact hnodup'.1 (List.mem_map.mpr ⟨other, hother, heq.trans hname.symm⟩)
        rw [List.map_congr_left hsame, List.map_id]
      unfold give
      rw [if_pos ⟨hname, hkind⟩, List.map_cons, hothers]
      cases slot.value with
      | none => simp [supplied, hname]
      | some w => rfl
    · have hne : head.parameter.name ≠ name := by
        intro heq
        exact hnodup'.1 (List.mem_map.mpr ⟨slot, hrest, hname.trans heq.symm⟩)
      unfold give
      rw [if_neg fun both => hne both.1, ih hrest hnodup'.2, List.map_cons, supplied_of_ne hne]
      split <;> rfl

/-- A call while its keywords are being bound: those of `keywords` are still to come, and `taken` are
the names of parameters that have their value by position though a keyword may name them. -/
structure Pending (s : Signature) (taken : List String) (keywords : Arguments) (f : Filling) :
    Prop where
  fixed_eq : f.fixed.map (·.parameter) = s.fixed
  keywordOnly_eq : f.keywordOnly.map (·.parameter) = s.keywordOnly
  occupied : ∀ slot ∈ f.fixed, slot.parameter.kind ≠ .positionalOnly →
    slot.parameter.name ∈ keywords.map (·.1) →
      (slot.value.isSome ↔ slot.parameter.name ∈ taken)
  vacant : ∀ slot ∈ f.keywordOnly, slot.parameter.name ∈ keywords.map (·.1) → slot.value = none
  filled : ∀ slot ∈ f.fixed, slot.value?.isSome
  owed : ∀ slot ∈ f.keywordOnly,
    slot.value?.isSome ∨ slot.parameter.name ∈ keywords.map (·.1)

namespace Pending

variable {taken : List String} {k : String × Value} {ks : Arguments} {f : Filling}

theorem nodup_fixed (h : Pending s taken ks f) (wf : s.WellFormed) :
    (f.fixed.map (·.parameter.name)).Nodup := by
  have hfixed := wf.nodup_fixed
  rwa [← h.fixed_eq, List.map_map] at hfixed

theorem nodup_keywordOnly (h : Pending s taken ks f) (wf : s.WellFormed) :
    (f.keywordOnly.map (·.parameter.name)).Nodup := by
  have hkeywordOnly := wf.nodup_keywordOnly
  rwa [← h.keywordOnly_eq, List.map_map] at hkeywordOnly

theorem mem_fixed (h : Pending s taken ks f) {slot : Slot} (hslot : slot ∈ f.fixed) :
    slot.parameter ∈ s.fixed := by
  rw [← h.fixed_eq]
  exact List.mem_map_of_mem hslot

theorem mem_keywordOnly (h : Pending s taken ks f) {slot : Slot} (hslot : slot ∈ f.keywordOnly) :
    slot.parameter ∈ s.keywordOnly := by
  rw [← h.keywordOnly_eq]
  exact List.mem_map_of_mem hslot

theorem exists_slot (h : Pending s taken ks f) {p : Parameter} (hp : p ∈ s.fixed) :
    ∃ slot ∈ f.fixed, slot.parameter = p := by
  rw [← h.fixed_eq] at hp
  exact List.mem_map.mp hp

theorem value?_supplied {name : String} {v : Value} {slot : Slot} (h : slot.value?.isSome) :
    (supplied name v slot).value?.isSome := by
  unfold supplied
  split
  · simp [Slot.value?]
  · exact h

/-- A keyword with the name of a parameter that is filled by position is refused. -/
theorem refused (h : Pending s taken (k :: ks) f) (wf : s.WellFormed) {p : Parameter}
    (hp : p ∈ s.fixed) (hkind : p.kind ≠ .positionalOnly) (hname : p.name = k.1)
    (htaken : k.1 ∈ taken) (takesOthers : Bool) :
    bindKeyword takesOthers f k = .error (.repeatedArgument k.1) := by
  obtain ⟨slot, hslot, rfl⟩ := h.exists_slot hp
  have hvalue : slot.value.isSome :=
    (h.occupied slot hslot hkind (by simp [hname])).mpr (hname ▸ htaken)
  unfold bindKeyword
  rw [give_of_named hslot hname hkind (h.nodup_fixed wf), if_pos hvalue]
  rfl

/-- A keyword that is still to come is another one. -/
theorem ne_of_later (hnew : k.1 ∉ ks.map (·.1)) {name : String} (hname : name ∈ ks.map (·.1)) :
    name ≠ k.1 ∧ name ∈ (k :: ks).map (·.1) := by
  constructor
  · rintro rfl
    exact hnew hname
  · exact List.mem_cons_of_mem _ hname

/-- A positional parameter gets the value of a keyword. -/
theorem supply_fixed (h : Pending s taken (k :: ks) f) (wf : s.WellFormed)
    (hnew : k.1 ∉ ks.map (·.1)) {slot : Slot} (hslot : slot ∈ f.fixed)
    (hname : slot.parameter.name = k.1) :
    Pending s taken ks { f with fixed := f.fixed.map (supplied k.1 k.2) } := by
  constructor
  · rw [parameters_supplied]
    exact h.fixed_eq
  · exact h.keywordOnly_eq
  · intro other hother hkind hother_name
    obtain ⟨before, hbefore, rfl⟩ := List.mem_map.mp hother
    rw [parameter_supplied] at hkind hother_name ⊢
    obtain ⟨hne, hlater⟩ := ne_of_later hnew hother_name
    rw [supplied_of_ne hne]
    exact h.occupied before hbefore hkind hlater
  · intro other hother hother_name
    exact h.vacant other hother (ne_of_later hnew hother_name).2
  · intro other hother
    obtain ⟨before, hbefore, rfl⟩ := List.mem_map.mp hother
    exact value?_supplied (h.filled before hbefore)
  · intro other hother
    have hne := wf.name_ne (h.mem_fixed hslot) (h.mem_keywordOnly hother)
    have howed := h.owed other hother
    simpa [hname ▸ hne.symm] using howed

/-- A keyword-only parameter gets the value of its keyword. -/
theorem supply_keywordOnly (h : Pending s taken (k :: ks) f) (hnew : k.1 ∉ ks.map (·.1)) :
    Pending s taken ks { f with keywordOnly := f.keywordOnly.map (supplied k.1 k.2) } := by
  constructor
  · exact h.fixed_eq
  · rw [parameters_supplied]
    exact h.keywordOnly_eq
  · intro other hother hkind hother_name
    exact h.occupied other hother hkind (ne_of_later hnew hother_name).2
  · intro other hother hother_name
    obtain ⟨before, hbefore, rfl⟩ := List.mem_map.mp hother
    rw [parameter_supplied] at hother_name
    obtain ⟨hne, hlater⟩ := ne_of_later hnew hother_name
    rw [supplied_of_ne hne]
    exact h.vacant before hbefore hlater
  · exact h.filled
  · intro other hother
    obtain ⟨before, hbefore, rfl⟩ := List.mem_map.mp hother
    rw [parameter_supplied]
    by_cases heq : before.parameter.name = k.1
    · left
      simp [supplied, heq, Slot.value?]
    · rw [supplied_of_ne heq]
      simpa [heq] using h.owed before hbefore

/-- A keyword that names no keyword-only parameter goes to the further keywords. -/
theorem supply_others (h : Pending s taken (k :: ks) f) (hnew : k.1 ∉ ks.map (·.1))
    (hnone : ∀ slot ∈ f.keywordOnly, slot.parameter.name ≠ k.1) :
    Pending s taken ks { f with others := f.others ++ [k] } := by
  constructor
  · exact h.fixed_eq
  · exact h.keywordOnly_eq
  · intro other hother hkind hname
    exact h.occupied other hother hkind (ne_of_later hnew hname).2
  · intro other hother hname
    exact h.vacant other hother (ne_of_later hnew hname).2
  · exact h.filled
  · intro other hother
    simpa [hnone other hother] using h.owed other hother

/-- Every other keyword is bound: to a positional parameter without a value, to a keyword-only one, or
to the further keywords. -/
theorem bindKeyword_of_free (h : Pending s taken (k :: ks) f) (wf : s.WellFormed)
    (hnew : k.1 ∉ ks.map (·.1)) (hfree : k.1 ∉ taken) {takesOthers : Bool}
    (hknown : takesOthers = true ∨ ∃ p ∈ s.keywordOnly, p.name = k.1) :
    ∃ g, bindKeyword takesOthers f k = .ok g ∧ Pending s taken ks g := by
  have hnow : k.1 ∈ (k :: ks).map (·.1) := by simp
  by_cases hfixed : ∃ slot ∈ f.fixed,
      slot.parameter.name = k.1 ∧ slot.parameter.kind ≠ .positionalOnly
  · obtain ⟨slot, hslot, hname, hkind⟩ := hfixed
    have hvalue : ¬slot.value.isSome := by
      rw [h.occupied slot hslot hkind (hname ▸ hnow), hname]
      exact hfree
    refine ⟨_, ?_, h.supply_fixed wf hnew hslot hname⟩
    unfold bindKeyword
    rw [give_of_named hslot hname hkind (h.nodup_fixed wf), if_neg hvalue]
    rfl
  · have hnone : give k.1 k.2 f.fixed = none := by
      apply give_of_not_named
      intro slot hslot hname
      by_contra hkind
      exact hfixed ⟨slot, hslot, hname, hkind⟩
    by_cases hkeyword : ∃ slot ∈ f.keywordOnly, slot.parameter.name = k.1
    · obtain ⟨slot, hslot, hname⟩ := hkeyword
      have hkind : slot.parameter.kind ≠ .positionalOnly := by
        simp [(Signature.mem_keywordOnly.mp (h.mem_keywordOnly hslot)).2]
      have hvalue := h.vacant slot hslot (hname ▸ hnow)
      refine ⟨_, ?_, h.supply_keywordOnly hnew⟩
      unfold bindKeyword
      rw [hnone, give_of_named hslot hname hkind (h.nodup_keywordOnly wf), hvalue]
      rfl
    · have hunnamed : ∀ slot ∈ f.keywordOnly, slot.parameter.name ≠ k.1 :=
        fun slot hslot hname => hkeyword ⟨slot, hslot, hname⟩
      have hothers : takesOthers = true := by
        apply hknown.resolve_right
        rintro ⟨p, hp, hname⟩
        rw [← h.keywordOnly_eq] at hp
        obtain ⟨slot, hslot, rfl⟩ := List.mem_map.mp hp
        exact hunnamed slot hslot hname
      have hnone' : give k.1 k.2 f.keywordOnly = none := by
        apply give_of_not_named
        intro slot hslot hname
        exact absurd hname (hunnamed slot hslot)
      refine ⟨_, ?_, h.supply_others hnew hunnamed⟩
      unfold bindKeyword
      rw [hnone, hnone', hothers]
      rfl

/-- The first keyword that is taken already ends the binding; without one all are bound. -/
theorem foldlM (h : Pending s taken ks f) (wf : s.WellFormed) (hnodup : (ks.map (·.1)).Nodup)
    (htaken : ∀ name ∈ taken, ∃ p ∈ s.fixed, p.name = name ∧ p.kind ≠ .positionalOnly)
    {takesOthers : Bool}
    (hknown : takesOthers = true ∨ ∀ k ∈ ks, ∃ p ∈ s.keywordOnly, p.name = k.1) :
    (∀ name, (ks.map (·.1)).find? (taken.contains ·) = some name →
      ks.foldlM (bindKeyword takesOthers) f = .error (.repeatedArgument name)) ∧
    ((ks.map (·.1)).find? (taken.contains ·) = none →
      ∃ g, ks.foldlM (bindKeyword takesOthers) f = .ok g ∧ Pending s taken [] g) := by
  induction ks generalizing f with
  | nil => exact ⟨by simp, fun _ => ⟨f, rfl, h⟩⟩
  | cons k ks ih =>
    obtain ⟨hnew, hnodup⟩ := List.nodup_cons.mp hnodup
    rw [List.map_cons, List.find?_cons]
    by_cases hk : k.1 ∈ taken
    · obtain ⟨p, hp, hname, hkind⟩ := htaken k.1 hk
      have hrefused := h.refused wf hp hkind hname hk takesOthers
      have hcontains : taken.contains k.1 = true := by simpa using hk
      simp only [hcontains, List.foldlM_cons, hrefused]
      constructor
      · intro name hfind
        cases hfind
        rfl
      · intro hfind
        cases hfind
    · have hknown' : takesOthers = true ∨ ∃ p ∈ s.keywordOnly, p.name = k.1 :=
        hknown.imp_right fun hall => hall k List.mem_cons_self
      obtain ⟨g, hg, hpending⟩ := h.bindKeyword_of_free wf hnew hk hknown'
      have hcontains : taken.contains k.1 = false := by simpa using hk
      simp only [hcontains, List.foldlM_cons, hg]
      exact ih hpending hnodup (hknown.imp_right fun hall k hk => hall k (List.mem_cons_of_mem _ hk))

end Pending

variable {shown : String} {shape : CallShape}

/-- The facts about a signature of which a call shape was made. -/
theorem shape_eq_ok (h : s.shape shown = .ok shape) :
    (s.hasKind .variadic ∨ s.fixed ≠ []) ∧
      (s.fixed.filter fun p => p.default.isNone).length ≤ 3 ∧
      shape = {
        arity := if s.hasKind .variadic then 3
          else max (s.fixed.filter fun p => p.default.isNone).length 1
        keywords := Names.ofList (s.keywordOnly.map (·.name))
        required := Names.ofList ((s.keywordOnly.filter fun p => p.default.isNone).map (·.name))
        anyKeyword := s.hasKind .keywords } := by
  unfold Signature.shape at h
  dsimp only at h
  split at h
  · cases h
  · next hsome =>
    split at h
    · cases h
    · next hfew =>
      cases h
      refine ⟨?_, Nat.not_lt.mp hfew, rfl⟩
      by_contra hneither
      rw [not_or] at hneither
      simp [hneither.1, hneither.2] at hsome

/-- A call has a value for each parameter that needs one, and a parameter for each value. -/
theorem arity_fits (h : s.shape shown = .ok shape) :
    shape.arity ≤ 3 ∧ (s.fixed.filter fun p => p.default.isNone).length ≤ shape.arity ∧
      (s.hasKind .variadic ∨ shape.arity ≤ s.fixed.length) := by
  obtain ⟨hsome, hfew, rfl⟩ := shape_eq_ok h
  have hle : (s.fixed.filter fun p => p.default.isNone).length ≤ s.fixed.length :=
    List.length_filter_le _ _
  cases hvariadic : s.hasKind .variadic with
  | true => simp [hfew]
  | false =>
    have hpos : 0 < s.fixed.length := by
      rw [List.length_pos_iff]
      simpa [hvariadic] using hsome
    simp only [Bool.false_eq_true, ↓reduceIte, false_or]
    omega

/-- The names of the parameters that calls fill by position though a keyword may name them. -/
def filled (s : Signature) (arity : Nat) : List String :=
  ((s.fixed.take arity).filter fun p => p.kind == .positional).map (·.name)

theorem mem_filled {arity : Nat} {name : String} :
    name ∈ s.filled arity ↔ ∃ p ∈ s.fixed.take arity, p.kind = .positional ∧ p.name = name := by
  simp [filled, and_assoc]

/-- The start of a call by its shape. -/
theorem pending_start (wf : s.WellFormed) (h : s.shape shown = .ok shape) {vs : List Value}
    (hvs : vs.length = shape.arity) {keywords : Arguments}
    (hrequired : ∀ name ∈ shape.required, name ∈ keywords.map (·.1)) :
    Pending s (s.filled shape.arity) keywords ⟨fill s.fixed vs, fill s.keywordOnly [], []⟩ := by
  obtain ⟨-, hneeded, -⟩ := arity_fits h
  have hvacant : ∀ slot ∈ fill s.keywordOnly [],
      slot.value = none ∧ slot.parameter ∈ s.keywordOnly := by
    intro slot hslot
    simpa using value_of_mem_fill hslot
  constructor
  · exact parameters_fill _ _
  · exact parameters_fill _ _
  · intro slot hslot hkind hname
    rw [mem_filled]
    rcases value_of_mem_fill hslot with ⟨hvalue, hp⟩ | ⟨hvalue, hp⟩
    · rw [hvs] at hp
      have hfixed := mem_fixed.mp (List.mem_of_mem_take hp)
      simp only [hvalue, true_iff]
      exact ⟨slot.parameter, hp, hfixed.2.resolve_left hkind, rfl⟩
    · rw [hvs] at hp
      simp only [hvalue, Option.isSome_none, Bool.false_eq_true, false_iff]
      rintro ⟨p, hp', -, heq⟩
      -- The names of the parameters before and behind the last value differ.
      have hnodup := wf.nodup_fixed
      rw [← List.take_append_drop shape.arity s.fixed, List.map_append] at hnodup
      exact List.disjoint_of_nodup_append hnodup (List.mem_map_of_mem hp')
        (heq ▸ List.mem_map_of_mem hp)
  · intro slot hslot hname
    exact (hvacant slot hslot).1
  · intro slot hslot
    rcases value_of_mem_fill hslot with ⟨hvalue, -⟩ | ⟨hvalue, hp⟩
    · simp [Slot.value?, hvalue]
    · rw [hvs] at hp
      simpa [Slot.value?, hvalue] using default_of_mem_drop wf.defaults hneeded _ hp
  · intro slot hslot
    obtain ⟨hvalue, hp⟩ := hvacant slot hslot
    cases hdefault : slot.parameter.default with
    | some v =>
      left
      simp [Slot.value?, hdefault]
    | none =>
      right
      apply hrequired
      obtain ⟨-, -, rfl⟩ := shape_eq_ok h
      rw [Names.mem_ofList]
      exact List.mem_map.mpr ⟨slot.parameter, by simp [hp, hdefault], rfl⟩

/-- What comes of a call by the shape of a signature: it fails just if a keyword has the name of a
parameter that is filled by position. -/
theorem bind_of_shape (wf : s.WellFormed) (h : s.shape shown = .ok shape) {vs : List Value}
    (hvs : vs.length = shape.arity) {keywords : Arguments} (hnodup : (keywords.map (·.1)).Nodup)
    (hrequired : ∀ name ∈ shape.required, name ∈ keywords.map (·.1))
    (hknown : shape.anyKeyword = true ∨ ∀ k ∈ keywords, k.1 ∈ shape.keywords) :
    (∀ name, (keywords.map (·.1)).find? ((s.filled shape.arity).contains ·) = some name →
      s.bind vs keywords = .error (.repeatedArgument name)) ∧
    ((keywords.map (·.1)).find? ((s.filled shape.arity).contains ·) = none →
      ∃ b, s.bind vs keywords = .ok b) := by
  have htaken : ∀ name ∈ s.filled shape.arity,
      ∃ p ∈ s.fixed, p.name = name ∧ p.kind ≠ .positionalOnly := by
    intro name hname
    obtain ⟨p, hp, hkind, hname⟩ := mem_filled.mp hname
    exact ⟨p, List.mem_of_mem_take hp, hname, by simp [hkind]⟩
  have hknown' : s.hasKind .keywords = true ∨
      ∀ k ∈ keywords, ∃ p ∈ s.keywordOnly, p.name = k.1 := by
    obtain ⟨-, -, rfl⟩ := shape_eq_ok h
    simpa [Names.mem_ofList] using hknown
  obtain ⟨herror, hok⟩ :=
    (pending_start wf h hvs hrequired).foldlM wf hnodup htaken hknown'
  constructor
  · intro name hfind
    unfold Signature.bind
    simp only [herror name hfind]
    rfl
  · intro hfind
    obtain ⟨g, hg, hbound⟩ := hok hfind
    obtain ⟨-, -, hroom⟩ := arity_fits h
    have hextra : (!(vs.drop s.fixed.length).isEmpty && !s.hasKind .variadic) = false := by
      rcases hroom with hvariadic | hle
      · simp [hvariadic]
      · simp [hvs, hle]
    have hmissing {slots : List Slot} (hall : ∀ slot ∈ slots, slot.value?.isSome) :
        missing slots = [] := by
      simpa [missing, Option.isSome_iff_ne_none] using hall
    have hfixed : missing g.fixed = [] := hmissing hbound.filled
    have hkeywordOnly : missing g.keywordOnly = [] :=
      hmissing fun slot hslot => by simpa using hbound.owed slot hslot
    unfold Signature.bind
    simp only [hg, Bind.bind, Except.bind, hextra, hfixed, hkeywordOnly, ne_eq,
      not_true_eq_false, Bool.false_eq_true, ↓reduceIte]
    exact ⟨_, rfl⟩

end Signature

/-- The call shape of a compiled rule is that of the signature of its action. -/
theorem Rule.shape_of_compile {dialect : Regex.Dialect} {r : Rule} {priority : Int}
    {c : CompiledRule} {before after : List EmptyMatch}
    (h : (r.compile priority dialect).run.run before = (.ok c, after)) :
    c.action.signature.shape c.action.display = .ok c.shape := by
  obtain ⟨⟨action, shape⟩, between, hshape, h⟩ := Build.bind_eq_ok h
  obtain ⟨t, between', -, h⟩ := Build.bind_eq_ok h
  cases h
  cases hhandler : r.handler with
  | value v =>
    rw [hhandler] at hshape
    cases hshape
  | action a =>
    rw [hhandler, Handler.callShape] at hshape
    cases ha : a.signature.shape a.display with
    | error flaw =>
      rw [ha] at hshape
      cases hshape
    | ok made =>
      rw [ha] at hshape
      cases hshape
      exact ha

namespace RuleTable

/-- What compiling ensures of each rule holds of all rules of a table. -/
theorem forall_of_compileFrom {dialect : Regex.Dialect} {P : CompiledRule → Prop}
    (hP : ∀ (r : Rule) (number : Nat) (c : CompiledRule) (before after : List EmptyMatch),
      (r.compile number dialect).run.run before = (.ok c, after) → P c)
    {ds : List Declaration} {n : Nat} {rules : List CompiledRule} {before after : List EmptyMatch}
    (h : (compileFrom dialect n ds).run.run before = (.ok rules, after)) : ∀ r ∈ rules, P r := by
  induction ds generalizing n rules before with
  | nil =>
    cases h
    simp
  | cons d ds ih =>
    obtain ⟨rule, between, -, h⟩ := Build.bind_eq_ok h
    obtain ⟨c, between', hc, h⟩ := Build.bind_eq_ok h
    obtain ⟨rest, between'', hrest, h⟩ := Build.bind_eq_ok h
    cases h
    exact List.forall_mem_cons.mpr ⟨hP rule n c _ _ hc, ih hrest⟩

theorem Built.shape {t : RuleTable} (h : t.Built) {r : CompiledRule} (hr : r ∈ t.rules) :
    r.action.signature.shape r.action.display = .ok r.shape := by
  obtain ⟨_, ds, before, after, h⟩ := h.compiled
  exact forall_of_compileFrom (fun _ _ _ _ _ => Rule.shape_of_compile) h r hr

/-- Lexer arguments are accepted if all that are required are there, and none that no action takes. -/
theorem checkArguments_eq_ok_iff {t : RuleTable} {names : List String} :
    t.checkArguments names = .ok () ↔ (∀ name ∈ t.requiredArguments, name ∈ names) ∧
      (t.acceptsAnyArgument = true ∨ ∀ name ∈ names, name ∈ t.argumentNames) := by
  have hmissing : Names.without t.requiredArguments names = [] ↔
      ∀ name ∈ t.requiredArguments, name ∈ names := by
    simp [List.eq_nil_iff_forall_not_mem, Names.mem_without]
  have hunexpected : Names.without names t.argumentNames = [] ↔
      ∀ name ∈ names, name ∈ t.argumentNames := by
    simp [List.eq_nil_iff_forall_not_mem, Names.mem_without]
  rw [← hmissing, ← hunexpected]
  unfold checkArguments
  cases t.acceptsAnyArgument with
  | true => simp
  | false =>
    dsimp only
    split_ifs <;> simp_all

/-- Lexer arguments that are accepted include those that some action requires. -/
theorem mem_of_required {t : RuleTable} {names : List String}
    (h : t.checkArguments names = .ok ()) {r : CompiledRule} (hr : r ∈ t.rules) {name : String}
    (hname : name ∈ r.shape.required) : name ∈ names := by
  apply (checkArguments_eq_ok_iff.mp h).1
  rw [requiredArguments, Names.mem_ofList]
  exact List.mem_flatMap.mpr ⟨r, hr, hname⟩

end RuleTable

namespace CompiledRule

/-- The first lexer argument with the name of a parameter that the call of the action fills by position,
if the action is given all of them. -/
def clash? (r : CompiledRule) (context : Arguments) : Option String :=
  if r.shape.anyKeyword then
    (context.map (·.1)).find? ((r.action.signature.filled r.shape.arity).contains ·)
  else none

theorem select_sublist (shape : CallShape) (context : Arguments) :
    List.Sublist (shape.select context) context := by
  unfold CallShape.select
  split
  · exact .refl context
  · exact List.filter_sublist

/-- An action takes the lexer arguments that it is given. -/
theorem known_of_select (shape : CallShape) (context : Arguments) :
    shape.anyKeyword = true ∨ ∀ k ∈ shape.select context, k.1 ∈ shape.keywords := by
  cases hany : shape.anyKeyword with
  | true => exact .inl rfl
  | false =>
    right
    intro k hk
    simp only [CallShape.select, hany, Bool.false_eq_true, ↓reduceIte] at hk
    exact List.contains_iff_mem.mp (List.mem_filter.mp hk).2

/-- What an action requires it is given if it is there. -/
theorem mem_select_of_required {r : CompiledRule}
    (hshape : r.action.signature.shape r.action.display = .ok r.shape) {context : Arguments}
    {name : String} (hname : name ∈ r.shape.required) (hcontext : name ∈ context.map (·.1)) :
    name ∈ (r.shape.select context).map (·.1) := by
  unfold CallShape.select
  split
  · exact hcontext
  · have hkeyword : name ∈ r.shape.keywords := by
      obtain ⟨-, -, heq⟩ := Signature.shape_eq_ok hshape
      rw [heq] at hname ⊢
      rw [Names.mem_ofList] at hname ⊢
      obtain ⟨p, hp, hpname⟩ := List.mem_map.mp hname
      exact List.mem_map.mpr ⟨p, List.mem_of_mem_filter hp, hpname⟩
    obtain ⟨k, hk, rfl⟩ := List.mem_map.mp hcontext
    exact List.mem_map_of_mem (List.mem_filter.mpr ⟨hk, List.contains_iff_mem.mpr hkeyword⟩)

/-- An action that takes its keywords by name is given none that names a positional parameter. -/
theorem find?_filled_select {r : CompiledRule} (wf : r.action.signature.WellFormed)
    (hshape : r.action.signature.shape r.action.display = .ok r.shape) (context : Arguments) :
    ((r.shape.select context).map (·.1)).find?
      ((r.action.signature.filled r.shape.arity).contains ·) = r.clash? context := by
  unfold clash? CallShape.select
  split
  · rfl
  · rw [List.find?_eq_none]
    intro name hname
    obtain ⟨k, hk, rfl⟩ := List.mem_map.mp hname
    have hkeyword := (List.mem_filter.mp hk).2
    obtain ⟨-, -, heq⟩ := Signature.shape_eq_ok hshape
    have hkeywords := congrArg CallShape.keywords heq
    dsimp only at hkeywords
    rw [hkeywords, List.contains_iff_mem, Names.mem_ofList] at hkeyword
    obtain ⟨q, hq, hqname⟩ := List.mem_map.mp hkeyword
    intro hfilled
    obtain ⟨p, hp, -, hpname⟩ := Signature.mem_filled.mp (List.contains_iff_mem.mp hfilled)
    exact wf.name_ne (List.mem_of_mem_take hp) hq (hpname.trans hqname.symm)

end CompiledRule

/-- When a table has accepted lexer arguments, the call of each of its actions binds and the body runs,
unless the action takes any keyword and gets one with the name of a parameter that the call fills by
position: then that parameter is given two values. Where no action takes any keyword, all calls bind. -/
theorem accepted_arguments_bind {t : RuleTable} (built : t.Built)
    (wf : ∀ r ∈ t.rules, r.action.signature.WellFormed) {context : Arguments}
    (hnames : (context.map (·.1)).Nodup)
    (haccepted : t.checkArguments (context.map (·.1)) = .ok ()) :
    (∀ r ∈ t.rules, ∀ text cursor span,
      (r.clash? context = none → ∃ b,
        r.action.signature.bind (r.positional text cursor span) (r.shape.select context) = .ok b ∧
        ∀ perform, r.invoke perform text cursor span context = (r.action.body b).run perform) ∧
      ∀ name, r.clash? context = some name →
        r.action.signature.bind (r.positional text cursor span) (r.shape.select context) =
          .error (.repeatedArgument name) ∧
        ∀ perform, r.invoke perform text cursor span context =
          throw (.call (.repeatedArgument name))) ∧
    (t.acceptsAnyArgument = false → ∀ r ∈ t.rules, r.clash? context = none) := by
  constructor
  · intro r hr text cursor span
    have hshape := built.shape hr
    have hlength : (r.positional text cursor span).length = r.shape.arity := by
      obtain ⟨hle, -, -⟩ := Signature.arity_fits hshape
      simp [CompiledRule.positional, hle]
    have hnodup : ((r.shape.select context).map (·.1)).Nodup :=
      ((CompiledRule.select_sublist r.shape context).map _).nodup hnames
    have hrequired : ∀ name ∈ r.shape.required, name ∈ (r.shape.select context).map (·.1) :=
      fun name hname => CompiledRule.mem_select_of_required hshape hname
        (RuleTable.mem_of_required haccepted hr hname)
    obtain ⟨herror, hok⟩ := Signature.bind_of_shape (wf r hr) hshape hlength hnodup hrequired
      (CompiledRule.known_of_select r.shape context)
    rw [CompiledRule.find?_filled_select (wf r hr) hshape] at herror hok
    constructor
    · intro hclash
      obtain ⟨b, hb⟩ := hok hclash
      refine ⟨b, hb, fun perform => ?_⟩
      unfold CompiledRule.invoke CompiledRule.script
      rw [hb]
      rfl
    · intro name hclash
      have hb := herror name hclash
      refine ⟨hb, fun perform => ?_⟩
      unfold CompiledRule.invoke CompiledRule.script
      rw [hb]
      rfl
  · intro hany r hr
    have hnot : r.shape.anyKeyword = false := by
      simp only [RuleTable.acceptsAnyArgument, List.any_eq_false, Bool.not_eq_true] at hany
      exact hany r hr
    simp [CompiledRule.clash?, hnot]

/-- Takes its text by a name that a keyword may have too, and any keyword. -/
def labelled : Action where
  display := "labelled"
  signature := [⟨.positional, "text", none⟩, ⟨.keywords, "labels", none⟩]
  body b := .done (.text b.text)

/-- Takes its text by position only, a scale by keyword, and the rest by default. -/
def scaled : Action where
  display := "scaled"
  signature := [⟨.positionalOnly, "text", none⟩, ⟨.positional, "base", some (.int 10)⟩,
    ⟨.keywordOnly, "scale", none⟩, ⟨.keywordOnly, "unit", some .null⟩]
  body b := .done (.text b.text)

def labelDeclarations : List Declaration :=
  [.rule (.kind .whitespace) (.action labelled), .rule (.kind .wildcard) (.action scaled)]

def labelTable : RuleTable :=
  ⟨[⟨0, .whitespace, labelled, ⟨1, [], [], true⟩⟩,
    ⟨1, .wildcard, scaled, ⟨1, ["scale", "unit"], ["scale"], false⟩⟩]⟩

/-- Both lexer arguments are accepted, and one of them is given to a parameter that has its value: the
calls of that action fail, and those of the other one bind. -/
theorem accepted_arguments_bind_labels :
    labelTable.Built ∧ (∀ r ∈ labelTable.rules, r.action.signature.WellFormed) ∧
    labelTable.checkArguments ["scale", "text"] = .ok () ∧
    (∀ r ∈ labelTable.rules, r.kind = .whitespace → ∀ perform text cursor span,
      r.invoke perform text cursor span [("scale", .int 2), ("text", .null)] =
        throw (.call (.repeatedArgument "text"))) ∧
    ∀ r ∈ labelTable.rules, r.kind = .wildcard → ∀ text cursor span, ∃ b,
      r.action.signature.bind (r.positional text cursor span)
        (r.shape.select [("scale", .int 2), ("text", .null)]) = .ok b := by
  have built : labelTable.Built := ⟨.bare, .declarations labelDeclarations, [], rfl⟩
  have wf : ∀ r ∈ labelTable.rules, r.action.signature.WellFormed := by decide
  have haccepted : labelTable.checkArguments ["scale", "text"] = .ok () := by decide
  have hnames : (([("scale", .int 2), ("text", .null)] : Arguments).map (·.1)).Nodup := by decide
  obtain ⟨hcalls, -⟩ := accepted_arguments_bind built wf hnames haccepted
  refine ⟨built, wf, haccepted, ?_, ?_⟩
  · intro r hr hkind perform text cursor span
    have hclash : r.clash? [("scale", .int 2), ("text", .null)] = some "text" := by
      simp only [labelTable, List.mem_cons, List.not_mem_nil, or_false] at hr
      rcases hr with rfl | rfl
      · decide
      · cases hkind
    exact ((hcalls r hr text cursor span).2 "text" hclash).2 perform
  · intro r hr hkind text cursor span
    have hclash : r.clash? [("scale", .int 2), ("text", .null)] = none := by
      simp only [labelTable, List.mem_cons, List.not_mem_nil, or_false] at hr
      rcases hr with rfl | rfl
      · cases hkind
      · decide
    obtain ⟨b, hb, -⟩ := (hcalls r hr text cursor span).1 hclash
    exact ⟨b, hb⟩

end FirstMatch
