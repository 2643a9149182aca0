import FirstMatch.Proofs.CallBinding

/-!
Which calls an action takes. Whether a call binds is a matter of how many positional arguments it has and
of the names of its keywords. An action is refused just if it takes none of the calls with one to three
positional arguments, and the shape that is read off the signature of any other one tells what it takes.
-/

namespace FirstMatch

namespace Signature

/-- The names of the keyword-only parameters. -/
def keywordNames (s : Signature) : List String := s.keywordOnly.map (·.name)

/-- The names of the keyword-only parameters that need a value. -/
def requiredNames (s : Signature) : List String :=
  (s.keywordOnly.filter fun p => p.default.isNone).map (·.name)

/-- How many positional parameters need a value. -/
def needed (s : Signature) : Nat := (s.fixed.filter fun p => p.default.isNone).length

/-- Positional arguments of this number give each parameter a value that needs one, and there is a
parameter for each of them. -/
def Fits (s : Signature) (n : Nat) : Prop :=
  s.needed ≤ n ∧ (s.hasKind .variadic = true ∨ n ≤ s.fixed.length)

/-- Some call with this number of positional arguments, and with just the required keywords, binds. -/
def Takes (s : Signature) (n : Nat) : Prop :=
  ∃ vs keywords, vs.length = n ∧ (keywords.map (·.1)).Perm s.requiredNames ∧
    ∃ b, s.bind vs keywords = .ok b

/-- A keyword of this name has a parameter to go to, among the keyword-only ones or for further keywords. -/
def Knows (s : Signature) (takesOthers : Bool) (name : String) : Prop :=
  takesOthers = true ∨ name ∈ s.keywordNames

/-- No keyword names a parameter that positional arguments may fill. -/
def Avoids (s : Signature) (names : List String) : Prop :=
  ∀ p ∈ s.fixed, p.kind = .positional → p.name ∉ names

variable {s : Signature}

/-- If all parameters behind the first `n` have defaults, no more than `n` need a value. -/
theorem needed_le_of_default {ps : List Parameter} {n : Nat}
    (h : ∀ p ∈ ps.drop n, p.default.isSome) : (ps.filter fun p => p.default.isNone).length ≤ n := by
  have hnone : (ps.drop n).filter (fun p => p.default.isNone) = [] := by
    rw [List.filter_eq_nil_iff]
    intro p hp
    simpa [Option.isSome_iff_ne_none] using h p hp
  have hsplit : ps.filter (fun p => p.default.isNone) =
      (ps.take n).filter (fun p => p.default.isNone) := by
    conv_lhs => rw [← List.take_append_drop n ps]
    rw [List.filter_append, hnone, List.append_nil]
  rw [hsplit]
  exact Nat.le_trans (List.length_filter_le _ _) (List.length_take_le _ _)

theorem missing_eq_nil_iff {slots : List Slot} :
    missing slots = [] ↔ ∀ slot ∈ slots, slot.value?.isSome := by
  simp [missing, Option.isSome_iff_ne_none]

/-- The parameters behind the last argument. -/
theorem exists_slot_of_mem_drop {ps : List Parameter} {vs : List Value} {p : Parameter}
    (h : p ∈ ps.drop vs.length) : ∃ slot ∈ fill ps vs, slot.value = none ∧ slot.parameter = p := by
  induction ps generalizing vs with
  | nil => simp at h
  | cons q ps ih =>
    cases vs with
    | nil =>
      rcases List.mem_cons.mp h with rfl | hp
      · exact ⟨⟨p, none⟩, by simp [fill], rfl, rfl⟩
      · have hp : p ∈ ps.drop ([] : List Value).length := by simpa using hp
        obtain ⟨slot, hslot, hvalue⟩ := ih hp
        exact ⟨slot, by simp [fill, hslot], hvalue⟩
    | cons v vs =>
      obtain ⟨slot, hslot, hvalue⟩ := ih (by simpa using h)
      exact ⟨slot, by simp [fill, hslot], hvalue⟩

theorem WellFormed.missing_fill (wf : s.WellFormed) (vs : List Value) :
    missing (fill s.fixed vs) = [] ↔ s.needed ≤ vs.length := by
  rw [missing_eq_nil_iff]
  constructor
  · intro h
    apply needed_le_of_default
    intro p hp
    obtain ⟨slot, hslot, hvalue, rfl⟩ := exists_slot_of_mem_drop hp
    simpa [Slot.value?, hvalue] using h slot hslot
  · intro h slot hslot
    rcases value_of_mem_fill hslot with ⟨hvalue, -⟩ | ⟨hvalue, hp⟩
    · simp [Slot.value?, hvalue]
    · simpa [Slot.value?, hvalue] using default_of_mem_drop wf.defaults h _ hp

/-- A call whose keywords leave the positional parameters alone: those that have been bound so far gave a
value to just the keyword-only parameters of their names. -/
structure Supplied (s : Signature) (slots : List Slot) (given : List String) (f : Filling) : Prop where
  fixed_eq : f.fixed = slots
  keywordOnly_eq : f.keywordOnly.map (·.parameter) = s.keywordOnly
  value_iff : ∀ slot ∈ f.keywordOnly, slot.value.isSome ↔ slot.parameter.name ∈ given

namespace Supplied

variable {slots : List Slot} {given : List String} {f : Filling} {k : String × Value} {ks : Arguments}

theorem mem_keywordOnly (h : Supplied s slots given f) {slot : Slot} (hslot : slot ∈ f.keywordOnly) :
    slot.parameter ∈ s.keywordOnly := by
  rw [← h.keywordOnly_eq]
  exact List.mem_map_of_mem hslot

theorem exists_slot (h : Supplied s slots given f) {name : String} (hname : name ∈ s.keywordNames) :
    ∃ slot ∈ f.keywordOnly, slot.parameter.name = name := by
  rw [keywordNames, ← h.keywordOnly_eq, List.map_map] at hname
  exact List.mem_map.mp hname

theorem bindKeyword_eq (h : Supplied s slots given f)
    (hother : ∀ slot ∈ slots, slot.parameter.name = k.1 → slot.parameter.kind = .positionalOnly)
    (takesOthers : Bool) :
    bindKeyword takesOthers f k =
      match give k.1 k.2 f.keywordOnly with
      | some r => r.map fun slots => { f with keywordOnly := slots }
      | none =>
        if takesOthers then .ok { f with others := f.others ++ [k] }
        else .error (.unexpectedKeyword k.1) := by
  have hfixed : give k.1 k.2 f.fixed = none := by
    rw [h.fixed_eq]
    exact give_of_not_named hother k.2
  cases hkeyword : give k.1 k.2 f.keywordOnly <;> simp [bindKeyword, hfixed, hkeyword]

/-- A keyword that names a keyword-only parameter gives it a value. -/
theorem named (h : Supplied s slots given f) (wf : s.WellFormed)
    (hother : ∀ slot ∈ slots, slot.parameter.name = k.1 → slot.parameter.kind = .positionalOnly)
    (hnew : k.1 ∉ given) (hname : k.1 ∈ s.keywordNames) (takesOthers : Bool) :
    ∃ g, bindKeyword takesOthers f k = .ok g ∧ Supplied s slots (given ++ [k.1]) g := by
  obtain ⟨slot, hslot, heq⟩ := h.exists_slot hname
  have hkind : slot.parameter.kind ≠ .positionalOnly := by
    simp [(Signature.mem_keywordOnly.mp (h.mem_keywordOnly hslot)).2]
  have hnodup : (f.keywordOnly.map (·.parameter.name)).Nodup := by
    have hnames := wf.nodup_keywordOnly
    rwa [← h.keywordOnly_eq, List.map_map] at hnames
  have hvalue : ¬slot.value.isSome := by
    rw [h.value_iff slot hslot, heq]
    exact hnew
  refine ⟨{ f with keywordOnly := f.keywordOnly.map (supplied k.1 k.2) }, ?_, h.fixed_eq, ?_, ?_⟩
  · rw [h.bindKeyword_eq hother, give_of_named hslot heq hkind hnodup, if_neg hvalue]
    rfl
  · rw [parameters_supplied]
    exact h.keywordOnly_eq
  · intro other hmem
    obtain ⟨before, hbefore, rfl⟩ := List.mem_map.mp hmem
    rw [parameter_supplied, List.mem_append, List.mem_singleton]
    by_cases hsame : before.parameter.name = k.1
    · simp [supplied, hsame]
    · rw [supplied_of_ne hsame, h.value_iff before hbefore]
      simp [hsame]

theorem give_eq_none (h : Supplied s slots given f) (hname : k.1 ∉ s.keywordNames) :
    give k.1 k.2 f.keywordOnly = none := by
  apply give_of_not_named
  intro slot hslot heq
  exact absurd (heq ▸ List.mem_map_of_mem (h.mem_keywordOnly hslot)) hname

/-- A keyword that names none goes to the further keywords, if they are taken. -/
theorem unnamed (h : Supplied s slots given f)
    (hother : ∀ slot ∈ slots, slot.parameter.name = k.1 → slot.parameter.kind = .positionalOnly)
    (hname : k.1 ∉ s.keywordNames) :
    ∃ g, bindKeyword true f k = .ok g ∧ Supplied s slots (given ++ [k.1]) g := by
  refine ⟨{ f with others := f.others ++ [k] }, ?_, h.fixed_eq, h.keywordOnly_eq, ?_⟩
  · simp [h.bindKeyword_eq hother, h.give_eq_none hname]
  · intro slot hslot
    have hne : slot.parameter.name ≠ k.1 := by
      intro heq
      exact hname (heq ▸ List.mem_map_of_mem (h.mem_keywordOnly hslot))
    rw [h.value_iff slot hslot]
    simp [hne]

theorem refused (h : Supplied s slots given f)
    (hother : ∀ slot ∈ slots, slot.parameter.name = k.1 → slot.parameter.kind = .positionalOnly)
    (hname : k.1 ∉ s.keywordNames) :
    bindKeyword false f k = .error (.unexpectedKeyword k.1) := by
  simp [h.bindKeyword_eq hother, h.give_eq_none hname]

/-- A keyword is bound just if it has a parameter to go to. -/
theorem bound_or_refused (h : Supplied s slots given f) (wf : s.WellFormed)
    (hother : ∀ slot ∈ slots, slot.parameter.name = k.1 → slot.parameter.kind = .positionalOnly)
    (hnew : k.1 ∉ given) (takesOthers : Bool) :
    s.Knows takesOthers k.1 ∧
        (∃ g, bindKeyword takesOthers f k = .ok g ∧ Supplied s slots (given ++ [k.1]) g) ∨
      ¬s.Knows takesOthers k.1 ∧ ∃ flaw, bindKeyword takesOthers f k = .error flaw := by
  by_cases hname : k.1 ∈ s.keywordNames
  · exact .inl ⟨.inr hname, h.named wf hother hnew hname takesOthers⟩
  · cases takesOthers with
    | true => exact .inl ⟨.inl rfl, h.unnamed hother hname⟩
    | false => exact .inr ⟨by simp [Knows, hname], _, h.refused hother hname⟩

/-- Keywords are all bound just if each of them has a parameter to go to. -/
theorem foldlM (h : Supplied s slots given f) (wf : s.WellFormed) (hnodup : (ks.map (·.1)).Nodup)
    (hnew : ∀ k ∈ ks, k.1 ∉ given)
    (hother : ∀ k ∈ ks, ∀ slot ∈ slots,
      slot.parameter.name = k.1 → slot.parameter.kind = .positionalOnly) (takesOthers : Bool) :
    (∀ k ∈ ks, s.Knows takesOthers k.1) ∧
        (∃ g, ks.foldlM (bindKeyword takesOthers) f = .ok g ∧
          Supplied s slots (given ++ ks.map (·.1)) g) ∨
      (¬∀ k ∈ ks, s.Knows takesOthers k.1) ∧
        ∃ flaw, ks.foldlM (bindKeyword takesOthers) f = .error flaw := by
  induction ks generalizing f given with
  | nil =>
    left
    exact ⟨by simp, f, rfl, by simpa using h⟩
  | cons k ks ih =>
    obtain ⟨hk, hks⟩ := List.forall_mem_cons.mp hother
    obtain ⟨hnewk, hnewks⟩ := List.forall_mem_cons.mp hnew
    obtain ⟨hlater, hnodup⟩ := List.nodup_cons.mp hnodup
    rw [List.forall_mem_cons, List.foldlM_cons]
    rcases h.bound_or_refused wf hk hnewk takesOthers with
      ⟨hknown, g, hg, hsupplied⟩ | ⟨hunknown, flaw, hflaw⟩
    · have hnew' : ∀ j ∈ ks, j.1 ∉ given ++ [k.1] := by
        intro j hj hmem
        rcases List.mem_append.mp hmem with hmem | hmem
        · exact hnewks j hj hmem
        · rw [List.mem_singleton] at hmem
          exact hlater (List.mem_map.mpr ⟨j, hj, hmem⟩)
      rw [hg]
      rcases ih hsupplied hnodup hnew' hks with ⟨hall, g', hg', hdone⟩ | ⟨hsome, hfails⟩
      · left
        exact ⟨⟨hknown, hall⟩, g', hg', by simpa using hdone⟩
      · right
        exact ⟨fun hboth => hsome hboth.2, hfails⟩
    · right
      rw [hflaw]
      exact ⟨fun hboth => hunknown hboth.1, flaw, rfl⟩

/-- The parameters that need a value have one just if their keywords were given. -/
theorem missing_keywordOnly (h : Supplied s slots given f) :
    missing f.keywordOnly = [] ↔ ∀ name ∈ s.requiredNames, name ∈ given := by
  rw [missing_eq_nil_iff, requiredNames, ← h.keywordOnly_eq]
  constructor
  · intro hall name hname
    obtain ⟨p, hp, rfl⟩ := List.mem_map.mp hname
    obtain ⟨hp, hdefault⟩ := List.mem_filter.mp hp
    obtain ⟨slot, hslot, rfl⟩ := List.mem_map.mp hp
    rw [← h.value_iff slot hslot]
    have hvalue := hall slot hslot
    simpa [Slot.value?, Option.isNone_iff_eq_none.mp hdefault] using hvalue
  · intro hall slot hslot
    cases hdefault : slot.parameter.default with
    | some v => simp [Slot.value?, hdefault]
    | none =>
      have hvalue : slot.value.isSome := by
        rw [h.value_iff slot hslot]
        apply hall
        apply List.mem_map_of_mem
        simp [List.mem_map_of_mem hslot, hdefault]
      simp [Slot.value?, hvalue]

end Supplied

/-- A call whose keywords leave the positional parameters alone binds just if its positional arguments fit,
the keywords that are required are there, and each keyword has a parameter to go to. -/
theorem binds_iff (wf : s.WellFormed) {vs : List Value} {keywords : Arguments}
    (hnodup : (keywords.map (·.1)).Nodup) (havoids : s.Avoids (keywords.map (·.1))) :
    (∃ b, s.bind vs keywords = .ok b) ↔
      s.Fits vs.length ∧ (∀ name ∈ s.requiredNames, name ∈ keywords.map (·.1)) ∧
        ∀ k ∈ keywords, s.Knows (s.hasKind .keywords) k.1 := by
  have hother : ∀ k ∈ keywords, ∀ slot ∈ fill s.fixed vs,
      slot.parameter.name = k.1 → slot.parameter.kind = .positionalOnly := by
    intro k hk slot hslot hname
    have hp : slot.parameter ∈ s.fixed := by
      rw [← parameters_fill s.fixed vs]
      exact List.mem_map_of_mem hslot
    apply (mem_fixed.mp hp).2.resolve_right
    intro hkind
    exact havoids _ hp hkind (hname ▸ List.mem_map_of_mem hk)
  have hstart : Supplied s (fill s.fixed vs) [] ⟨fill s.fixed vs, fill s.keywordOnly [], []⟩ := by
    refine ⟨rfl, parameters_fill _ _, fun slot hslot => ?_⟩
    have hnone : slot.value = none ∧ slot.parameter ∈ s.keywordOnly := by
      simpa using value_of_mem_fill hslot
    simp [hnone.1]
  unfold Signature.bind
  rcases hstart.foldlM wf hnodup (by simp) hother (s.hasKind .keywords) with
    ⟨hknown, g, hg, hdone⟩ | ⟨hunknown, flaw, hflaw⟩
  · have hfixed := wf.missing_fill vs
    rw [← hdone.fixed_eq] at hfixed
    have hkeywordOnly := hdone.missing_keywordOnly
    rw [List.nil_append] at hkeywordOnly
    have hroom : (!(vs.drop s.fixed.length).isEmpty && !s.hasKind .variadic) = false ↔
        s.hasKind .variadic = true ∨ vs.length ≤ s.fixed.length := by
      cases s.hasKind .variadic <;> simp
    simp only [hg, Bind.bind, Except.bind]
    constructor
    · rintro ⟨b, hb⟩
      split at hb
      · cases hb
      · next hextra =>
        split at hb
        · cases hb
        · next hpositional =>
          split at hb
          · cases hb
          · next hkeyword =>
            rw [Bool.not_eq_true] at hextra
            exact ⟨⟨hfixed.mp (not_not.mp hpositional), hroom.mp hextra⟩,
              hkeywordOnly.mp (not_not.mp hkeyword), hknown⟩
    · rintro ⟨⟨hneeded, hfits⟩, hrequired, -⟩
      rw [hroom.mpr hfits, hfixed.mpr hneeded, hkeywordOnly.mpr hrequired]
      exact ⟨_, rfl⟩
  · simp only [hflaw, Bind.bind, Except.bind]
    constructor
    · rintro ⟨b, hb⟩
      cases hb
    · rintro ⟨-, -, hknown⟩
      exact absurd hknown hunknown

theorem WellFormed.nodup_requiredNames (wf : s.WellFormed) : s.requiredNames.Nodup :=
  (List.filter_sublist.map _).nodup wf.nodup_keywordOnly

theorem mem_keywordNames_of_required {name : String} (h : name ∈ s.requiredNames) :
    name ∈ s.keywordNames :=
  (List.filter_sublist.map _).mem h

theorem WellFormed.avoids (wf : s.WellFormed) {names : List String}
    (h : ∀ name ∈ names, name ∈ s.keywordNames) : s.Avoids names := by
  intro p hp _ hname
  obtain ⟨q, hq, heq⟩ := List.mem_map.mp (h _ hname)
  exact wf.name_ne hp hq heq.symm

/-- The values of a call do not matter: all least calls with as many arguments bind, or none does. -/
theorem WellFormed.takes_iff (wf : s.WellFormed) (n : Nat) : s.Takes n ↔ s.Fits n := by
  have hbinds {vs : List Value} {keywords : Arguments}
      (hperm : (keywords.map (·.1)).Perm s.requiredNames) :
      (∃ b, s.bind vs keywords = .ok b) ↔ s.Fits vs.length := by
    have hnames : ∀ name ∈ keywords.map (·.1), name ∈ s.keywordNames :=
      fun name hname => mem_keywordNames_of_required (hperm.mem_iff.mp hname)
    rw [binds_iff wf (hperm.nodup_iff.mpr wf.nodup_requiredNames) (wf.avoids hnames)]
    constructor
    · exact fun h => h.1
    · intro h
      exact ⟨h, fun name hname => hperm.mem_iff.mpr hname,
        fun k hk => .inr (hnames _ (List.mem_map_of_mem hk))⟩
  constructor
  · rintro ⟨vs, keywords, rfl, hperm, hb⟩
    exact (hbinds hperm).mp hb
  · intro h
    have hperm : ((s.requiredNames.map fun name => (name, Value.null)).map (·.1)).Perm
        s.requiredNames := by
      simp [Function.comp_def]
    refine ⟨List.replicate n .null, _, List.length_replicate, hperm, (hbinds hperm).mpr ?_⟩
    rwa [List.length_replicate]

variable {shown : String} {shape : CallShape}

/-- The signatures from which no call shape is made. -/
theorem shape_eq_error_iff (shown : String) : (∃ flaw, s.shape shown = .error flaw) ↔
    s.fixed = [] ∧ s.hasKind .variadic = false ∨ 3 < s.needed := by
  have hnone : (s.fixed.isEmpty && !s.hasKind .variadic) = true ↔
      s.fixed = [] ∧ s.hasKind .variadic = false := by
    simp
  rw [← hnone]
  unfold Signature.shape needed
  dsimp only
  split
  · next h => simp [h]
  · next h =>
    split
    · next hmany => simp [hmany]
    · next hfew =>
      rw [or_iff_left hfew]
      simp [h]

theorem needed_le (s : Signature) : s.needed ≤ s.fixed.length := List.length_filter_le _ _

/-- There is a call with one to three positional arguments just if the first of them has a parameter and no
more than three are needed. -/
theorem exists_fits_iff : (∃ n, 1 ≤ n ∧ n ≤ 3 ∧ s.Fits n) ↔
    ¬(s.fixed = [] ∧ s.hasKind .variadic = false ∨ 3 < s.needed) := by
  have hle := s.needed_le
  have hempty : s.fixed = [] ↔ s.fixed.length = 0 := List.length_eq_zero_iff.symm
  rw [hempty]
  unfold Fits
  constructor
  · rintro ⟨n, hpos, hthree, hneeded, hroom⟩ (⟨hnone, hvariadic⟩ | hmany)
    · rw [hvariadic] at hroom
      simp only [Bool.false_eq_true, false_or] at hroom
      omega
    · omega
  · intro h
    cases hvariadic : s.hasKind .variadic with
    | true => exact ⟨3, by omega, by omega, by omega, .inl rfl⟩
    | false =>
      simp only [hvariadic, and_true, not_or] at h
      exact ⟨max s.needed 1, by omega, by omega, by omega, .inr (by omega)⟩

/-- The number of positional arguments of a call by the shape: three if there may be any number of them, else
the least number that there can be. -/
theorem fits_arity (h : s.shape shown = .ok shape) :
    1 ≤ shape.arity ∧ s.Fits shape.arity ∧ (s.hasKind .variadic = true → shape.arity = 3) ∧
      (s.hasKind .variadic = false → ∀ n, 1 ≤ n → s.Fits n → shape.arity ≤ n) := by
  obtain ⟨hle, hneeded, hroom⟩ := arity_fits h
  obtain ⟨-, -, heq⟩ := shape_eq_ok h
  have harity : shape.arity = if s.hasKind .variadic = true then 3 else max s.needed 1 :=
    congrArg CallShape.arity heq
  refine ⟨?_, ⟨hneeded, hroom⟩, fun hvariadic => ?_, fun hvariadic n hpos hfits => ?_⟩
  · rw [harity]
    split <;> omega
  · rw [harity, if_pos hvariadic]
  · have hmost := hfits.1
    rw [harity, hvariadic]
    simp only [Bool.false_eq_true, ↓reduceIte]
    omega

/-- The names in a shape. -/
theorem names_of_shape (h : s.shape shown = .ok shape) :
    (∀ name, name ∈ shape.required ↔ name ∈ s.requiredNames) ∧
      (∀ name, name ∈ shape.keywords ↔ name ∈ s.keywordNames) ∧
      shape.anyKeyword = s.hasKind .keywords := by
  obtain ⟨-, -, rfl⟩ := shape_eq_ok h
  exact ⟨fun _ => Names.mem_ofList, fun _ => Names.mem_ofList, rfl⟩

/-- With the number of positional arguments that the shape has, only the keywords matter. -/
theorem binds_iff_of_shape (wf : s.WellFormed) (h : s.shape shown = .ok shape) {vs : List Value}
    {keywords : Arguments} (hvs : vs.length = shape.arity) (hnodup : (keywords.map (·.1)).Nodup)
    (havoids : s.Avoids (keywords.map (·.1))) :
    (∃ b, s.bind vs keywords = .ok b) ↔
      (∀ name ∈ shape.required, name ∈ keywords.map (·.1)) ∧
        (shape.anyKeyword = true ∨ ∀ name ∈ keywords.map (·.1), name ∈ shape.keywords) := by
  obtain ⟨-, hfits, -⟩ := fits_arity h
  obtain ⟨hrequired, hkeywords, hany⟩ := names_of_shape h
  have hknows : (∀ k ∈ keywords, s.Knows (s.hasKind .keywords) k.1) ↔
      shape.anyKeyword = true ∨ ∀ name ∈ keywords.map (·.1), name ∈ shape.keywords := by
    simp only [Knows, hany, hkeywords, List.forall_mem_map, ← forall_or_left]
  rw [binds_iff wf hnodup havoids, hvs, hknows]
  simp only [hfits, hrequired, true_and]

end Signature

/-- An action is refused just if no call binds that has one to three positional arguments and the keywords
that are required. The shape of any other one has such a number: three if the action takes further positional
arguments, else the least. With so many of them, and keywords that leave the positional parameters alone, a
call binds just if the required keywords are there, and no others but those taken. -/
theorem shape_tells_calls {a : Action} (wf : a.signature.WellFormed) :
    ((∃ flaw, (Handler.action a).callShape = .error flaw) ↔
      ¬∃ n, 1 ≤ n ∧ n ≤ 3 ∧ a.signature.Takes n) ∧
    ∀ b shape, (Handler.action a).callShape = .ok (b, shape) →
      b = a ∧ 1 ≤ shape.arity ∧ shape.arity ≤ 3 ∧ a.signature.Takes shape.arity ∧
      (a.signature.hasKind .variadic = true → shape.arity = 3) ∧
      (a.signature.hasKind .variadic = false →
        ∀ n, 1 ≤ n → a.signature.Takes n → shape.arity ≤ n) ∧
      ∀ vs keywords, vs.length = shape.arity → (keywords.map (·.1)).Nodup →
        a.signature.Avoids (keywords.map (·.1)) →
        ((∃ bound, a.signature.bind vs keywords = .ok bound) ↔
          (∀ name ∈ shape.required, name ∈ keywords.map (·.1)) ∧
          (shape.anyKeyword = true ∨ ∀ name ∈ keywords.map (·.1), name ∈ shape.keywords)) := by
  simp only [Handler.callShape, wf.takes_iff]
  constructor
  · rw [Signature.exists_fits_iff, not_not, ← Signature.shape_eq_error_iff a.display]
    cases a.signature.shape a.display <;> simp [Except.map]
  · intro b shape h
    cases hshape : a.signature.shape a.display with
    | error flaw =>
      rw [hshape] at h
      cases h
    | ok made =>
      rw [hshape] at h
      cases h
      obtain ⟨hpos, hfits, hvariadic, hleast⟩ := Signature.fits_arity hshape
      obtain ⟨hthree, -, -⟩ := Signature.arity_fits hshape
      exact ⟨rfl, hpos, hthree, hfits, hvariadic, hleast,
        fun vs keywords => Signature.binds_iff_of_shape wf hshape⟩

/-- Takes its text by position only, any further arguments, and any keyword. -/
def gathered : Action where
  display := "gathered"
  signature := [⟨.positionalOnly, "text", none⟩, ⟨.variadic, "rest", none⟩, ⟨.keywords, "names", none⟩]
  body b := .done (.text b.text)

/-- Needs four arguments and takes more. -/
def crowded : Action where
  display := "crowded"
  signature := [⟨.positional, "text", none⟩, ⟨.positional, "cursor", none⟩, ⟨.positional, "span", none⟩,
    ⟨.positional, "more", none⟩, ⟨.variadic, "rest", none⟩]
  body b := .done (.text b.text)

/-- One action is called with its text and a keyword that it requires, one with three arguments, and also
with a keyword that has the name of its first parameter, and one cannot be called. -/
theorem shape_tells_calls_gathered :
    scaled.signature.WellFormed ∧ gathered.signature.WellFormed ∧ crowded.signature.WellFormed ∧
    (∃ b, scaled.signature.bind [.null] [("scale", .null)] = .ok b) ∧
    (¬∃ b, scaled.signature.bind [.null] [("unit", .null)] = .ok b) ∧
    (∃ b, gathered.signature.bind [.null, .null, .null] [("text", .null)] = .ok b) ∧
    ¬∃ n, 1 ≤ n ∧ n ≤ 3 ∧ crowded.signature.Takes n := by
  have hscaled : scaled.signature.WellFormed := by decide
  have hgathered : gathered.signature.WellFormed := by decide
  have hcrowded : crowded.signature.WellFormed := by decide
  obtain ⟨-, -, -, -, -, -, hscales⟩ :=
    (shape_tells_calls hscaled).2 scaled ⟨1, ["scale", "unit"], ["scale"], false⟩ rfl
  obtain ⟨-, -, -, -, -, -, hgathers⟩ :=
    (shape_tells_calls hgathered).2 gathered ⟨3, [], [], true⟩ rfl
  have havoids : scaled.signature.Avoids ["scale"] ∧ scaled.signature.Avoids ["unit"] ∧
      gathered.signature.Avoids ["text"] := by
    unfold Signature.Avoids
    decide
  refine ⟨hscaled, hgathered, hcrowded, ?_, ?_, ?_, ?_⟩
  · exact (hscales [.null] [("scale", .null)] rfl (by decide) havoids.1).mpr (by decide)
  · rw [hscales [.null] [("unit", .null)] rfl (by decide) havoids.2.1]
    decide
  · exact (hgathers [.null, .null, .null] [("text", .null)] rfl (by decide) havoids.2.2).mpr (by decide)
  · exact (shape_tells_calls hcrowded).1.mp ⟨.takesTooMuch "crowded" 4, rfl⟩

end FirstMatch
