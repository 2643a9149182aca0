import FirstMatch.Regex.Source
import Mathlib.Data.List.Forall2

/-!
What is asked of a tree before it becomes a program: its width, its first flaw, and whether it looks
back too far. Each is told from the parts, so none depends on which anchors a tree has, nor on how much
of its alternatives has been put in front of a choice.
-/

namespace FirstMatch.Regex

attribute [ext] Width

namespace Width

theorem zero_add (w : Width) : zero.add w = w := by
  have hleast := w.least_lt
  have hmost := w.most_le
  ext <;> simp only [add, cut, zero] <;> omega

theorem add_zero (w : Width) : w.add zero = w := by
  have hleast := w.least_lt
  have hmost := w.most_le
  ext <;> simp only [add, cut, zero] <;> omega

theorem add_assoc (u v w : Width) : (u.add v).add w = u.add (v.add w) := by
  ext <;> simp only [add, cut] <;> omega

theorem add_either (u v w : Width) : u.add (v.either w) = (u.add v).either (u.add w) := by
  ext <;> simp only [add, cut, either] <;> omega

theorem either_unreached (w : Width) : w.either unreached = w := by
  have hleast := w.least_lt
  ext <;> simp only [either, unreached] <;> omega

theorem either_self (w : Width) : w.either w = w := by
  ext <;> simp only [either] <;> omega

end Width

/-- Something told of a tree from its parts. What stands in sequence is added up, what is chosen between
is united; single characters are all the same. -/
structure Measure (M : Type) where
  of : Regex → M
  add : M → M → M
  unite : M → M → M
  single : M
  seq (r s : Regex) : of (.seq r s) = add (of r) (of s)
  alt (r s : Regex) : of (.alt r s) = unite (of r) (of s)
  char (n : Nat) (rule : CaseRule) : of (.char n rule) = single
  set (negated : Bool) (items : List SetItem) (rule : CaseRule) : of (.set negated items rule) = single
  empty_add (x : M) : add (of .empty) x = x
  add_empty (x : M) : add x (of .empty) = x
  add_assoc (x y z : M) : add (add x y) z = add x (add y z)
  add_unite (x y z : M) : add x (unite y z) = unite (add x y) (add x z)
  unite_never (x : M) : unite x (of .never) = x
  unite_self (x : M) : unite x x = x

namespace Measure

def width (groupWidth : Nat → Width) : Measure Width where
  of r := r.width groupWidth
  add := Width.add
  unite := Width.either
  single := .one
  seq _ _ := rfl
  alt _ _ := rfl
  char _ _ := rfl
  set _ _ _ := rfl
  empty_add := Width.zero_add
  add_empty := Width.add_zero
  add_assoc := Width.add_assoc
  add_unite := Width.add_either
  unite_never := Width.either_unreached
  unite_self := Width.either_self

def flaw (template : Bool) (groupWidth : Nat → Width) : Measure (Option Flaw) where
  of r := r.partFlaw? template groupWidth
  add := Option.or
  unite := Option.or
  single := none
  seq _ _ := rfl
  alt _ _ := rfl
  char _ _ := rfl
  set _ _ _ := rfl
  empty_add _ := Option.none_or
  add_empty _ := Option.or_none
  add_assoc _ _ _ := Option.or_assoc
  add_unite x y z := by cases x <;> rfl
  unite_never _ := Option.or_none
  unite_self x := by cases x <;> rfl

def far : Measure Bool where
  of := looksTooFar
  add := or
  unite := or
  single := false
  seq _ _ := rfl
  alt _ _ := rfl
  char _ _ := rfl
  set _ _ _ := rfl
  empty_add := Bool.false_or
  add_empty := Bool.or_false
  add_assoc := Bool.or_assoc
  add_unite := by decide
  unite_never := Bool.or_false
  unite_self := Bool.or_self

variable {M : Type} (m : Measure M)

theorem joined_cons (r : Regex) (rs : List Regex) :
    m.of (joined (r :: rs)) = m.add (m.of r) (m.of (joined rs)) := by
  cases rs with
  | nil => exact (m.add_empty _).symm
  | cons s rs => exact m.seq r _

theorem joined_append (rs ss : List Regex) :
    m.of (joined (rs ++ ss)) = m.add (m.of (joined rs)) (m.of (joined ss)) := by
  induction rs with
  | nil => exact (m.empty_add _).symm
  | cons r rs ih => rw [List.cons_append, m.joined_cons, m.joined_cons, ih, m.add_assoc]

/-- The measures of alternatives united. -/
def united (xs : List M) : M := xs.foldr m.unite (m.of .never)

theorem united_cons (x : M) (xs : List M) : m.united (x :: xs) = m.unite x (m.united xs) := rfl

theorem add_united (x : M) {ys : List M} (h : ys ≠ []) :
    m.add x (m.united ys) = m.united (ys.map (m.add x)) := by
  induction ys with
  | nil => exact absurd rfl h
  | cons y ys ih =>
    rw [List.map_cons, united_cons, united_cons]
    cases ys with
    | nil => exact (congrArg (m.add x) (m.unite_never y)).trans (m.unite_never _).symm
    | cons z zs => rw [m.add_unite, ih (List.cons_ne_nil z zs)]

theorem united_replicate (x : M) {n : Nat} (h : n ≠ 0) : m.united (List.replicate n x) = x := by
  induction n with
  | zero => exact absurd rfl h
  | succ n ih =>
    rw [List.replicate_succ, united_cons]
    cases n with
    | zero => exact m.unite_never x
    | succ n => rw [ih (Nat.succ_ne_zero n), m.unite_self]

theorem of_chain (rests : List (List Regex)) :
    m.of (rests.foldr (fun items chain => .alt (joined items) chain) .never) =
      m.united (rests.map fun items => m.of (joined items)) := by
  induction rests with
  | nil => rfl
  | cons items rests ih => rw [List.foldr_cons, m.alt, ih, List.map_cons, united_cons]

theorem of_members {items : List Regex} {members : List SetItem} (h : members? items = some members) :
    m.of (joined items) = m.single := by
  unfold members? at h
  split at h
  · exact m.char _ _
  · exact m.set _ _ _
  · cases h

theorem map_members {rests : List (List Regex)} {sets : List (List SetItem)}
    (h : rests.mapM members? = some sets) :
    (rests.map fun items => m.of (joined items)) = List.replicate rests.length m.single := by
  induction rests generalizing sets with
  | nil => rfl
  | cons items rests ih =>
    rw [List.mapM_cons] at h
    obtain ⟨members, hitems, h⟩ := Option.bind_eq_some_iff.mp h
    obtain ⟨others, hrests, -⟩ := Option.bind_eq_some_iff.mp h
    rw [List.map_cons, m.of_members hitems, ih hrests]
    rfl

/-- A choice is its alternatives united, whatever they have in common and whether or not it is a set. -/
theorem of_choice (rule : CaseRule) (first : List Regex) (others : List (List Regex)) :
    m.of (joined (choice rule first others)) =
      m.united ((first :: others).map fun items => m.of (joined items)) := by
  have hsplit := map_splitCommon first others
  have hne : (splitCommon first others).2 ≠ [] := by
    intro hnil
    rw [hnil] at hsplit
    cases hsplit
  have hunited : m.united ((first :: others).map fun items => m.of (joined items)) =
      m.add (m.of (joined (splitCommon first others).1))
        (m.united ((splitCommon first others).2.map fun items => m.of (joined items))) := by
    rw [m.add_united _ (by simpa using hne), ← hsplit, List.map_map, List.map_map]
    refine congrArg m.united (List.map_congr_left fun items _ => ?_)
    exact m.joined_append _ items
  rw [hunited]
  unfold choice
  dsimp only
  split
  · next sets hsets =>
    rw [m.joined_append, m.map_members hsets,
      m.united_replicate _ (mt List.length_eq_zero_iff.mp hne)]
    exact congrArg (m.add _) (m.set _ _ _)
  · rw [m.joined_append]
    exact congrArg (m.add _) (m.of_chain _)

end Measure

/-- Trees that become programs under the same conditions. -/
structure Alike (r s : Regex) : Prop where
  width (groupWidth : Nat → Width) : s.width groupWidth = r.width groupWidth
  flaw (template : Bool) (groupWidth : Nat → Width) :
    s.partFlaw? template groupWidth = r.partFlaw? template groupWidth
  far : s.looksTooFar = r.looksTooFar

namespace Alike

variable {r s r' s' : Regex}

theorem refl (r : Regex) : Alike r r := ⟨fun _ => rfl, fun _ _ => rfl, rfl⟩

theorem anchor (a b : Anchor) : Alike (.anchor a) (.anchor b) := ⟨fun _ => rfl, fun _ _ => rfl, rfl⟩

theorem loop (h : Alike r s) (pace : Pace) (least : Nat) (most : Option Nat) :
    Alike (.loop pace least most r) (.loop pace least most s) where
  width groupWidth := congrArg (Width.times · least most) (h.width groupWidth)
  flaw template groupWidth := by
    unfold partFlaw?
    rw [h.flaw]
  far := h.far

theorem group (h : Alike r s) (index : Nat) : Alike (.group index r) (.group index s) :=
  ⟨h.width, h.flaw, h.far⟩

theorem inScope (h : Alike r s) : Alike (.scoped r) (.scoped s) := ⟨h.width, h.flaw, h.far⟩

theorem atomic (h : Alike r s) : Alike (.atomic r) (.atomic s) := ⟨h.width, h.flaw, h.far⟩

theorem ahead (h : Alike r s) (negated : Bool) : Alike (.ahead negated r) (.ahead negated s) :=
  ⟨fun _ => rfl, h.flaw, h.far⟩

theorem behind (h : Alike r s) (negated : Bool) (width : Nat) :
    Alike (.behind negated width r) (.behind negated width s) where
  width _ := rfl
  flaw template groupWidth := by
    unfold partFlaw?
    rw [h.width, h.flaw]
  far := congrArg (decide (lookbehindLimit ≤ width) || ·) h.far

theorem ifGroup (hyes : Alike r s) (hno : Alike r' s') (index : Nat) :
    Alike (.ifGroup index r r') (.ifGroup index s s') where
  width groupWidth := congrArg₂ Width.either (hyes.width groupWidth) (hno.width groupWidth)
  flaw template groupWidth :=
    congrArg₂ Option.or (hyes.flaw template groupWidth) (hno.flaw template groupWidth)
  far := congrArg₂ or hyes.far hno.far

/-- The programs differ in their trees only, and there is one on both sides or on neither. -/
theorem program (h : Alike r s) (t : State) :
    s.program t = (r.program t).map fun p => { p with tree := s } := by
  unfold Regex.program
  dsimp only
  rw [h.flaw, h.far, h.width]
  cases r.partFlaw? (t.flags.contains .template) fun i => (t.groupWidth i).getD .zero with
  | some flaw => rfl
  | none =>
    dsimp only
    split <;> rfl

end Alike

/-- Items that are alike put together. -/
def AlikeItems (rs ss : List Regex) : Prop := Alike (joined rs) (joined ss)

namespace AlikeItems

variable {rs ss rs' ss' : List Regex}

theorem refl (rs : List Regex) : AlikeItems rs rs := Alike.refl _

theorem append (h : AlikeItems rs ss) (h' : AlikeItems rs' ss') :
    AlikeItems (rs ++ rs') (ss ++ ss') := by
  have heq {M : Type} (m : Measure M) (hm : m.of (joined ss) = m.of (joined rs))
      (hm' : m.of (joined ss') = m.of (joined rs')) :
      m.of (joined (ss ++ ss')) = m.of (joined (rs ++ rs')) := by
    rw [m.joined_append, m.joined_append, hm, hm']
  exact ⟨fun groupWidth => heq (.width groupWidth) (h.width groupWidth) (h'.width groupWidth),
    fun template groupWidth =>
      heq (.flaw template groupWidth) (h.flaw template groupWidth) (h'.flaw template groupWidth),
    heq .far h.far h'.far⟩

/-- Choices between alternatives that are alike. -/
theorem choice {others others' : List (List Regex)} (h : AlikeItems rs ss)
    (hothers : List.Forall₂ AlikeItems others others') (rule : CaseRule) :
    AlikeItems (Regex.choice rule rs others) (Regex.choice rule ss others') := by
  have heq {M : Type} (m : Measure M)
      (hm : ∀ as bs, AlikeItems as bs → m.of (joined bs) = m.of (joined as)) :
      m.of (joined (Regex.choice rule ss others')) = m.of (joined (Regex.choice rule rs others)) := by
    rw [m.of_choice, m.of_choice, List.map_cons, List.map_cons, hm _ _ h]
    refine congrArg (fun xs => m.united (_ :: xs)) ?_
    induction hothers with
    | nil => rfl
    | cons hitems _ ih => rw [List.map_cons, List.map_cons, hm _ _ hitems, ih]
  exact ⟨fun groupWidth => heq (.width groupWidth) fun _ _ hitems => hitems.width groupWidth,
    fun template groupWidth =>
      heq (.flaw template groupWidth) fun _ _ hitems => hitems.flaw template groupWidth,
    heq .far fun _ _ hitems => hitems.far⟩

end AlikeItems

end FirstMatch.Regex
