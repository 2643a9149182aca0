import FirstMatch.Proofs.AlikeTrees
import FirstMatch.Proofs.PairedReaders

/-!
What a dollar means makes no difference to how a source is read. With either meaning the same tokens are
read and the same dollars noted, and the trees are alike.
-/

namespace FirstMatch.Regex

variable {α β γ δ : Type}

/-- Results that came with the same state and the same dollars, or the same flaw. -/
inductive Parallel (R : α → β → Prop) : Noted (α × State) → Noted (β × State) → Prop
  | refused (flaw : Flaw) : Parallel R (.error flaw) (.error flaw)
  | read {a : α} {b : β} (related : R a b) (s : State) (ds : List Dollar) :
      Parallel R (.ok ((a, s), ds)) (.ok ((b, s), ds))

/-- Two readers that read alike from every state. -/
def Together (R : α → β → Prop) (f : Reader α) (g : Reader β) : Prop := ∀ s, Parallel R (f s) (g s)

section

variable {R : α → β → Prop} {S : γ → δ → Prop}

theorem together_refl (f : Reader α) : Together Eq f f := by
  intro s
  cases f s with
  | error flaw => exact .refused flaw
  | ok p => exact .read rfl p.1.2 p.2

theorem together_pure {a : α} {b : β} (h : R a b) : Together R (pure a) (pure b) :=
  fun s => .read h s []

theorem together_throw (flaw : Flaw) :
    Together R (throw flaw : Reader α) (throw flaw : Reader β) := fun _ => .refused flaw

theorem together_failAt (p : Problem) (n : Nat) :
    Together R (Reader.failAt p n : Reader α) (Reader.failAt p n : Reader β) := together_throw _

theorem together_failBack (p : Problem) (n : Nat) :
    Together R (Reader.failBack p n : Reader α) (Reader.failBack p n : Reader β) :=
  fun _ => .refused _

theorem together_bind {f : Reader α} {g : Reader β} {k : α → Reader γ} {l : β → Reader δ}
    (h : Together R f g) (hk : ∀ a b, R a b → Together S (k a) (l b)) :
    Together S (f >>= k) (g >>= l) := by
  intro s
  rw [Reader.bind_apply, Reader.bind_apply]
  have hfirst := h s
  generalize f s = x, g s = y at hfirst
  cases hfirst with
  | refused flaw => exact .refused flaw
  | @read a b related t before =>
    have hsecond := hk a b related t
    dsimp only
    generalize k a t = x, l b t = y at hsecond
    cases hsecond with
    | refused flaw => exact .refused flaw
    | read related u after => exact .read related u (before ++ after)

/-- The same reader first, and then two that go on from what it read. -/
theorem together_after (f : Reader α) {k : α → Reader γ} {l : α → Reader δ}
    (hk : ∀ a, Together S (k a) (l a)) : Together S (f >>= k) (f >>= l) :=
  together_bind (together_refl f) fun a _ h => h ▸ hk a

end

/-- Parts of a sequence that are alike. -/
inductive AlikePart : Reader.Part → Reader.Part → Prop
  | item {r s : Regex} (h : Alike r s) : AlikePart (.item r) (.item s)
  | bare (a b : Anchor) : AlikePart (.bare a) (.bare b)
  | repeated {r s : Regex} (h : Alike r s) : AlikePart (.repeated r) (.repeated s)
  | enclosed {rs ss : List Regex} (h : AlikeItems rs ss) : AlikePart (.enclosed rs) (.enclosed ss)

theorem AlikePart.refl (p : Reader.Part) : AlikePart p p := by
  cases p with
  | item r => exact .item (.refl r)
  | bare a => exact .bare a a
  | repeated r => exact .repeated (.refl r)
  | enclosed rs => exact .enclosed (.refl rs)

theorem AlikePart.items {p q : Reader.Part} (h : AlikePart p q) : AlikeItems p.items q.items := by
  cases h with
  | item h => exact h
  | bare a b => exact .anchor a b
  | repeated h => exact h
  | enclosed h => exact h

abbrev AlikeParts : List Reader.Part → List Reader.Part → Prop := List.Forall₂ AlikePart

theorem AlikeParts.collected {ps qs : List Reader.Part} (h : AlikeParts ps qs) :
    AlikeItems (Reader.collected ps) (Reader.collected qs) := by
  induction h with
  | nil => exact .refl []
  | cons hpart _ ih =>
    have happend (p : Reader.Part) (ps : List Reader.Part) :
        Reader.collected (p :: ps) = Reader.collected ps ++ p.items := by
      simp [Reader.collected, List.flatMap_append]
    rw [happend, happend]
    exact ih.append hpart.items

namespace Reader

variable {body body' branch branch' : BodyReader}

def TogetherBody (body body' : BodyReader) : Prop :=
  ∀ flags, Together AlikeItems (body flags) (body' flags)

theorem together_capturing (hbody : TogetherBody body body')
    (start : Nat) (flags : List Flag) (called : Option (List Char)) :
    Together Alike (capturing body start flags called) (capturing body' start flags called) := by
  unfold capturing
  refine together_after _ fun group => ?_
  refine together_bind (hbody flags) fun items items' hitems => ?_
  refine together_after _ fun _ => ?_
  -- The group gets the same width.
  have hwidth (s : State) : s.width (joined items') = s.width (joined items) := hitems.width _
  simp only [hwidth]
  exact together_after _ fun _ => together_pure (Alike.group hitems group)

theorem together_bracketed (hbody : TogetherBody body body')
    (start : Nat) (flags : List Flag) :
    Together AlikeItems (bracketed body start flags) (bracketed body' start flags) := by
  unfold bracketed
  refine together_bind (hbody flags) fun items items' hitems => ?_
  exact together_after _ fun _ => together_pure hitems

theorem together_lookingAhead (hbody : TogetherBody body body')
    (start : Nat) (flags : List Flag) (negated : Bool) :
    Together Alike (lookingAhead body start flags negated)
      (lookingAhead body' start flags negated) :=
  together_bind (together_bracketed hbody start flags) fun _ _ hitems =>
    together_pure (Alike.ahead hitems negated)

theorem together_lookbehind (hbody : TogetherBody body body')
    (start : Nat) (flags : List Flag) (negated : Bool) :
    Together Alike (lookbehind body start flags negated) (lookbehind body' start flags negated) := by
  unfold lookbehind
  refine together_after _ fun outer => ?_
  refine together_after _ fun _ => ?_
  refine together_bind (hbody flags) fun items items' hitems => ?_
  refine together_after _ fun _ => ?_
  refine together_after _ fun _ => ?_
  refine together_after _ fun s => ?_
  have hwidth : s.width (joined items') = s.width (joined items) := hitems.width _
  rw [hwidth]
  exact together_pure (Alike.behind hitems negated _)

theorem together_condition (hbranch : TogetherBody branch branch')
    (start : Nat) (flags : List Flag) :
    Together Alike (condition branch start flags) (condition branch' start flags) := by
  unfold condition
  refine together_after _ fun group => ?_
  refine together_after _ fun _ => ?_
  refine together_bind (hbranch flags) fun yes yes' hyes => ?_
  have hrest (no no' : List Regex) (hno : AlikeItems no no') : Together Alike
      (do
        if (← peek) = some (.plain '|') then failBack .manyBranches 0
        else
          closeParenthesis start
          return Regex.ifGroup group (joined yes) (joined no))
      (do
        if (← peek) = some (.plain '|') then failBack .manyBranches 0
        else
          closeParenthesis start
          return Regex.ifGroup group (joined yes') (joined no')) := by
    refine together_after _ fun upcoming => ?_
    split
    · exact together_failBack _ _
    · exact together_after _ fun _ => together_pure (Alike.ifGroup hyes hno group)
  refine together_after _ fun found => ?_
  split
  · exact together_bind (hbranch flags) hrest
  · exact together_bind (R := AlikeItems) (together_pure (.refl [])) hrest

theorem together_extension (hbody : TogetherBody body body')
    (hbranch : TogetherBody branch branch') (start : Nat)
    (flags : List Flag) (leading : Bool) :
    Together (Option.Rel AlikePart) (extension body branch start flags leading)
      (extension body' branch' start flags leading) := by
  have hitem {r r' : Regex} (h : Alike r r') :
      Together (Option.Rel AlikePart) (pure (some (.item r))) (pure (some (.item r'))) :=
    together_pure (.some (.item h))
  unfold extension
  refine together_after _ fun t => ?_
  split
  · exact together_failBack _ _
  · refine together_after _ fun found => ?_
    split
    · refine together_after _ fun called => ?_
      refine together_after _ fun _ => ?_
      exact together_bind (together_capturing hbody _ _ _) fun _ _ h => hitem h
    · refine together_after _ fun found => ?_
      split
      · exact together_after _ fun r => hitem (.refl r)
      · refine together_after _ fun t => ?_
        split
        · exact together_failBack _ _
        · exact together_failBack _ _
  · exact together_bind (together_bracketed hbody _ _) fun _ _ h =>
      together_pure (.some (.enclosed h))
  · refine together_after _ fun _ => ?_
    exact together_after _ fun _ => together_pure .none
  · exact together_bind (together_lookingAhead hbody _ _ _) fun _ _ h => hitem h
  · exact together_bind (together_lookingAhead hbody _ _ _) fun _ _ h => hitem h
  · refine together_after _ fun t => ?_
    split
    · exact together_failBack _ _
    · exact together_bind (together_lookbehind hbody _ _ _) fun _ _ h => hitem h
    · exact together_bind (together_lookbehind hbody _ _ _) fun _ _ h => hitem h
    · exact together_failBack _ _
  · exact together_bind (together_condition hbranch _ _) fun _ _ h => hitem h
  · exact together_bind (together_bracketed hbody _ _) fun _ _ h => hitem (Alike.atomic h)
  · split
    · refine together_after _ fun found => ?_
      split
      · refine together_after _ fun _ => ?_
        split
        · exact together_pure .none
        · exact together_failAt _ _
      · exact together_bind (together_bracketed hbody _ _) fun _ _ h => hitem (Alike.inScope h)
    · exact together_failBack _ _

theorem together_group (hbody : TogetherBody body body')
    (hbranch : TogetherBody branch branch') (flags : List Flag)
    (leading : Bool) :
    Together (Option.Rel AlikePart) (group body branch flags leading)
      (group body' branch' flags leading) := by
  unfold group
  refine together_after _ fun n => ?_
  refine together_after _ fun found => ?_
  split
  · exact together_extension hbody hbranch _ _ _
  · exact together_bind (together_capturing hbody _ _ _) fun _ _ h =>
      together_pure (.some (.item h))

/-- What cannot be repeated on one side cannot on the other. -/
theorem together_repetition (start least : Nat) (most : Option Nat) {parts parts' : List Part}
    (h : AlikeParts parts parts') :
    Together AlikeParts (repetition start least most parts)
      (repetition start least most parts') := by
  cases h with
  | nil => exact together_failAt _ _
  | cons hpart hparts =>
    cases hpart with
    | bare a b => exact together_failAt _ _
    | repeated h => exact together_failAt _ _
    | item h =>
      exact together_after _ fun pace =>
        together_pure (.cons (.repeated (h.loop pace least most)) hparts)
    | enclosed h =>
      exact together_after _ fun pace =>
        together_pure (.cons (.repeated (Alike.loop h pace least most)) hparts)

variable (dollar dollar' : Anchor)

theorem together_dollarSign (flags : List Flag) :
    Together (fun _ _ => True) (dollarSign dollar flags) (dollarSign dollar' flags) := by
  unfold dollarSign
  split
  · exact together_after _ fun _ => together_pure trivial
  · exact together_after _ fun _ => together_pure trivial

theorem together_part (hbody : TogetherBody body body')
    (hbranch : TogetherBody branch branch') (flags : List Flag)
    (first : Bool) (t : Token) {parts parts' : List Part} (h : AlikeParts parts parts') :
    Together AlikeParts (part dollar body branch flags first t parts)
      (part dollar' body' branch' flags first t parts') := by
  have hadd (p : Part) : Together AlikeParts (pure (p :: parts)) (pure (p :: parts')) :=
    together_pure (.cons (.refl p) h)
  have hempty : parts'.isEmpty = parts.isEmpty := by
    cases h with
    | nil => rfl
    | cons _ _ => rfl
  unfold part
  split
  · exact together_after _ fun _ => hadd _
  · dsimp only
    split
    · exact together_after _ fun _ => hadd _
    · split
      · refine together_after _ fun n => ?_
        refine together_after _ fun found => ?_
        split
        · exact hadd _
        · exact together_repetition _ _ _ h
      · split
        · exact hadd _
        · split
          · rw [hempty]
            refine together_bind (together_group hbody hbranch _ _) fun p q hpart => ?_
            cases hpart with
            | none => exact together_pure h
            | some hpart => exact together_pure (.cons hpart h)
          · split
            · exact hadd _
            · split
              · exact together_bind (together_dollarSign dollar dollar' flags) fun a b _ =>
                  together_pure (.cons (.bare a b) h)
              · exact hadd _

/-- With so much fuel left alternatives and sequences are read together. -/
structure TogetherAll (fuel : Nat) : Prop where
  alternatives (scope : Option (List Flag)) :
    Together AlikeItems (alternatives dollar fuel scope) (alternatives dollar' fuel scope)
  more (scope : Option (List Flag)) :
    Together (List.Forall₂ AlikeItems) (moreAlternatives dollar fuel scope)
      (moreAlternatives dollar' fuel scope)
  sequence (scope : Option (List Flag)) (first : Bool) {parts parts' : List Part}
      (hparts : AlikeParts parts parts') :
    Together AlikeItems (sequence dollar fuel scope first parts)
      (sequence dollar' fuel scope first parts')

namespace TogetherAll

variable {dollar dollar'} {fuel : Nat} (h : TogetherAll dollar dollar' fuel)
  (scope : Option (List Flag))

include h

theorem sequence_succ (first : Bool) {parts parts' : List Part} (hparts : AlikeParts parts parts') :
    Together AlikeItems (Reader.sequence dollar (fuel + 1) scope first parts)
      (Reader.sequence dollar' (fuel + 1) scope first parts') := by
  unfold Reader.sequence
  refine together_after _ fun upcoming => ?_
  split
  · exact together_pure hparts.collected
  · refine together_after _ fun t => ?_
    split
    · exact together_pure hparts.collected
    · refine together_after _ fun s => ?_
      dsimp only
      split
      · exact h.sequence scope first hparts
      · split
        · refine together_after _ fun s => ?_
          exact together_after _ fun _ => h.sequence scope first hparts
        · have hbody : TogetherBody (fun flags => Reader.alternatives dollar fuel (some flags))
              (fun flags => Reader.alternatives dollar' fuel (some flags)) :=
            fun flags => h.alternatives (some flags)
          have hbranch : TogetherBody
              (fun flags => Reader.sequence dollar fuel (some flags) false [])
              (fun flags => Reader.sequence dollar' fuel (some flags) false []) :=
            fun flags => h.sequence (some flags) false .nil
          refine together_bind (together_part dollar dollar' hbody hbranch _ first _ hparts)
            fun _ _ hparts => ?_
          exact h.sequence scope first hparts

theorem more_succ : Together (List.Forall₂ AlikeItems) (moreAlternatives dollar (fuel + 1) scope)
    (moreAlternatives dollar' (fuel + 1) scope) := by
  unfold moreAlternatives
  refine together_after _ fun found => ?_
  split
  · refine together_bind (h.sequence scope false .nil) fun _ _ hitems => ?_
    exact together_bind (h.more scope) fun _ _ hothers => together_pure (.cons hitems hothers)
  · exact together_pure .nil

theorem alternatives_succ : Together AlikeItems (Reader.alternatives dollar (fuel + 1) scope)
    (Reader.alternatives dollar' (fuel + 1) scope) := by
  unfold Reader.alternatives
  refine together_bind (h.sequence scope scope.isNone .nil) fun _ _ hitems => ?_
  refine together_bind (h.more scope) fun _ _ hothers => ?_
  cases hothers with
  | nil => exact together_pure hitems
  | cons hfirst hrest =>
    exact together_after _ fun s => together_pure (hitems.choice (.cons hfirst hrest) _)

end TogetherAll

theorem togetherAll (fuel : Nat) : TogetherAll dollar dollar' fuel := by
  induction fuel with
  | zero =>
    constructor
    · intro scope
      unfold alternatives
      exact together_throw _
    · intro scope
      unfold moreAlternatives
      exact together_throw _
    · intro scope first parts parts' _
      unfold sequence
      exact together_throw _
  | succ fuel ih => exact ⟨ih.alternatives_succ, ih.more_succ, ih.sequence_succ⟩

theorem together_pattern (source : List Char) :
    Together Alike (pattern dollar source) (pattern dollar' source) := by
  unfold pattern
  refine together_after _ fun _ => ?_
  refine together_bind ((togetherAll dollar dollar' _).alternatives none) fun _ _ hitems => ?_
  refine together_after _ fun s => ?_
  split
  · exact together_throw _
  · split
    · exact together_failBack _ _
    · split
      · exact together_failAt _ _
      · exact together_pure hitems

end Reader

end FirstMatch.Regex
