import FirstMatch.Proofs.PairedNotation

/-!
A whole source beside the one that is compiled in its place.
-/

namespace FirstMatch.Regex

/-- The flags of a scope, if it has its own, may be in force. -/
def AnnouncedScope (source : List Char) (scope : Option (List Flag)) : Prop :=
  ∀ flags ∈ scope, Announced source flags

theorem AnnouncedScope.getD {source : List Char} {scope : Option (List Flag)} {flags : List Flag}
    (hscope : AnnouncedScope source scope) (h : Announced source flags) :
    Announced source (scope.getD flags) := by
  cases scope with
  | none => exact h
  | some own => exact hscope own rfl

theorem Announced.some {source : List Char} {flags : List Flag} (h : Announced source flags) :
    AnnouncedScope source (some flags) := by
  rintro own ⟨⟩
  exact h

namespace Reader

open EndAnchor (Replaces)

variable {source : List Char} {fuel fuel' : Nat}

/-- With so much fuel left alternatives and sequences are read alike. -/
structure FollowsAll (source : List Char) (fuel fuel' : Nat) : Prop where
  alternatives {scope : Option (List Flag)} (hscope : AnnouncedScope source scope) :
    Follows source Eq (alternatives .textEnd fuel scope) (alternatives .finalLine fuel' scope)
  more {scope : Option (List Flag)} (hscope : AnnouncedScope source scope) :
    Follows source Eq (moreAlternatives .textEnd fuel scope)
      (moreAlternatives .finalLine fuel' scope)
  sequence {scope : Option (List Flag)} (hscope : AnnouncedScope source scope) (first : Bool)
      (parts : List Part) :
    Follows source Eq (sequence .textEnd fuel scope first parts)
      (sequence .finalLine fuel' scope first parts)

namespace FollowsAll

variable (h : FollowsAll source fuel fuel') {scope : Option (List Flag)}
  (hscope : AnnouncedScope source scope)

include h

theorem body : FollowsBody source (fun flags => Reader.alternatives .textEnd fuel (some flags))
    (fun flags => Reader.alternatives .finalLine fuel' (some flags)) :=
  fun _ hflags => h.alternatives hflags.some

theorem branch : FollowsBody source
    (fun flags => Reader.sequence .textEnd fuel (some flags) false [])
    (fun flags => Reader.sequence .finalLine fuel' (some flags) false []) :=
  fun _ hflags => h.sequence hflags.some false []

include hscope

theorem sequence_succ (first : Bool) (parts : List Part) :
    Follows source Eq (Reader.sequence .textEnd (fuel + 1) scope first parts)
      (Reader.sequence .finalLine (fuel' + 1) scope first parts) := by
  unfold Reader.sequence
  refine follows_ahead (by decide) (by decide) (follows_pure rfl) fun s t hst => ?_
  refine agrees_next hst (follows_pure rfl s t hst) (fun u p q hpq hread hkept => ?_)
    fun p q hpq hhere => ?_
  · have hopen : u.text ++ p.rest <:+ source := hread ▸ hst.within
    have hflags := hscope.getD hpq.announced
    dsimp only
    rw [get_bind, get_bind, hpq.flags]
    split
    · exact h.sequence hscope first parts p q hpq
    · split
      · rw [get_bind, get_bind]
        have hlength := hpq.rest.length_le
        refine (follows_lineComment (by omega) p q hpq).bind fun _ _ p q _ hpq => ?_
        exact h.sequence hscope first parts p q hpq
      · refine (agrees_part h.body h.branch hflags first parts hpq hopen hkept).after
          fun parts p q hpq => ?_
        exact h.sequence hscope first parts p q hpq
  · have hflags := hscope.getD hpq.announced
    dsimp only
    rw [get_bind, get_bind, hpq.flags]
    -- Neither the dollar nor the escape in its place is layout or begins a comment.
    have hlayout (u : Token) (hu : isLayout u = false) (b : Bool) : ¬(b && isLayout u) = true := by
      rw [hu, Bool.and_false]
      exact Bool.false_ne_true
    have hcomment (u : Token) (hu : u ≠ .plain '#') (b : Bool) :
        ¬(b && decide (u = .plain '#')) = true := by
      rw [decide_eq_false hu, Bool.and_false]
      exact Bool.false_ne_true
    rw [if_neg (hlayout _ (by decide) _), if_neg (hlayout _ rfl _),
      if_neg (hcomment _ (by decide) _), if_neg (hcomment (.escape 'Z') nofun _)]
    refine (agrees_part_replaced hflags first parts hpq hhere).after fun parts p q hpq => ?_
    exact h.sequence hscope first parts p q hpq

theorem more_succ : Follows source Eq (moreAlternatives .textEnd (fuel + 1) scope)
    (moreAlternatives .finalLine (fuel' + 1) scope) := by
  unfold moreAlternatives
  refine follows_after (follows_accept (by decide)) fun found => ?_
  split
  · refine follows_after (h.sequence hscope false []) fun items => ?_
    refine follows_after (h.more hscope) fun others => ?_
    exact follows_pure rfl
  · exact follows_pure rfl

theorem alternatives_succ : Follows source Eq (Reader.alternatives .textEnd (fuel + 1) scope)
    (Reader.alternatives .finalLine (fuel' + 1) scope) := by
  unfold Reader.alternatives
  refine follows_after (h.sequence hscope scope.isNone []) fun items => ?_
  refine follows_after (h.more hscope) fun others => ?_
  split
  · exact follows_pure rfl
  · refine follows_bind follows_get fun s t hst => ?_
    rw [hst.flags]
    exact follows_pure rfl

end FollowsAll

/-- The left runs out of fuel first. -/
theorem followsAll (hfuel : fuel ≤ fuel') : FollowsAll source fuel fuel' := by
  induction fuel generalizing fuel' with
  | zero =>
    constructor
    · intro scope _
      unfold alternatives
      exact follows_throw _ _
    · intro scope _
      unfold moreAlternatives
      exact follows_throw _ _
    · intro scope _ first parts
      unfold sequence
      exact follows_throw _ _
  | succ fuel ih =>
    obtain ⟨fuel', rfl⟩ : ∃ k, fuel' = k + 1 := Nat.exists_eq_succ_of_ne_zero (by omega)
    have h := @ih fuel' (Nat.le_of_succ_le_succ hfuel)
    exact ⟨h.alternatives_succ, h.more_succ, h.sequence_succ⟩

end Reader

namespace State.Paired

variable {source : List Char} {s t : State}

/-- A group that is asked about and that there is not is missing on both sides. -/
theorem missing (h : s.Paired source t)
    (hnone : (s.awaited.find? fun g => s.nextGroup ≤ g.1) = none) :
    (t.awaited.find? fun g => t.nextGroup ≤ g.1) = none := by
  rw [List.find?_eq_none] at hnone ⊢
  intro g hg
  have hmem := List.mem_map_of_mem (f := (·.1)) hg
  rw [h.awaited, List.mem_map] at hmem
  obtain ⟨g', hg', heq⟩ := hmem
  rw [h.nextGroup, ← heq]
  exact hnone g' hg'

theorem program (h : s.Paired source t) (r : Regex) : r.program t = r.program s := by
  simp only [Regex.program, State.groupWidth, h.flags, h.widths]

end State.Paired

namespace Reader

open EndAnchor (Replaces)

variable {source compiled : List Char}

/-- A source in which a dollar means the end of the text, beside the one that is compiled. -/
theorem agrees_pattern (dialect : Dialect) (h : Rewritten (Replaces source) 0 source compiled) :
    Agrees source Eq (pattern .textEnd source (.start dialect source))
      (pattern .finalLine compiled (.start dialect compiled)) := by
  have hnone : Announced source [] := fun hm => absurd hm List.not_mem_nil
  have hstart : State.Paired source (.start dialect source) (.start dialect compiled) :=
    ⟨List.suffix_rfl, hnone, h, rfl, rfl, rfl, rfl, rfl, rfl⟩
  have hlength := h.length_le
  have hscope : AnnouncedScope source none :=
    fun flags hflags => absurd hflags (Option.not_mem_none flags)
  have hall : FollowsAll source (2 * source.length + 3) (2 * compiled.length + 3) :=
    followsAll (by omega)
  unfold pattern
  refine (agrees_seek hstart List.suffix_rfl h).bind fun _ _ s t _ hst => ?_
  refine (hall.alternatives hscope s t hst).after fun items s t hst => ?_
  rw [get_bind, get_bind, hst.flags]
  split
  · exact follows_throw _ _ s t hst
  · split
    · exact follows_failBack _ _ _ s t hst
    · next hrest =>
      rw [if_neg (by rwa [ne_eq, hst.rest.nil_iff])]
      cases hfind : s.awaited.find? fun g => s.nextGroup ≤ g.1 with
      | some g => exact follows_failAt _ _ _ s t hst
      | none =>
        rw [hst.missing hfind]
        exact follows_pure rfl s t hst

end Reader

end FirstMatch.Regex
