import FirstMatch.Recipe
import FirstMatch.Proofs.Runs

/-!
Tame scripts. A script is tame if it keeps to the cursors that there are and if its loops go on only as
long as what they ask for consumes something. How often that can happen is a number that is counted
down, so such a script never runs out of turns.
-/

namespace FirstMatch

/-- A match was made whose action has returned. -/
def Outcome.GoesOn : Outcome → Prop
  | emitted .. => True
  | skipped _ => True
  | _ => False

namespace Request

/-- The request is for one of the first `n` cursors, and for no new one. -/
def Stays (n : Nat) : Request → Prop
  | advance i _ => i < n
  | mark i => i < n
  | openStream _ i _ => i < n
  | step _ i _ => i < n
  | openText _ => False
  | _ => True

/-- The answer tells that something was consumed. -/
def Progress : (q : Request) → Except Fault q.Answer → Prop
  | advance _ n, .ok _ => 0 < n
  | step .., .ok o => o.GoesOn
  | streamStep _, .ok o => o.GoesOn
  | next _, .ok e => e.isSome
  | _, _ => False

end Request

namespace Script

variable {α β σ : Type} {n m : Nat}

/-- The script never stalls if it can consume something `m` times at most, keeps to the first `n`
cursors, and has a result as given with what is left of `m`. -/
def Tame (n : Nat) (Q : α → Nat → Prop) : Script α → Nat → Prop
  | done a, m => Q a m
  | fail _, _ => True
  | ask q reply, m =>
    q.Stays n ∧ ∀ answer k, k ≤ m → (q.Progress answer → k < m) → (reply answer).Tame n Q k
  | stall, _ => False

theorem Tame.mono {Q R : α → Nat → Prop} (h : ∀ a k, Q a k → R a k) {p : Script α} {m : Nat}
    (hp : p.Tame n Q m) : p.Tame n R m := by
  induction p generalizing m with
  | done a => exact h a m hp
  | fail f => trivial
  | ask q reply ih => exact ⟨hp.1, fun answer k hk hlt => ih answer (hp.2 answer k hk hlt)⟩
  | stall => exact hp

theorem Tame.bind {Q : β → Nat → Prop} {p : Script α} {k : α → Script β} {m : Nat}
    (hp : p.Tame n (fun a m => (k a).Tame n Q m) m) : (p.bind k).Tame n Q m := by
  induction p generalizing m with
  | done a => exact hp
  | fail f => trivial
  | ask q reply ih => exact ⟨hp.1, fun answer k hk hlt => ih answer (hp.2 answer k hk hlt)⟩
  | stall => exact hp

/-- Nothing that a script does gives it more to consume. -/
theorem Tame.le {Q : α → Nat → Prop} {p : Script α} (hp : p.Tame n Q m) :
    p.Tame n (fun a k => Q a k ∧ k ≤ m) m := by
  induction p generalizing m with
  | done a => exact ⟨hp, Nat.le_refl m⟩
  | fail f => trivial
  | ask q reply ih =>
    refine ⟨hp.1, fun answer k hk hlt => ?_⟩
    exact (ih answer (hp.2 answer k hk hlt)).mono fun a l h => ⟨h.1, Nat.le_trans h.2 hk⟩
  | stall => exact hp

theorem tame_orElse {Q : α → Nat → Prop} {p other : Script α} (hp : p.Tame n Q m)
    (hother : ∀ k, k ≤ m → other.Tame n Q k) : (p.orElse other).Tame n Q m := by
  induction p generalizing m with
  | done a => exact hp
  | fail f =>
    unfold orElse
    split
    · exact hother m (Nat.le_refl m)
    · trivial
  | ask q reply ih =>
    exact ⟨hp.1, fun answer k hk hlt =>
      ih answer (hp.2 answer k hk hlt) fun l hl => hother l (Nat.le_trans hl hk)⟩
  | stall => exact hp

theorem tame_ite {Q : α → Nat → Prop} {p q : Script α} {c : Prop} [Decidable c]
    (hp : p.Tame n Q m) (hq : q.Tame n Q m) : (if c then p else q).Tame n Q m := by
  split
  · exact hp
  · exact hq

/-- A script that is tame with what is left after another one. -/
theorem tame_bind {Q : β → Nat → Prop} {p : Script α} {k : α → Script β}
    (hp : p.Tame n (fun _ _ => True) m) (hk : ∀ a l, l ≤ m → (k a).Tame n Q l) :
    (p >>= k).Tame n Q m :=
  Tame.bind (hp.le.mono fun a l h => hk a l h.2)

theorem tame_request {q : Request} {Q : q.Answer → Nat → Prop} {m : Nat} (hq : q.Stays n)
    (h : ∀ a k, k ≤ m → (q.Progress (.ok a) → k < m) → Q a k) : (request q).Tame n Q m := by
  refine ⟨hq, fun answer k hk hlt => ?_⟩
  cases answer with
  | ok a => exact h a k hk hlt
  | error f => trivial

/-- A loop whose turns consume something before the next turn has more turns than it needs. -/
theorem tame_iterate {Q : α → Nat → Prop} {turn : σ → Script (σ ⊕ α)} {turns m : Nat} {s : σ}
    (hturn : ∀ s k, k ≤ m → (turn s).Tame n (fun r l =>
      match r with
      | .inl _ => l < k
      | .inr a => Q a l) k)
    (hm : m < turns) : (iterate turn turns s).Tame n Q m := by
  induction turns generalizing m s with
  | zero => exact absurd hm (Nat.not_lt_zero m)
  | succ turns ih =>
    refine Tame.bind ((hturn s m (Nat.le_refl m)).mono fun r l hr => ?_)
    cases r with
    | inl t =>
      have hl : l < m := hr
      exact ih (fun s k hk => hturn s k (by omega)) (by omega)
    | inr a => exact hr

end Script

end FirstMatch
