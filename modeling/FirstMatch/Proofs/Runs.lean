import FirstMatch.Lexer
import Mathlib.Logic.Relation

/-!
Runs as functions of the session: what the ways of putting runs together do to a session, and runs
that move a session along a relation, a step of it at a time.
-/

namespace FirstMatch.Run

variable {α β : Type}

theorem bind_apply (x : Run α) (k : α → Run β) (s : Session) :
    (x >>= k) s = match x s with
      | none => none
      | some (.ok a, t) => k a t
      | some (.error f, t) => some (.error f, t) := by
  change (ExceptT.bind x k) s = _
  simp only [ExceptT.bind, ExceptT.mk, bind, StateT.bind, Option.bind]
  cases x s with
  | none => rfl
  | some p =>
    obtain ⟨r, t⟩ := p
    cases r <;> rfl

theorem bind_of_ok {x : Run α} {s t : Session} {a : α} (h : x s = some (.ok a, t))
    (k : α → Run β) : (x >>= k) s = k a t := by
  rw [bind_apply, h]

theorem bind_of_error {x : Run α} {s t : Session} {f : Fault} (h : x s = some (.error f, t))
    (k : α → Run β) : (x >>= k) s = some (.error f, t) := by
  rw [bind_apply, h]

/-- A run of two parts went through both, or the first part ended it with an error. -/
theorem bind_eq_some {x : Run α} {k : α → Run β} {s t : Session} {r : Except Fault β}
    (h : (x >>= k) s = some (r, t)) :
    (∃ a u, x s = some (.ok a, u) ∧ k a u = some (r, t)) ∨
      ∃ f, x s = some (.error f, t) ∧ r = .error f := by
  rw [bind_apply] at h
  split at h
  · cases h
  · exact .inl ⟨_, _, ‹_›, h⟩
  · cases h
    exact .inr ⟨_, ‹_›, rfl⟩

theorem outcome_apply (x : Run α) (s : Session) :
    x.outcome s = (x s).map fun p => (.ok p.1, p.2) := rfl

/-- Looking at the session first. -/
theorem get_bind_apply (k : Session → Run β) (s : Session) : (get >>= k) s = k s s := rfl

theorem modify_bind_apply (g : Session → Session) (k : Unit → Run β) (s : Session) :
    ((modify g : Run Unit) >>= k) s = k () (g s) := rfl

theorem set_bind_apply (s t : Session) (k : Unit → Run β) :
    ((set t : Run Unit) >>= k) s = k () t := rfl

/-- Wherever the run ends, steps of the relation lead there. -/
def Moves (E : Session → Session → Prop) (x : Run α) : Prop :=
  ∀ ⦃s t : Session⦄ ⦃r : Except Fault α⦄, x s = some (r, t) → Relation.ReflTransGen E s t

section

variable {E : Session → Session → Prop}

theorem moves_pure (a : α) : Moves E (pure a : Run α) := by
  intro s t r h
  cases h
  exact .refl

theorem moves_throw (f : Fault) : Moves E (throw f : Run α) := by
  intro s t r h
  cases h
  exact .refl

theorem moves_unfinished : Moves E (unfinished : Run α) := by
  intro s t r h
  cases h

theorem moves_get : Moves E (get : Run Session) := by
  intro s t r h
  cases h
  exact .refl

theorem moves_modify {g : Session → Session} (hg : ∀ s, E s (g s)) :
    Moves E (modify g : Run Unit) := by
  intro s t r h
  cases h
  exact .single (hg s)

/-- The second part goes on with what the first one has found in the session. -/
theorem moves_after {x : Run α} {k : α → Run β} (hx : Moves E x)
    (hk : ∀ ⦃s u a⦄, x s = some (.ok a, u) → ∀ ⦃t r⦄, k a u = some (r, t) →
      Relation.ReflTransGen E u t) : Moves E (x >>= k) := by
  intro s t r h
  obtain ⟨a, u, hu, ht⟩ | ⟨f, ht, -⟩ := bind_eq_some h
  · exact (hx hu).trans (hk hu ht)
  · exact hx ht

theorem moves_bind {x : Run α} {k : α → Run β} (hx : Moves E x) (hk : ∀ a, Moves E (k a)) :
    Moves E (x >>= k) :=
  moves_after hx fun _ _ a _ _ _ ht => hk a ht

theorem moves_outcome {x : Run α} (hx : Moves E x) : Moves E x.outcome := by
  intro s t r h
  rw [outcome_apply] at h
  obtain ⟨⟨r', t'⟩, hr, heq⟩ := Option.map_eq_some_iff.mp h
  cases heq
  exact hx hr

theorem moves_ofCall (e : Except CallFlaw α) : Moves E (ofCall e) := by
  cases e with
  | ok a => exact moves_pure a
  | error flaw => exact moves_throw _

theorem moves_find (table : List (String × α)) (name : String) : Moves E (find table name) := by
  unfold find
  split
  · exact moves_pure _
  · exact moves_throw _

theorem moves_lexer (name : String) : Moves E (lexer name) :=
  moves_bind moves_get fun _ => moves_find _ _

theorem moves_engine (name : String) : Moves E (engine name) := by
  refine moves_bind moves_get fun s => ?_
  split
  · exact moves_pure _
  · exact moves_lexer name

theorem moves_cursorNamed (name : String) : Moves E (cursorNamed name) :=
  moves_bind moves_get fun _ => moves_find _ _

theorem moves_streamNamed (name : String) : Moves E (streamNamed name) :=
  moves_bind moves_get fun _ => moves_find _ _

theorem moves_stream (i : Nat) : Moves E (stream i) := by
  refine moves_bind moves_get fun s => ?_
  split
  · exact moves_pure _
  · exact moves_throw _

/-- A script moves along what answering its requests moves along. -/
theorem moves_script {perform : Performer} (hp : ∀ q, Moves E (perform q)) (p : Script α) :
    Moves E (p.run perform) := by
  induction p with
  | done a => exact moves_pure a
  | fail f => exact moves_throw f
  | ask q reply ih => exact moves_bind (moves_outcome (hp q)) ih
  | stall => exact moves_unfinished

theorem moves_invoke {perform : Performer} (hp : ∀ q, Moves E (perform q)) (r : CompiledRule)
    (text : List Char) (i : Nat) (span : Span) (context : Arguments) :
    Moves E (r.invoke perform text i span context) :=
  moves_bind (moves_ofCall _) fun p => moves_script hp p

end

end FirstMatch.Run
