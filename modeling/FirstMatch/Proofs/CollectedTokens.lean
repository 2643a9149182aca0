import FirstMatch.Proofs.Depth
import FirstMatch.Proofs.StreamSteps
import FirstMatch.Proofs.TameScripts

/-!
Collecting the tokens of a stream takes its steps up to the end or to an error: what has not been skipped
is collected, and an error is raised.
-/

namespace FirstMatch

/-- The token of an outcome with its span. -/
def Outcome.pair? : Outcome → Option (Value × Span)
  | emitted token span => some (token, span)
  | _ => none

namespace Run

/-- The steps of a stream go on with some outcomes, and then come to one result more. -/
def RunsTo (perform : Performer) (j : Nat) (os : List Outcome) (last : Except Fault Outcome)
    (s t : Session) : Prop :=
  results perform j (os.length + 1) s = some (os.map .ok ++ [last], t) ∧ ∀ o ∈ os, o.GoesOn

/-- What collecting all tokens comes to at the result of a step, if it stops there. -/
def collected? (pairs : List (Value × Span)) :
    Except Fault Outcome → Option (Except Fault (List (Value × Span)))
  | .error f => some (.error f)
  | .ok .exhausted => some (.ok pairs)
  | .ok (.failed f) => some (.error f)
  | .ok (.emitted ..) => none
  | .ok (.skipped _) => none

theorem collected?_of_replied {last : Except Fault Outcome} {f : Fault}
    (h : Outcome.replied? last = some (.error f)) (pairs : List (Value × Span)) :
    collected? pairs last = some (.error f) := by
  rcases last with f' | o
  · cases h
    rfl
  · cases o <;> cases h
    rfl

variable {s t : Session} {j depth : Nat}

theorem below_results {depth' : Nat} (h : depth ≤ depth') (j n : Nat) {s : Session}
    {p : List (Except Fault Outcome) × Session} (hp : results (perform depth) j n s = some p) :
    results (perform depth') j n s = some p := by
  induction n generalizing s p with
  | zero => exact hp
  | succ n ih =>
    unfold results at hp
    split at hp
    · cases hp
    · next r t hstep =>
      obtain ⟨q, hq, rfl⟩ := Option.map_eq_some_iff.mp hp
      rw [results_succ_of_some (below_streamStepWith (below_perform h) j hstep), ih hq]
      rfl

theorem filterMap_skipped (spans : List Span) :
    (spans.map Outcome.skipped).filterMap Outcome.pair? = [] := by
  induction spans with
  | nil => rfl
  | cons span spans ih => exact ih

/-- The steps of one token: those that are skipped, and the one that is answered. -/
theorem runsTo_of_next {answer : Except Fault (Option (Value × Span))}
    (h : next depth j s = some (answer, t)) : ∃ (spans : List Span) (last : Except Fault Outcome),
      RunsTo (perform depth) j (spans.map Outcome.skipped) last s t ∧
      Outcome.replied? last = some answer := by
  obtain ⟨spans, last, hsteps, hlast⟩ := results_of_nextWith h
  refine ⟨spans, last, ⟨?_, fun o ho => ?_⟩, hlast⟩
  · rw [List.length_map, List.map_map]
    exact hsteps
  · obtain ⟨span, -, rfl⟩ := List.mem_map.mp ho
    trivial

theorem RunsTo.trans {os os' : List Outcome} {o : Outcome} {last : Except Fault Outcome}
    {u : Session} (h : RunsTo (perform depth) j os (.ok o) s t)
    (h' : RunsTo (perform depth) j os' last t u) (ho : o.GoesOn) :
    RunsTo (perform depth) j (os ++ o :: os') last s u := by
  constructor
  · have hall := results_add h.1 h'.1
    simpa [Nat.add_assoc, Nat.add_comm, Nat.add_left_comm] using hall
  · intro q hq
    rcases List.mem_append.mp hq with hq | hq
    · exact h.2 q hq
    · rcases List.mem_cons.mp hq with rfl | hq
      · exact ho
      · exact h'.2 q hq

/-- Collecting tokens has taken steps up to the end or to an error. -/
theorem runsTo_of_pairsFrom {turns : Nat} {before : List (Value × Span)}
    {r : Except Fault (List (Value × Span))} (h : pairsFrom depth j turns before s = some (r, t)) :
    ∃ os last, RunsTo (perform depth) j os last s t ∧
      collected? (before.reverse ++ os.filterMap Outcome.pair?) last = some r := by
  induction turns generalizing s before with
  | zero => cases h
  | succ turns ih =>
    unfold pairsFrom at h
    obtain ⟨answer, u, hnext, h⟩ | ⟨f, hnext, rfl⟩ := bind_eq_some h
    · obtain ⟨spans, last, hruns, hlast⟩ := runsTo_of_next hnext
      cases answer with
      | none =>
        cases h
        obtain rfl := Outcome.eq_exhausted_of_replied hlast
        refine ⟨_, _, hruns, ?_⟩
        rw [filterMap_skipped, List.append_nil]
        rfl
      | some pair =>
        obtain ⟨token, span⟩ := pair
        obtain ⟨os, last', hrest, hlast'⟩ := ih h
        obtain rfl := Outcome.eq_emitted_of_replied hlast
        refine ⟨_, last', hruns.trans hrest trivial, ?_⟩
        rw [List.filterMap_append, filterMap_skipped, List.nil_append]
        simpa [Outcome.pair?] using hlast'
    · obtain ⟨spans, last, hruns, hlast⟩ := runsTo_of_next hnext
      exact ⟨_, last, hruns, collected?_of_replied hlast _⟩

/-- Steps up to the end or to an error are what collecting tokens takes. -/
theorem collect_of_runsTo {os : List Outcome} {last : Except Fault Outcome}
    {before : List (Value × Span)} {turns most : Nat} {r : Except Fault (List (Value × Span))}
    (h : RunsTo (perform depth) j os last s t)
    (hlast : collected? (before.reverse ++ os.filterMap Outcome.pair?) last = some r)
    (hturns : os.length < turns) (hmost : os.length < most) (hdepth : os.length < depth) :
    (nextWith (perform depth) j most >>= fun answer =>
      match answer with
      | some pair => pairsFrom depth j turns (pair :: before)
      | none => return before.reverse) s = some (r, t) := by
  obtain ⟨h, hos⟩ := h
  induction os generalizing s before turns most with
  | nil =>
    obtain ⟨u, hstep, hrest⟩ := results_eq_cons h
    cases hrest
    obtain ⟨most, rfl⟩ := Nat.exists_eq_add_one.mpr hmost
    rw [bind_apply, nextWith_succ, hstep]
    rw [List.filterMap_nil, List.append_nil] at hlast
    rcases last with f | o
    · cases hlast
      rfl
    · cases o <;> cases hlast <;> rfl
  | cons o os ih =>
    obtain ⟨u, hstep, hrest⟩ := results_eq_cons h
    rw [List.length_cons] at hturns hmost hdepth
    obtain ⟨most, rfl⟩ := Nat.exists_eq_add_one.mpr (Nat.zero_lt_of_lt hmost)
    obtain ⟨turns, rfl⟩ := Nat.exists_eq_add_one.mpr (Nat.zero_lt_of_lt hturns)
    have hos' : ∀ q ∈ os, q.GoesOn := fun q hq => hos q (List.mem_cons_of_mem _ hq)
    rw [bind_apply, nextWith_succ, hstep]
    cases o with
    | skipped span =>
      have hskipped := ih hlast (Nat.lt_of_succ_lt hturns) (Nat.lt_of_succ_lt_succ hmost)
        (Nat.lt_of_succ_lt hdepth) hrest hos'
      rw [bind_apply] at hskipped
      exact hskipped
    | emitted token span =>
      have hpairs : collected? (((token, span) :: before).reverse ++
          os.filterMap Outcome.pair?) last = some r := by
        simpa [Outcome.pair?] using hlast
      change pairsFrom depth j (turns + 1) ((token, span) :: before) u = some (r, t)
      unfold pairsFrom
      exact ih hpairs (Nat.lt_of_succ_lt_succ hturns) (Nat.lt_of_succ_lt hdepth)
        (Nat.lt_of_succ_lt hdepth) hrest hos'
    | exhausted => exact (hos _ List.mem_cons_self).elim
    | failed f => exact (hos _ List.mem_cons_self).elim

theorem tokens_apply (depth j : Nat) (s : Session) : tokens depth j s =
    (pairs depth j s).map fun p => (p.1.map fun pairs => pairs.map (·.1), p.2) := by
  unfold tokens
  rw [bind_apply]
  cases pairs depth j s with
  | none => rfl
  | some p =>
    obtain ⟨r, t⟩ := p
    cases r <;> rfl

end Run

end FirstMatch
