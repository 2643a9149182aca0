import FirstMatch.Proofs.Deeds
import FirstMatch.Proofs.Tokenizing
import Mathlib.Algebra.Order.BigOperators.Group.Finset

/-!
How many matches there can be. Every match on a cursor takes a character or the one pass that there is
when nothing is left, so what is left of both bounds the matches to come, whoever makes them.
-/

namespace FirstMatch

open Session (entriesOn Deed)

/-- The tables with which scanning goes on: every match of a pattern takes a character if there is
one. -/
def RuleTable.Progressive (t : RuleTable) : Prop := t.Built ∧ t.Consumes

namespace Cursor

/-- How many matches there can still be. -/
def passes (c : Cursor) : Nat := RuleTable.passesLeft c.ahead c.exhausted

theorem passes_le (c : Cursor) : c.passes ≤ c.ahead.length + 1 := by
  unfold passes RuleTable.passesLeft
  split <;> omega

theorem passes_markIfEmpty_le (c : Cursor) : c.markIfEmpty.passes ≤ c.passes := by
  unfold passes RuleTable.passesLeft markIfEmpty
  cases c.exhausted with
  | true => simp
  | false => split <;> simp

theorem passes_move_le (c : Cursor) (n : Nat) : (c.move n).passes ≤ c.passes := by
  unfold passes RuleTable.passesLeft move
  simp only [List.length_drop]
  omega

theorem passes_move_lt {c : Cursor} {n : Nat} (hpos : 0 < n) (hn : n ≤ c.ahead.length) :
    (c.move n).passes < c.passes := by
  unfold passes RuleTable.passesLeft move
  simp only [List.length_drop]
  omega

end Cursor

namespace RuleTable

variable {t : RuleTable} {c : Cursor}

/-- A match takes a pass. -/
theorem Progressive.passes_lt (h : t.Progressive) {rule : CompiledRule} {text : List Char}
    {span : Span} (hfired : (t.attempt c).1 = .fired rule text span) :
    (t.attempt c).2.passes < c.passes := by
  cases hex : c.exhausted with
  | true =>
    rw [attempt, if_pos hex] at hfired
    cases hfired
  | false =>
    have hattempt := t.attempt_eq hex
    cases hlead : t.leading c.ahead with
    | none =>
      rw [hlead] at hattempt
      rw [hattempt] at hfired
      cases ha : c.ahead <;> rw [ha] at hfired <;> cases hfired
    | some found =>
      obtain ⟨k, r, m⟩ := found
      rw [hlead] at hattempt
      cases m with
      | tangled =>
        rw [hattempt] at hfired
        cases hfired
      | length n =>
        have hlt := passesLeft_drop_lt fun hne => h.1.length_pos h.2 hlead hne
        rw [hattempt, Cursor.passes, Cursor.passes, hex]
        change passesLeft (c.ahead.drop n) (c.exhausted || c.ahead.isEmpty) < _
        rwa [hex, Bool.false_or]

theorem attempt_passes_le (t : RuleTable) (c : Cursor) : (t.attempt c).2.passes ≤ c.passes := by
  rcases t.attempt_cases c with ⟨rule, n, -, -, -, ha⟩ | ⟨-, hd⟩
  · rw [ha]
    exact (c.markIfEmpty.passes_move_le n).trans c.passes_markIfEmpty_le
  · rw [hd]
    exact c.passes_markIfEmpty_le

end RuleTable

/-- Each match takes a pass, and nothing gives one back. -/
theorem Cursor.pays_passes : Pays passes Entry.isMatch RuleTable.Progressive where
  tried := by
    intro table progressive c i
    cases hattempt : (table.attempt c).1 with
    | fired rule text span =>
      have hlt := progressive.passes_lt hattempt
      change 1 + (table.attempt c).2.passes ≤ c.passes
      omega
    | _ =>
      change 0 + (table.attempt c).2.passes ≤ c.passes
      rw [Nat.zero_add]
      exact table.attempt_passes_le c
  advanced c i n le := by
    change 0 + (c.move n).passes ≤ c.passes
    rw [Nat.zero_add]
    exact c.passes_move_le n
  marked := passes_markIfEmpty_le

namespace Session

open Finset (range)

variable {s t : Session} {i n : Nat}

/-- How many matches there can still be on the first cursors together. -/
def passes (n : Nat) (s : Session) : Nat := ∑ i ∈ range n, (s.cursor i).passes

theorem Works.passes_le_on (progressive : ∀ table, s.Holds table → table.Progressive)
    (hi : i < s.cursors.size) (h : s.Works t) : (t.cursor i).passes ≤ (s.cursor i).passes := by
  obtain ⟨es, -, hcount⟩ := h.count_add_le Cursor.pays_passes progressive hi
  omega

theorem Works.passes_le (progressive : ∀ table, s.Holds table → table.Progressive)
    (hn : n ≤ s.cursors.size) (h : s.Works t) : t.passes n ≤ s.passes n :=
  Finset.sum_le_sum fun _ hi =>
    h.passes_le_on progressive ((Finset.mem_range.mp hi).trans_le hn)

/-- What takes a pass of one cursor takes one of all. -/
theorem Works.passes_lt (progressive : ∀ table, s.Holds table → table.Progressive)
    (hn : n ≤ s.cursors.size) (h : s.Works t) (hi : i < n)
    (hlt : (t.cursor i).passes < (s.cursor i).passes) : t.passes n < s.passes n :=
  Finset.sum_lt_sum
    (fun _ hj => h.passes_le_on progressive ((Finset.mem_range.mp hj).trans_le hn))
    ⟨i, Finset.mem_range.mpr hi, hlt⟩

end Session

theorem RuleTable.attempt_ne_overrun (t : RuleTable) (c : Cursor) (o : Overrun) :
    (t.attempt c).1 ≠ .overrun o := by
  intro h
  cases hex : c.exhausted with
  | true =>
    rw [attempt, if_pos hex] at h
    cases h
  | false =>
    rw [t.attempt_eq hex] at h
    split at h <;> cases h

namespace Run

/-- What ends scanning: no input, an error that is reported, or a match that cannot be told. -/
def Stops : Except Fault Outcome → Prop
  | .ok .exhausted => True
  | .ok (.failed _) => True
  | .error .tangled => True
  | _ => False

variable {perform : Performer} {s t : Session} {r : Except Fault Outcome}

/-- A step that does not stop scanning has made a match. -/
theorem stepWith_passes_lt (hp : ∀ q, Moves Deed (perform q))
    (progressive : ∀ table, s.Holds table → table.Progressive) {table : RuleTable}
    (held : s.Holds table) {i : Nat} (hi : i < s.cursors.size) {context : Arguments}
    (h : table.stepWith perform i context s = some (r, t)) (hr : ¬Stops r) :
    (t.cursor i).passes < (s.cursor i).passes := by
  rw [RuleTable.stepWith_apply] at h
  split at h
  · cases h
    exact absurd trivial hr
  · cases h
    exact absurd trivial hr
  · exact absurd ‹_› (table.attempt_ne_overrun _ _)
  · cases h
    exact absurd trivial hr
  · next rule text span hattempt =>
    have tried : s.Works (s.tried table i) := .single (.tried s table held i)
    have hlt : ((s.tried table i).cursor i).passes < (s.cursor i).passes := by
      rw [Session.cursor_tried_self hi]
      exact (progressive table held).passes_lt hattempt
    have invoked {r' u} (hu : rule.invoke perform text i span context (s.tried table i) =
        some (r', u)) : (u.cursor i).passes < (s.cursor i).passes := by
      have works : (s.tried table i).Works u := moves_invoke hp rule text i span context hu
      exact (works.passes_le_on (tried.forall_holds progressive)
        (hi.trans_le tried.size_le)).trans_lt hlt
    split at h
    · cases h
    · next hu =>
      cases h
      exact invoked hu
    · next f u hu =>
      split at h
      · cases h
        exact absurd trivial hr
      · cases h
        exact invoked hu

theorem streamStepWith_passes_lt (hp : ∀ q, Moves Deed (perform q))
    (progressive : ∀ table, s.Holds table → table.Progressive) {j : Nat} {a : Stream}
    (ha : s.stream? j = some a) (hi : a.cursor < s.cursors.size)
    (h : streamStepWith perform j s = some (r, t)) (hr : ¬Stops r) :
    (t.cursor a.cursor).passes < (s.cursor a.cursor).passes := by
  have held : s.Holds a.table := .inr (.inr ⟨j, a, ha, rfl⟩)
  unfold streamStepWith at h
  rw [bind_of_ok (stream_of_getElem? ha)] at h
  cases herror : a.error with
  | some f =>
    simp only [herror] at h
    cases h
    exact absurd trivial hr
  | none =>
    cases hdone : a.done with
    | true =>
      simp only [herror, hdone] at h
      cases h
      exact absurd trivial hr
    | false =>
      simp only [herror, hdone] at h
      obtain ⟨o, u, hstep, h⟩ | ⟨f, hstep, rfl⟩ := bind_eq_some h
      · have works : s.Works u := works_stepWith hp held hstep
        obtain ⟨b, hb, -⟩ := works.stream_kept ha
        obtain ⟨_, v, hsettle, h⟩ | ⟨f, hsettle, -⟩ := bind_eq_some h
        · cases h
          have settled : u.Works t := moves_settle j o hsettle
          have hle := settled.passes_le_on (works.forall_holds progressive)
            (hi.trans_le works.size_le)
          exact hle.trans_lt (stepWith_passes_lt hp progressive held hi hstep hr)
        · -- The stream is still there, so its end can be recorded.
          unfold settle at hsettle
          rw [bind_of_ok (stream_of_getElem? hb)] at hsettle
          cases o <;> cases hsettle
      · exact stepWith_passes_lt hp progressive held hi hstep hr

/-- Only a stream that there is has outcomes. -/
theorem stream_of_streamStepWith {j : Nat} {o : Outcome}
    (h : streamStepWith perform j s = some (.ok o, t)) : ∃ a, s.stream? j = some a := by
  obtain ⟨a, u, hu, -⟩ | ⟨f, -, hf⟩ := bind_eq_some h
  · exact ⟨a, (stream_eq_ok hu).2⟩
  · cases hf

/-- A token comes with a match. -/
theorem nextWith_passes_lt (hp : ∀ q, Moves Deed (perform q))
    (progressive : ∀ table, s.Holds table → table.Progressive) {j turns : Nat} {e : Value × Span}
    (h : nextWith perform j turns s = some (.ok (some e), t)) :
    ∃ a, s.stream? j = some a ∧ (a.cursor < s.cursors.size →
      (t.cursor a.cursor).passes < (s.cursor a.cursor).passes) := by
  cases turns with
  | zero => cases h
  | succ turns =>
    unfold nextWith at h
    obtain ⟨o, u, hstep, h⟩ | ⟨f, -, h⟩ := bind_eq_some h
    · obtain ⟨a, ha⟩ := stream_of_streamStepWith hstep
      refine ⟨a, ha, fun hi => ?_⟩
      have works : s.Works u := moves_streamStepWith hp j hstep
      have hlt (hgo : ¬Stops (.ok o)) := streamStepWith_passes_lt hp progressive ha hi hstep hgo
      cases o with
      | emitted token span =>
        cases h
        exact hlt id
      | skipped span =>
        have rest : u.Works t := moves_nextWith (moves_streamStepWith hp j) turns h
        exact (rest.passes_le_on (works.forall_holds progressive)
          (hi.trans_le works.size_le)).trans_lt (hlt id)
      | exhausted => cases h
      | failed f => cases h
    · cases h

/-- Steps of a stream with what comes of them, between which anything may be done. -/
inductive OwnSteps (j : Nat) : Session → List (Except Fault Outcome) → Session → Prop
  | nil {s t : Session} (works : s.Works t) : OwnSteps j s [] t
  | cons {s t u v : Session} {r : Except Fault Outcome} {rs : List (Except Fault Outcome)}
      {depth : Nat} (works : s.Works t) (own : streamStep depth j t = some (r, u))
      (rest : OwnSteps j u rs v) : OwnSteps j s (r :: rs) v

/-- As long as the steps of a stream do not stop, each of them takes a pass. -/
theorem OwnSteps.length_add_le {j : Nat} {rs : List (Except Fault Outcome)}
    (h : OwnSteps j s rs t) (progressive : ∀ table, s.Holds table → table.Progressive)
    {a : Stream} (ha : s.stream? j = some a) (hi : a.cursor < s.cursors.size)
    (hgo : ∀ r ∈ rs, ¬Stops r) :
    rs.length + (t.cursor a.cursor).passes ≤ (s.cursor a.cursor).passes := by
  induction h generalizing a with
  | nil works =>
    rw [List.length_nil, Nat.zero_add]
    exact works.passes_le_on progressive hi
  | @cons s t u v r rs depth works own rest ih =>
    obtain ⟨b, hb, hcursor⟩ := works.stream_kept ha
    have ht := hi.trans_le works.size_le
    rw [← hcursor] at ht hi ⊢
    have hworks := works.passes_le_on progressive hi
    have hlt := streamStepWith_passes_lt (moves_perform depth)
      (works.forall_holds progressive) hb ht own (hgo r List.mem_cons_self)
    have steps : t.Works u := moves_streamStepWith (moves_perform depth) j own
    obtain ⟨c, hc, hcursor'⟩ := steps.stream_kept hb
    have hrest := ih (steps.forall_holds (works.forall_holds progressive)) hc
      (hcursor' ▸ ht.trans_le steps.size_le) fun r hr => hgo r (List.mem_cons_of_mem _ hr)
    rw [hcursor'] at hrest
    rw [List.length_cons]
    omega

end Run

end FirstMatch
