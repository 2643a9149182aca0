import FirstMatch.Proofs.StreamFrames
import FirstMatch.Proofs.CollectedTokens
import FirstMatch.Proofs.EndShared

/-!
Streams on one cursor. Several streams of a lexer share a cursor, and steps, tokens and feeds of tokens
are asked of them in any order. Up to the first error, the steps behind these calls are those of one
stream that is stepped alone: no result is read ahead, lost, or given twice.
-/

namespace FirstMatch

namespace Run

/-- What may be called on several streams: a step, the next token with its span, a feed of the tokens of
a stream, and the next token of a feed. -/
inductive Call
  | step (stream : Nat)
  | next (stream : Nat)
  | feed (name : String) (stream : Nat)
  | token (name : String)
deriving DecidableEq

inductive Reply
  | outcome (o : Outcome)
  | pair (pair : Option (Value × Span))
  | made
  | token (token : Option Value)

/-- One call with its reply, and the sessions before and after it. -/
structure Turn where
  before : Session
  call : Call
  reply : Except Fault Reply
  after : Session

namespace Call

def run (depth : Nat) : Call → Run Reply
  | step j => return .outcome (← streamStep depth j)
  | next j => return .pair (← Run.next depth j)
  | feed name j => do
    nameFeed name j
    return .made
  | token name => return .token (← feedNext depth name)

/-- The call is on one of these streams. -/
def On (J : List Nat) (s : Session) : Call → Prop
  | step j => j ∈ J
  | next j => j ∈ J
  | feed _ j => j ∈ J
  | token name => ∃ feed, s.feeds.lookup name = some feed ∧ feed.stream ∈ J

/-- The reply of a call that takes no step. -/
def idle? (s : Session) : Call → Option Reply
  | step _ => none
  | next _ => none
  | feed .. => some .made
  | token name => if (s.feeds.lookup name).any (·.ended) then some (.token none) else none

/-- The reply of a call at the result of a step; with none, the call takes the next step. -/
def reply? (r : Except Fault Outcome) : Call → Option (Except Fault Reply)
  | step _ => some (r.map .outcome)
  | next _ => (Outcome.replied? r).map fun answer => answer.map .pair
  | feed .. => none
  | token _ => (Outcome.replied? r).map fun answer => answer.map fun pair => .token (pair.map (·.1))

end Call

namespace Turn

/-- These are the results of the steps behind a call, of which the last is what the reply is about. -/
def Behind (e : Turn) (rs : List (Except Fault Outcome)) : Prop :=
  match e.call.idle? e.before with
  | some reply => rs = [] ∧ e.reply = .ok reply
  | none => ∃ passed last, rs = passed ++ [last] ∧ (∀ r ∈ passed, e.call.reply? r = none) ∧
      e.call.reply? last = some e.reply

/-- The call has raised an error or reported a failure. -/
def Fails (e : Turn) : Prop := (∃ f, e.reply = .error f) ∨ ∃ f, e.reply = .ok (.outcome (.failed f))

end Turn

/-- Calls on some streams, one after the other and in any order, each of which returns. After one that
fails there is none. -/
def Plays (depth : Nat) (J : List Nat) : Session → List Turn → Prop
  | _, [] => True
  | s, e :: es => e.before = s ∧ e.call.On J s ∧ e.call.run depth s = some (e.reply, e.after) ∧
      (e.Fails → es = []) ∧ Plays depth J e.after es

/-- A stream that is stepped alone comes to the results behind the calls, in the same order, and has its
cursor after those behind one call where that call has left it. -/
def Retraces (perform : Performer) (j : Nat) : Session → List Turn → Prop
  | _, [] => True
  | t, e :: es => ∃ rs u, results perform j rs.length t = some (rs, u) ∧ e.Behind rs ∧
      u.cursors = e.after.cursors ∧ Retraces perform j u es

end Run

namespace Session

variable {s t : Session} {i j : Nat} {a b : Stream}

theorem setStream_self (ha : s.stream? j = some a) : s.setStream j a = s := by
  have hstreams : s.streams.setIfInBounds j a = s.streams := by
    apply Array.ext_getElem?
    intro k
    rw [Array.getElem?_setIfInBounds]
    split
    · next hk =>
      subst hk
      split
      · exact ha.symm
      · next hj => simp [hj]
    · rfl
  unfold setStream
  rw [hstreams]

end Session

/-- The end is reported on an exhausted cursor only. -/
theorem RuleTable.exhausted_of_attempt {table : RuleTable} {c : Cursor}
    (h : (table.attempt c).1 = .exhausted) : (table.attempt c).2.exhausted = true := by
  cases hex : c.exhausted with
  | true =>
    rw [attempt, if_pos hex]
    exact hex
  | false =>
    rw [table.attempt_eq hex] at h ⊢
    cases hlead : table.leading c.ahead with
    | none =>
      rw [hlead] at h
      cases ha : c.ahead with
      | nil => simp [Cursor.markIfEmpty, Cursor.isEmpty, ha]
      | cons x xs =>
        rw [ha] at h
        cases h
    | some found =>
      obtain ⟨k, r, m⟩ := found
      rw [hlead] at h
      cases m <;> cases h

namespace Session

/-- Of two sessions, one goes on with several streams of a table on a cursor, and the other with one of
them. But for the records of these streams and for feeds they are the same, and a stream has ended only
where the cursor is exhausted. -/
structure InStep (J : List Nat) (names : List (String × Nat)) (table : RuleTable)
    (context : Arguments) (i j₀ : Nat) (s t : Session) : Prop where
  leaves : t.LeavesAlone J names
  cursor : i < t.cursors.size
  shared : ∃ φ feeds, s = t.revised J φ feeds ∧
    ∀ j ∈ J, ∃ done, φ j = ⟨table, i, context, done, none⟩ ∧
      (done = true → (t.cursor i).exhausted = true)
  alone : ∃ done, t.stream? j₀ = some ⟨table, i, context, done, none⟩ ∧
    (done = true → (t.cursor i).exhausted = true)

end Session

namespace Run

variable {perform : Performer} {s t s' : Session} {i j j₀ : Nat} {table : RuleTable}
  {context : Arguments} {J : List Nat} {names : List (String × Nat)} {r : Except Fault Outcome}

theorem streamStepWith_of_exhausted {done : Bool}
    (ha : s.stream? j = some ⟨table, i, context, done, none⟩)
    (hex : (s.cursor i).exhausted = true) : streamStepWith perform j s =
      some (.ok .exhausted, s.setStream j ⟨table, i, context, true, none⟩) := by
  cases done with
  | true => rw [streamStepWith_of_answer ha rfl, Session.setStream_self ha]
  | false =>
    have hattempt : (table.attempt (s.cursor i)).1 = .exhausted := by
      rw [RuleTable.attempt, if_pos hex]
    rw [streamStepWith_of_live ha rfl, RuleTable.stepWith_apply]
    dsimp only
    rw [hattempt]
    dsimp only
    rw [Session.tried_of_exhausted hex, ha]
    rfl

/-- A record that is written afterwards is the one that counts. -/
theorem setStream_revised_of_mem {φ : Nat → Stream} {feeds : List (String × Feed)} (b c : Stream)
    (hj : j ∈ J) (hj₀ : j₀ ∈ J) : (t.revised J φ feeds).setStream j b =
      (t.setStream j₀ c).revised J (fun k => if k = j then b else φ k) feeds := by
  have hstreams : ((t.revised J φ feeds).setStream j b).streams =
      ((t.setStream j₀ c).revised J (fun k => if k = j then b else φ k) feeds).streams := by
    apply Array.ext_getElem?
    intro k
    simp only [Session.setStream, Session.revised, Array.getElem?_setIfInBounds,
      Array.getElem?_mapIdx, Array.size_mapIdx]
    by_cases hk : k ∈ J
    · by_cases hkj : j = k
      · subst hkj
        by_cases hsize : j < t.streams.size <;> by_cases hjj : j₀ = j <;> simp [hk, hsize, hjj]
      · by_cases hjk : j₀ = k
        · subst hjk
          by_cases hsize : j₀ < t.streams.size <;> simp [hk, hsize, hkj, Ne.symm hkj]
        · simp [hk, hkj, hjk, Ne.symm hkj]
    · have hkj : j ≠ k := fun h => hk (h ▸ hj)
      have hjk : j₀ ≠ k := fun h => hk (h ▸ hj₀)
      simp [hk, hkj, hjk]
  simp only [Session.setStream, Session.revised] at hstreams ⊢
  rw [hstreams]

end Run

namespace Session.InStep

variable {s t s' : Session} {i j j₀ depth : Nat} {table : RuleTable} {context : Arguments}
  {J : List Nat} {names : List (String × Nat)} {r : Except Fault Outcome}

/-- Both streams record the end. -/
theorem ended (h : InStep J names table context i j₀ s t) (hj : j ∈ J) (hj₀ : j₀ ∈ J)
    (hex : (t.cursor i).exhausted = true) :
    InStep J names table context i j₀ (s.setStream j ⟨table, i, context, true, none⟩)
      (t.setStream j₀ ⟨table, i, context, true, none⟩) := by
  obtain ⟨φ, feeds, rfl, hφ⟩ := h.shared
  obtain ⟨done₀, halone, -⟩ := h.alone
  constructor
  · exact h.leaves.deed (.streamEnded t j₀ _ halone) rfl (by simp [setStream])
  · exact h.cursor
  · refine ⟨_, feeds, Run.setStream_revised_of_mem _ _ hj hj₀, fun k hk => ?_⟩
    by_cases hkj : k = j
    · exact ⟨true, if_pos hkj, fun _ => hex⟩
    · obtain ⟨done, hdone, -⟩ := hφ k hk
      exact ⟨done, (if_neg hkj).trans hdone, fun _ => hex⟩
  · exact ⟨true, Run.stream_setStream halone _, fun _ => hex⟩

/-- Before the end no stream has recorded one. -/
theorem records_of_live (h : InStep J names table context i j₀ s t)
    (hex : (t.cursor i).exhausted = false) :
    (∃ φ feeds, s = t.revised J φ feeds ∧ ∀ j ∈ J, φ j = ⟨table, i, context, false, none⟩) ∧
      t.stream? j₀ = some ⟨table, i, context, false, none⟩ := by
  have goesOn {done : Bool} (hdone : done = true → (t.cursor i).exhausted = true) :
      done = false := by
    rw [hex] at hdone
    simpa using hdone
  constructor
  · obtain ⟨φ, feeds, hs, hφ⟩ := h.shared
    refine ⟨φ, feeds, hs, fun j hj => ?_⟩
    obtain ⟨done, hrecord, hdone⟩ := hφ j hj
    rw [hrecord, goesOn hdone]
  · obtain ⟨done, halone, hdone⟩ := h.alone
    rw [halone, goesOn hdone]

/-- A step of the table does the same in both sessions, and leaves them in step. -/
theorem stepWith (h : InStep J names table context i j₀ s t) (hj₀ : j₀ ∈ J)
    (halone : t.stream? j₀ = some ⟨table, i, context, false, none⟩) {φ : Nat → Stream}
    {feeds : List (String × Feed)} (hs : s = t.revised J φ feeds)
    (hφ : ∀ j ∈ J, φ j = ⟨table, i, context, false, none⟩) (depth : Nat) :
    table.stepWith (Run.perform depth) i context s =
        (table.stepWith (Run.perform depth) i context t).map
          (fun p => (p.1, p.2.revised J φ feeds)) ∧
      ∀ q u, table.stepWith (Run.perform depth) i context t = some (q, u) →
        InStep J names table context i j₀ (u.revised J φ feeds) u ∧
          u.stream? j₀ = some ⟨table, i, context, false, none⟩ := by
  have held : t.Holds table := .inr (.inr ⟨j₀, _, halone, rfl⟩)
  have frames (φ : Nat → Stream) (feeds : List (String × Feed)) : Run.Frames J names φ feeds
      (table.stepWith (Run.perform depth) i context) t :=
    Run.frames_stepWith (fun q s hq hs => Run.frames_perform depth hq hs) held h.leaves i context
  constructor
  · rw [hs]
    exact (frames φ feeds).same
  · intro q u hrun
    have hu := (frames φ feeds).stays q u hrun
    have hown : u.stream? j₀ = some ⟨table, i, context, false, none⟩ := by
      have present (k : Nat) (hk : k ∈ J) : t.stream? k = some ((t.stream? k).getD
          ⟨table, i, context, false, none⟩) := by
        simp [stream?, h.leaves.present k hk]
      rw [(frames _ t.feeds).stream?_eq present hrun hj₀, halone]
    refine ⟨?_, hown⟩
    constructor
    · exact hu
    · exact h.cursor.trans_le (Works.size_le
        (Run.works_stepWith (Run.moves_perform depth) held hrun))
    · exact ⟨φ, feeds, rfl, fun k hk => ⟨false, hφ k hk, fun h => absurd h Bool.false_ne_true⟩⟩
    · exact ⟨false, hown, fun h => absurd h Bool.false_ne_true⟩

/-- Where the cursor is exhausted, a step of either stream reports the end. -/
theorem step_of_exhausted (h : InStep J names table context i j₀ s t) (hj : j ∈ J) (hj₀ : j₀ ∈ J)
    (hex : (t.cursor i).exhausted = true)
    (hstep : Run.streamStepWith (Run.perform depth) j s = some (r, s')) :
    ∃ t', Run.streamStepWith (Run.perform depth) j₀ t = some (r, t') ∧ t'.cursors = s'.cursors ∧
      InStep J names table context i j₀ s' t' := by
  obtain ⟨φ, feeds, hs, hφ⟩ := h.shared
  obtain ⟨done, hrecord, -⟩ := hφ j hj
  obtain ⟨done₀, halone, -⟩ := h.alone
  have hshared : s.stream? j = some ⟨table, i, context, done, none⟩ := by
    rw [hs, stream?_revised_of_mem hj (h.leaves.present j hj), hrecord]
  have hexs : (s.cursor i).exhausted = true := by
    rw [hs]
    exact hex
  rw [Run.streamStepWith_of_exhausted hshared hexs] at hstep
  cases hstep
  refine ⟨_, Run.streamStepWith_of_exhausted halone hex, ?_, h.ended hj hj₀ hex⟩
  rw [hs]
  rfl

/-- Elsewhere both take a step of the table, and record the same. -/
theorem step_of_live (h : InStep J names table context i j₀ s t) (hj : j ∈ J) (hj₀ : j₀ ∈ J)
    (hex : (t.cursor i).exhausted = false)
    (hstep : Run.streamStepWith (Run.perform depth) j s = some (r, s')) :
    ∃ t', Run.streamStepWith (Run.perform depth) j₀ t = some (r, t') ∧ t'.cursors = s'.cursors ∧
      ((∀ f, r ≠ .ok (.failed f)) → InStep J names table context i j₀ s' t') := by
  obtain ⟨⟨φ, feeds, hs, hφ⟩, halone⟩ := h.records_of_live hex
  obtain ⟨hsame, hafter⟩ := h.stepWith hj₀ halone hs hφ depth
  have hshared : s.stream? j = some ⟨table, i, context, false, none⟩ := by
    rw [hs, stream?_revised_of_mem hj (h.leaves.present j hj), hφ j hj]
  have hlive : Run.streamStepWith (Run.perform depth) j₀ t = _ :=
    Run.streamStepWith_of_live halone rfl
  rw [Run.streamStepWith_of_live hshared rfl] at hstep
  dsimp only at hstep hlive
  rw [hsame] at hstep
  cases hrun : table.stepWith (Run.perform depth) i context t with
  | none =>
    rw [hrun] at hstep
    cases hstep
  | some p =>
    obtain ⟨q, u⟩ := p
    rw [hrun] at hstep hlive
    obtain ⟨hgoes, hown⟩ := hafter q u hrun
    cases q with
    | error f =>
      cases hstep
      exact ⟨u, hlive, rfl, fun _ => hgoes⟩
    | ok o =>
      have hrevised : (u.revised J φ feeds).stream? j = some ⟨table, i, context, false, none⟩ := by
        rw [stream?_revised_of_mem hj (hgoes.leaves.present j hj), hφ j hj]
      simp only [Option.map_some, hrevised] at hstep
      simp only [hown] at hlive
      cases hstep
      refine ⟨_, hlive, ?_, fun hne => ?_⟩
      · cases o <;> rfl
      · cases o with
        | failed f => exact absurd rfl (hne f)
        | exhausted =>
          apply hgoes.ended hj hj₀
          rw [Run.tried_of_stepWith_exhausted hrun, cursor_tried_self h.cursor]
          exact RuleTable.exhausted_of_attempt (RuleTable.attempt_of_stepWith_exhausted hrun)
        | emitted token span => exact hgoes
        | skipped span => exact hgoes

/-- A step of one of the streams is a step of the one that is called alone. -/
theorem step (h : InStep J names table context i j₀ s t) (hj : j ∈ J) (hj₀ : j₀ ∈ J)
    (hstep : Run.streamStepWith (Run.perform depth) j s = some (r, s')) :
    ∃ t', Run.streamStepWith (Run.perform depth) j₀ t = some (r, t') ∧ t'.cursors = s'.cursors ∧
      ((∀ f, r ≠ .ok (.failed f)) → InStep J names table context i j₀ s' t') := by
  cases hex : (t.cursor i).exhausted with
  | true =>
    obtain ⟨t', halone, hcursors, hgoes⟩ := h.step_of_exhausted hj hj₀ hex hstep
    exact ⟨t', halone, hcursors, fun _ => hgoes⟩
  | false => exact h.step_of_live hj hj₀ hex hstep

/-- So are several steps, of which only the last may fail. -/
theorem results (h : InStep J names table context i j₀ s t) (hj : j ∈ J) (hj₀ : j₀ ∈ J)
    {spans : List Span} (hsteps : Run.results (Run.perform depth) j (spans.length + 1) s =
      some (Outcome.skips spans ++ [r], s')) :
    ∃ t', Run.results (Run.perform depth) j₀ (spans.length + 1) t =
        some (Outcome.skips spans ++ [r], t') ∧
      t'.cursors = s'.cursors ∧
      ((∀ f, r ≠ .ok (.failed f)) → InStep J names table context i j₀ s' t') := by
  induction spans generalizing s t with
  | nil =>
    obtain ⟨u, hstep, hrest⟩ := Run.results_eq_cons hsteps
    cases hrest
    obtain ⟨t', halone, hcursors, hgoes⟩ := h.step hj hj₀ hstep
    refine ⟨t', ?_, hcursors, hgoes⟩
    rw [List.length_nil, Nat.zero_add, Run.results_succ_of_some halone]
    rfl
  | cons span spans ih =>
    obtain ⟨u, hstep, hrest⟩ := Run.results_eq_cons hsteps
    obtain ⟨v, halone, -, hgoes⟩ := h.step hj hj₀ hstep
    obtain ⟨t', hrest', hcursors, hgoes'⟩ := ih (hgoes nofun) hrest
    refine ⟨t', ?_, hcursors, hgoes'⟩
    rw [List.length_cons, Run.results_succ_of_some halone, hrest']
    rfl

/-- Feeds do not matter. -/
theorem withFeeds (h : InStep J names table context i j₀ s t) (feeds : List (String × Feed)) :
    InStep J names table context i j₀ { s with feeds := feeds } t := by
  obtain ⟨φ, feeds', hs, hφ⟩ := h.shared
  exact ⟨h.leaves, h.cursor, ⟨φ, feeds, by rw [hs]; rfl, hφ⟩, h.alone⟩

/-- The steps behind a token. -/
theorem next (h : InStep J names table context i j₀ s t) (hj : j ∈ J) (hj₀ : j₀ ∈ J)
    {answer : Except Fault (Option (Value × Span))}
    (hnext : Run.next depth j s = some (answer, s')) :
    ∃ spans last t', Run.results (Run.perform depth) j₀ (spans.length + 1) t =
        some (Outcome.skips spans ++ [last], t') ∧
      Outcome.replied? last = some answer ∧ t'.cursors = s'.cursors ∧
      ((∀ f, answer ≠ .error f) → InStep J names table context i j₀ s' t') := by
  obtain ⟨spans, last, hsteps, hlast⟩ := Run.results_of_nextWith hnext
  obtain ⟨t', hsteps', hcursors, hgoes⟩ := h.results hj hj₀ hsteps
  refine ⟨spans, last, t', hsteps', hlast, hcursors, fun hanswer => hgoes fun f hf => ?_⟩
  rw [hf] at hlast
  exact hanswer f (Option.some.inj hlast).symm

end Session.InStep

namespace Run

variable {α β : Type} {s t s' : Session} {i j j₀ depth : Nat} {table : RuleTable}
  {context : Arguments} {J : List Nat} {names : List (String × Nat)} {name : String}

theorem map_eq_some {x : Run α} {g : α → β} {r : Except Fault β}
    (h : (x >>= fun a => pure (g a)) s = some (r, t)) :
    ∃ q, x s = some (q, t) ∧ r = q.map g := by
  obtain ⟨a, u, hx, hr⟩ | ⟨f, hx, rfl⟩ := bind_eq_some h
  · cases hr
    exact ⟨.ok a, hx, rfl⟩
  · exact ⟨.error f, hx, rfl⟩

/-- A feed that has not ended asks its stream, and ends with it. -/
theorem feedNext_of_live {feed : Feed} (hfeed : s.feeds.lookup name = some feed)
    (hlive : feed.ended = false) {r : Except Fault (Option Value)}
    (h : feedNext depth name s = some (r, t)) :
    ∃ answer u feeds, next depth feed.stream s = some (answer, u) ∧
      r = answer.map (fun pair => pair.map (·.1)) ∧ t = { u with feeds := feeds } := by
  have hfind : find s.feeds name s = some (.ok feed, s) := by
    rw [find_apply, hfeed]
  unfold feedNext at h
  rw [get_bind_apply, bind_of_ok hfind, hlive] at h
  simp only [Bool.false_eq_true, ↓reduceIte] at h
  rw [bind_apply, outcome_apply] at h
  cases hnext : next depth feed.stream s with
  | none =>
    rw [hnext] at h
    cases h
  | some p =>
    obtain ⟨answer, u⟩ := p
    rw [hnext] at h
    cases answer with
    | error f =>
      cases h
      exact ⟨_, u, _, rfl, rfl, rfl⟩
    | ok pair =>
      cases pair with
      | none =>
        cases h
        exact ⟨_, u, _, rfl, rfl, rfl⟩
      | some pair =>
        cases h
        exact ⟨_, u, u.feeds, rfl, rfl, rfl⟩

/-- The steps behind a call for a token, taken by the stream that is called alone. -/
theorem turn_of_answer {e : Turn} {give : Option (Value × Span) → Reply}
    {answer : Except Fault (Option (Value × Span))} {feeds : List (String × Feed)}
    (h : Session.InStep J names table context i j₀ e.before t) (hj : j ∈ J) (hj₀ : j₀ ∈ J)
    (hidle : e.call.idle? e.before = none)
    (hcall : ∀ r, e.call.reply? r = (Outcome.replied? r).map fun answer => answer.map give)
    (hnext : next depth j e.before = some (answer, s')) (hreply : e.reply = answer.map give)
    (hafter : e.after = { s' with feeds := feeds }) :
    ∃ rs u, results (perform depth) j₀ rs.length t = some (rs, u) ∧ e.Behind rs ∧
      u.cursors = e.after.cursors ∧
      (¬e.Fails → Session.InStep J names table context i j₀ e.after u) := by
  obtain ⟨spans, last, t', hsteps, hlast, hcursors, hgoes⟩ := h.next hj hj₀ hnext
  refine ⟨Outcome.skips spans ++ [last], t', ?_, ?_, ?_, fun hfails => ?_⟩
  · rw [List.length_append, Outcome.skips, List.length_map]
    exact hsteps
  · unfold Turn.Behind
    rw [hidle]
    refine ⟨Outcome.skips spans, last, rfl, fun r hr => ?_, ?_⟩
    · obtain ⟨span, -, rfl⟩ := List.mem_map.mp hr
      rw [hcall]
      rfl
    · rw [hcall, hlast, hreply]
      rfl
  · rw [hcursors, hafter]
  · rw [hafter]
    refine (hgoes fun f hf => hfails (.inl ⟨f, ?_⟩)).withFeeds feeds
    rw [hreply, hf]
    rfl

/-- The steps behind one call. -/
theorem exists_results_of_turn {e : Turn} (h : Session.InStep J names table context i j₀ e.before t) (hj₀ : j₀ ∈ J)
    (hon : e.call.On J e.before) (hrun : e.call.run depth e.before = some (e.reply, e.after)) :
    ∃ rs u, results (perform depth) j₀ rs.length t = some (rs, u) ∧ e.Behind rs ∧
      u.cursors = e.after.cursors ∧
      (¬e.Fails → Session.InStep J names table context i j₀ e.after u) := by
  obtain ⟨s, call, reply, s'⟩ := e
  obtain ⟨φ, feeds, hs, -⟩ := h.shared
  dsimp only at h hs hon hrun
  have hcursors : t.cursors = s.cursors := by rw [hs]; rfl
  cases call with
  | step j =>
    obtain ⟨r, hstep, rfl⟩ := map_eq_some hrun
    obtain ⟨t', halone, hcursors, hgoes⟩ := h.step hon hj₀ hstep
    refine ⟨[r], t', ?_, ?_, hcursors, fun hfails => hgoes fun f hf => ?_⟩
    · rw [List.length_singleton, results_succ_of_some halone]
      rfl
    · exact ⟨[], r, rfl, nofun, rfl⟩
    · subst hf
      exact hfails (.inr ⟨f, rfl⟩)
  | next j =>
    obtain ⟨answer, hnext, rfl⟩ := map_eq_some hrun
    exact turn_of_answer h hon hj₀ rfl (fun _ => rfl) hnext rfl rfl
  | feed name j =>
    cases hrun
    exact ⟨[], t, rfl, ⟨rfl, rfl⟩, hcursors, fun _ => h.withFeeds _⟩
  | token name =>
    obtain ⟨feed, hfeed, hmem⟩ := hon
    obtain ⟨r, hnext, rfl⟩ := map_eq_some hrun
    cases hended : feed.ended with
    | true =>
      have hidle : (Call.token name).idle? s = some (.token none) := by
        simp only [Call.idle?, hfeed, Option.any_some, hended, ↓reduceIte]
      have hfind : find s.feeds name s = some (.ok feed, s) := by
        rw [find_apply, hfeed]
      unfold feedNext at hnext
      rw [get_bind_apply, bind_of_ok hfind, hended] at hnext
      cases hnext
      refine ⟨[], t, rfl, ?_, hcursors, fun _ => h⟩
      unfold Turn.Behind
      dsimp only
      rw [hidle]
      exact ⟨rfl, rfl⟩
    | false =>
      have hidle : (Call.token name).idle? s = none := by
        simp [Call.idle?, hfeed, hended]
      obtain ⟨answer, u, feeds, hanswer, rfl, rfl⟩ := feedNext_of_live hfeed hended hnext
      refine turn_of_answer h hmem hj₀ hidle (fun _ => rfl) hanswer ?_ rfl
      cases answer <;> rfl

/-- The steps behind all calls. -/
theorem retraces {turns : List Turn} (h : Session.InStep J names table context i j₀ s t)
    (hj₀ : j₀ ∈ J) (hplays : Plays depth J s turns) : Retraces (perform depth) j₀ t turns := by
  induction turns generalizing s t with
  | nil => trivial
  | cons e es ih =>
    obtain ⟨rfl, hon, hrun, hlast, hrest⟩ := hplays
    obtain ⟨rs, u, hresults, hbehind, hcursors, hgoes⟩ := exists_results_of_turn h hj₀ hon hrun
    refine ⟨rs, u, hresults, hbehind, hcursors, ?_⟩
    by_cases hfails : e.Fails
    · rw [hlast hfails]
      trivial
    · exact ih (hgoes hfails) hrest

end Run

/-- Several streams of a lexer are opened on one cursor, and no action uses them. Then the steps behind
steps, tokens and feeds that are asked of them in any order are those of one of the streams, stepped
alone, and every call leaves the cursor where the last step behind it does. Collecting the tokens of a
stream, at any moment, takes all its steps up to the end or to an error, and gives what was not skipped
or raises the error. -/
theorem shared_streams_are_one {J : List Nat} {table : RuleTable} {context : Arguments} {i : Nat}
    {s₀ : Session} (leaves : s₀.LeavesAlone J s₀.streamNames) (hi : i < s₀.cursors.size)
    (hopen : ∀ j ∈ J, s₀.stream? j = some ⟨table, i, context, false, none⟩) (depth : Nat) :
    (∀ j₀ ∈ J, ∀ turns, Run.Plays depth J s₀ turns →
      Run.Retraces (Run.perform depth) j₀ s₀ turns) ∧
    ∀ j s,
      (∀ r t, Run.pairs depth j s = some (r, t) →
        ∃ os last, Run.RunsTo (Run.perform depth) j os last s t ∧
          Run.collected? (os.filterMap Outcome.pair?) last = some r) ∧
      (∀ os last r t, Run.RunsTo (Run.perform depth) j os last s t →
        Run.collected? (os.filterMap Outcome.pair?) last = some r →
        ∀ depth', depth ≤ depth' → os.length + 1 < depth' → Run.pairs depth' j s = some (r, t)) ∧
      Run.tokens depth j s = (Run.pairs depth j s).map fun p =>
        (p.1.map fun pairs => pairs.map (·.1), p.2) := by
  constructor
  · intro j₀ hj₀ turns hplays
    have hself : s₀.revised J (fun _ => ⟨table, i, context, false, none⟩) s₀.feeds = s₀ :=
      Session.revised_eq_self hopen
    have hstart : Session.InStep J s₀.streamNames table context i j₀ s₀ s₀ :=
      ⟨leaves, hi, ⟨_, s₀.feeds, hself.symm, fun j hj => ⟨false, rfl, nofun⟩⟩,
        ⟨false, hopen j₀ hj₀, nofun⟩⟩
    exact Run.retraces hstart hj₀ hplays
  · intro j s
    refine ⟨fun r t h => Run.runsTo_of_pairsFrom h, fun os last r t h hlast depth' hdepth hlong => ?_,
      Run.tokens_apply depth j s⟩
    obtain ⟨turns, rfl⟩ := Nat.exists_eq_add_one.mpr (Nat.zero_lt_of_lt hlong)
    have hruns : Run.RunsTo (Run.perform (turns + 1)) j os last s t :=
      ⟨Run.below_results hdepth j _ h.1, h.2⟩
    unfold Run.pairs Run.pairsFrom
    exact Run.collect_of_runsTo hruns hlast (Nat.lt_of_succ_lt_succ hlong) (Nat.lt_of_succ_lt hlong)
      (Nat.lt_of_succ_lt hlong)

namespace Recipe

variable {J : List Nat} {names : List (String × Nat)} {b : Bound}

theorem avoids_cursorOf : (cursorOf b).Avoids J names := by
  unfold cursorOf
  cases b.cursor? <;> trivial

theorem avoids_joinFrom (index : Nat) (vs : List Value) : (joinFrom index vs).Avoids J names := by
  induction vs generalizing index with
  | nil => trivial
  | cons v vs ih =>
    unfold joinFrom
    split
    · trivial
    · next heq =>
      cases heq
      exact (ih _).bind fun _ => trivial
    · trivial

/-- Collecting tokens uses the stream that it has opened, and no other. -/
theorem avoids_collect (turns : Nat) (run : SubRun) : (collect turns run b).Avoids J names := by
  refine avoids_cursorOf.bind fun i => ?_
  refine Script.avoids_request_bind (fun h => h) fun stream hstream => ?_
  refine (Script.avoids_iterate (fun kept => ?_) turns []).bind fun kept => ?_
  · refine Script.avoids_request_bind hstream fun e _ => ?_
    cases e with
    | none =>
      dsimp only
      split <;> trivial
    | some pair => exact Script.avoids_ite trivial (Script.avoids_ite trivial trivial)
  · exact Script.avoids_ite ((avoids_joinFrom 0 _).bind fun _ => trivial) trivial

end Recipe

/-- A letter, blanks that are skipped, and remarks. -/
def notes : RuleTable := ⟨[
  ⟨0, .regex .pattern ['a'] ⟨.char 97 .exact, 1⟩, .string, ⟨1, [], [], false⟩⟩,
  ⟨1, .whitespace, .skip, ⟨1, [], [], false⟩⟩,
  ⟨2, .regex .pattern ['#'] ⟨.char 35 .exact, 1⟩, remark, ⟨2, [], [], false⟩⟩]⟩

/-- A session with two streams on one cursor before a letter and a remark. -/
def notesSession : Session :=
  { Session.empty with
    cursors := #[.ofText ['a', ' ', '#', 'b']]
    streams := #[⟨notes, 0, [], false, none⟩, ⟨notes, 0, [], false, none⟩]
    lexers := [("remainder", remainder)] }

theorem notesSession_leavesAlone : notesSession.LeavesAlone [0, 1] [] where
  avoids := by
    have hnotes : notes.Avoids [0, 1] [] := by
      intro r hr b
      simp only [notes, List.mem_cons, List.not_mem_nil, or_false] at hr
      rcases hr with rfl | rfl | rfl
      · trivial
      · trivial
      · exact Script.avoids_request_bind (fun h => h) fun _ _ => Recipe.avoids_collect 4 _
    rintro table (⟨name, hname⟩ | ⟨name, hname⟩ | ⟨j, a, ha, rfl⟩)
    · simp only [notesSession, List.mem_cons, List.not_mem_nil, or_false, Prod.mk.injEq] at hname
      obtain ⟨-, rfl⟩ := hname
      intro r hr b
      obtain rfl := List.mem_singleton.mp hr
      trivial
    · cases hname
    · match j, ha with
      | 0, ha => cases ha; exact hnotes
      | 1, ha => cases ha; exact hnotes
  named := rfl
  present := by decide

namespace Run

/-- Calls as they go, one after the other. -/
def Call.turns (depth : Nat) : Session → List Call → List Turn
  | _, [] => []
  | s, call :: calls =>
    match call.run depth s with
    | none => []
    | some (reply, t) => ⟨s, call, reply, t⟩ :: turns depth t calls

/-- Whether a call was on one of these streams and has not failed. -/
def Turn.succeeds (J : List Nat) (e : Turn) : Bool :=
  (match e.call with
    | .step j => J.contains j
    | .next j => J.contains j
    | .feed _ j => J.contains j
    | .token name => (e.before.feeds.lookup name).any fun feed => J.contains feed.stream) &&
  match e.reply with
    | .error _ => false
    | .ok (.outcome (.failed _)) => false
    | .ok _ => true

theorem Turn.on_of_succeeds {J : List Nat} {e : Turn} (h : e.succeeds J = true) :
    e.call.On J e.before ∧ ¬e.Fails := by
  obtain ⟨s, call, reply, t⟩ := e
  obtain ⟨hcall, hreply⟩ := (Bool.and_eq_true _ _).mp h
  constructor
  · cases call with
    | token name =>
      obtain ⟨feed, hfeed, hmem⟩ := (Option.any_eq_true _ _).mp hcall
      exact ⟨feed, hfeed, List.contains_iff_mem.mp hmem⟩
    | _ => exact List.contains_iff_mem.mp hcall
  · rintro (⟨f, rfl⟩ | ⟨f, rfl⟩)
    · cases hreply
    · cases hreply

theorem plays_turns {depth : Nat} {J : List Nat} {s : Session} {calls : List Call}
    (h : (Call.turns depth s calls).all (Turn.succeeds J) = true) :
    Plays depth J s (Call.turns depth s calls) := by
  induction calls generalizing s with
  | nil => trivial
  | cons call calls ih =>
    unfold Call.turns at h ⊢
    cases hrun : call.run depth s with
    | none => trivial
    | some p =>
      obtain ⟨reply, t⟩ := p
      rw [hrun] at h
      obtain ⟨hturn, hrest⟩ := (Bool.and_eq_true _ _).mp h
      obtain ⟨hon, hfails⟩ := Turn.on_of_succeeds hturn
      exact ⟨rfl, hon, hrun, fun hfailed => absurd hfailed hfails, ih hrest⟩

end Run

/-- Whether a reply brings a token. -/
def Run.Reply.bringsToken : Except Fault Run.Reply → Bool
  | .ok (.outcome (.emitted ..)) => true
  | .ok (.pair (some _)) => true
  | .ok (.token (some _)) => true
  | _ => false

/-- Behind the letter that one stream has read the feed of the other passes over the blank and brings the
remark, and nothing is left. -/
theorem shared_streams_are_one_notes :
    ∃ turns, Run.Plays 6 [0, 1] notesSession turns ∧
      turns.map (fun e => e.call) = [.feed "tokens" 1, .step 0, .token "tokens", .next 0] ∧
      turns.map (fun e => Run.Reply.bringsToken e.reply) = [false, true, true, false] ∧
      Run.Retraces (Run.perform 6) 0 notesSession turns := by
  have hplays : Run.Plays 6 [0, 1] notesSession (Run.Call.turns 6 notesSession
      [.feed "tokens" 1, .step 0, .token "tokens", .next 0]) :=
    Run.plays_turns (by decide +kernel)
  refine ⟨_, hplays, by decide +kernel, by decide +kernel, ?_⟩
  have hi : 0 < notesSession.cursors.size := by decide
  have hopen : ∀ j ∈ [0, 1], notesSession.stream? j = some ⟨notes, 0, [], false, none⟩ := by
    intro j hj
    simp only [List.mem_cons, List.not_mem_nil, or_false] at hj
    rcases hj with rfl | rfl <;> rfl
  exact (shared_streams_are_one notesSession_leavesAlone hi hopen 6).1 0 List.mem_cons_self _ hplays

end FirstMatch
