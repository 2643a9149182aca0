import FirstMatch.Proofs.Depth
import FirstMatch.Proofs.EndShared
import FirstMatch.Proofs.MatchCount
import FirstMatch.Proofs.TameRecipes

/-!
Scanning comes to an end. If every match of a pattern takes a character and the actions are tame, then
each request is answered within a depth that the remaining text bounds, however many lexers call each
other on it.
-/

namespace FirstMatch

open Session (Deed)

/-- A session in which scanning ends: it works on its first `n` cursors, on which at most `m` matches
are still possible, and all actions that can be called are tame. -/
structure Session.Orderly (n m : Nat) (s : Session) : Prop where
  size : n ≤ s.cursors.size
  bounded : s.passes n ≤ m
  streams : ∀ j a, s.stream? j = some a → a.cursor < n
  progressive : ∀ table, s.Holds table → table.Progressive
  tame : ∀ table, s.Holds table → ∀ rule ∈ table.rules, ∀ text i span context p, i < n →
    rule.script text i span context = .ok p → p.Tame n (fun _ _ => True) m

/-- A run ends, and in a session in which scanning ends. -/
def Run.Ends {α : Type} (n m : Nat) (x : Run α) (s : Session) : Prop :=
  ∃ r t, x s = some (r, t) ∧ t.Orderly n m

/-- All requests are answered as long as fewer matches are possible than given. -/
def Run.Answers (n m depth most : Nat) : Prop :=
  ∀ s : Session, s.Orderly n m → s.passes n < most → ∀ q : Request, q.Stays n →
    Ends n m (perform depth q) s

namespace Session.Orderly

variable {n m : Nat} {s t : Session}

theorem of_works (hs : s.Orderly n m) (h : s.Works t)
    (streams : ∀ j a, t.stream? j = some a → a.cursor < n) : t.Orderly n m where
  size := hs.size.trans h.size_le
  bounded := (h.passes_le hs.progressive hs.size).trans hs.bounded
  streams := streams
  progressive := h.forall_holds hs.progressive
  tame := h.forall_holds hs.tame

theorem tried (hs : s.Orderly n m) {table : RuleTable} (held : s.Holds table) (i : Nat) :
    (s.tried table i).Orderly n m :=
  hs.of_works (.single (.tried s table held i)) fun j a ha =>
    hs.streams j a (by rwa [stream?, streams_tried] at ha)

/-- What is beside the cursors and streams does not matter. -/
theorem beside (hs : s.Orderly n m) (cursors : t.cursors = s.cursors)
    (streams : t.streams = s.streams) (lexers : t.lexers = s.lexers)
    (engines : t.engines = s.engines) (journal : t.journal = s.journal) : t.Orderly n m :=
  hs.of_works (.single (.beside cursors streams lexers engines journal)) fun j a ha =>
    hs.streams j a (by rwa [stream?, streams] at ha)

theorem setStream (hs : s.Orderly n m) {j : Nat} {a b : Stream} (deed : Deed s (s.setStream j b))
    (ha : s.stream? j = some a) (same : b.cursor = a.cursor) : (s.setStream j b).Orderly n m :=
  hs.of_works (.single deed) fun k c hc => by
    rcases stream?_setStream hc with hc | ⟨rfl, rfl⟩
    · exact hs.streams k c hc
    · exact same ▸ hs.streams _ a ha

end Session.Orderly

namespace Run

variable {α β : Type} {n m depth : Nat} {s : Session}

theorem Ends.bind {x : Run α} {k : α → Run β} (hx : Ends n m x s)
    (hk : ∀ a t, x s = some (.ok a, t) → t.Orderly n m → Ends n m (k a) t) :
    Ends n m (x >>= k) s := by
  obtain ⟨r, t, hr, ht⟩ := hx
  cases r with
  | ok a =>
    obtain ⟨r', u, hu, horderly⟩ := hk a t hr ht
    exact ⟨r', u, (bind_of_ok hr k).trans hu, horderly⟩
  | error f => exact ⟨_, t, bind_of_error hr k, ht⟩

theorem passes_lt_of_advance {t : Session} {i : Nat} {k : Int} {p : Place}
    (hi : i < s.cursors.size) (hk : 0 < k) (h : advance i k s = some (.ok p, t)) :
    (t.cursor i).passes < (s.cursor i).passes := by
  rw [advance_apply] at h
  split at h
  · cases h
  · next hfits =>
    cases h
    rw [Session.cursor_advanced_self hi]
    exact Cursor.passes_move_lt (by omega) (by omega)

/-- A request whose answer tells of progress has taken a pass. -/
theorem passes_lt_of_progress {t : Session} (hs : s.Orderly n m) {q : Request} (hq : q.Stays n)
    {r : Except Fault q.Answer} (h : perform depth q s = some (r, t)) (hr : q.Progress r) :
    t.passes n < s.passes n := by
  have works : s.Works t := moves_perform depth q h
  have onOne {i : Nat} (hi : i < n) (hlt : (t.cursor i).passes < (s.cursor i).passes) :=
    works.passes_lt hs.progressive hs.size hi hlt
  have goesOn {o : Outcome} (ho : o.GoesOn) : ¬Stops (.ok o) := by
    cases o <;> first | exact id | exact ho.elim
  have hsize {i : Nat} (hi : i < n) : i < s.cursors.size := hi.trans_le hs.size
  cases q with
  | advance i k =>
    cases r with
    | error f => exact hr.elim
    | ok p =>
      have hadvance : advance i k s = some (.ok p, t) := by
        cases depth <;> exact h
      exact onOne hq (passes_lt_of_advance (hsize hq) hr hadvance)
  | step name i context =>
    cases r with
    | error f => exact hr.elim
    | ok o =>
      cases depth with
      | zero => cases h
      | succ depth =>
        obtain ⟨table, u, hu, hstep⟩ | ⟨f, -, hf⟩ := bind_eq_some h
        · obtain ⟨rfl, held⟩ := engine_eq_ok hu
          exact onOne hq (stepWith_passes_lt (moves_perform depth) hs.progressive held (hsize hq)
            hstep (goesOn hr))
        · cases hf
  | streamStep j =>
    cases r with
    | error f => exact hr.elim
    | ok o =>
      cases depth with
      | zero => cases h
      | succ depth =>
        have hstep : streamStepWith (perform depth) j s = some (.ok o, t) := h
        obtain ⟨a, ha⟩ := stream_of_streamStepWith hstep
        have hi := hs.streams j a ha
        exact onOne hi (streamStepWith_passes_lt (moves_perform depth) hs.progressive ha (hsize hi)
          hstep (goesOn hr))
  | next j =>
    cases r with
    | error f => exact hr.elim
    | ok e =>
      obtain ⟨pair, rfl⟩ := Option.isSome_iff_exists.mp hr
      cases depth with
      | zero => cases h
      | succ depth =>
        obtain ⟨a, ha, hlt⟩ := nextWith_passes_lt (moves_perform depth) hs.progressive h
        have hi := hs.streams j a ha
        exact onOne hi (hlt (hsize hi))
  | _ => cases r <;> exact hr.elim

theorem ends_script {most : Nat} (hanswers : Answers n m depth most) {p : Script α}
    {Q : α → Nat → Prop} {k : Nat} (hp : p.Tame n Q k) (hs : s.Orderly n m)
    (hk : s.passes n ≤ k) (hmost : s.passes n < most) : Ends n m (p.run (perform depth)) s := by
  induction p generalizing s k with
  | done a => exact ⟨_, s, rfl, hs⟩
  | fail f => exact ⟨_, s, rfl, hs⟩
  | ask q reply ih =>
    obtain ⟨r, t, hr, ht⟩ := hanswers s hs hmost q hp.1
    have hle : t.passes n ≤ s.passes n :=
      (show s.Works t from moves_perform depth q hr).passes_le hs.progressive hs.size
    have hreply := hp.2 r (t.passes n) (hle.trans hk) fun hprogress =>
      (passes_lt_of_progress hs hp.1 hr hprogress).trans_le hk
    obtain ⟨r', u, hu, horderly⟩ := ih r hreply ht le_rfl (hle.trans_lt hmost)
    refine ⟨r', u, ?_, horderly⟩
    unfold Script.run
    rw [bind_of_ok (a := r) (by rw [outcome_apply, hr]; rfl)]
    exact hu
  | stall => exact hp.elim

/-- A step ends if the requests of its action are answered. -/
theorem ends_stepWith (hanswers : Answers n m depth (s.passes n)) (hs : s.Orderly n m)
    {table : RuleTable} (held : s.Holds table) {i : Nat} (hi : i < n) (context : Arguments) :
    Ends n m (table.stepWith (perform depth) i context) s := by
  have ht := hs.tried held i
  unfold Ends
  rw [RuleTable.stepWith_apply]
  cases hattempt : (table.attempt (s.cursor i)).1 with
  | exhausted => exact ⟨_, _, rfl, ht⟩
  | unmatched character location => exact ⟨_, _, rfl, ht.beside rfl rfl rfl rfl rfl⟩
  | overrun o => exact ⟨_, _, rfl, ht⟩
  | tangled => exact ⟨_, _, rfl, ht⟩
  | fired rule text span =>
    have hlt : (s.tried table i).passes n < s.passes n := by
      have works : s.Works (s.tried table i) := .single (.tried s table held i)
      refine works.passes_lt hs.progressive hs.size hi ?_
      rw [Session.cursor_tried_self (hi.trans_le hs.size)]
      exact (hs.progressive table held).passes_lt hattempt
    have hcall : Ends n m (rule.invoke (perform depth) text i span context) (s.tried table i) := by
      unfold CompiledRule.invoke
      cases hscript : rule.script text i span context with
      | error flaw => exact ⟨_, _, rfl, ht⟩
      | ok p =>
        have hp := hs.tame table held rule (RuleTable.mem_of_fired hattempt) text i span context p
          hi hscript
        exact ends_script hanswers hp ht ht.bounded hlt
    obtain ⟨r, u, hu, horderly⟩ := hcall
    simp only [hu]
    cases r with
    | ok v => exact ⟨_, _, rfl, horderly⟩
    | error f =>
      dsimp only
      split
      · exact ⟨_, _, rfl, horderly.beside rfl rfl rfl rfl rfl⟩
      · exact ⟨_, _, rfl, horderly⟩

theorem ends_settle (hs : s.Orderly n m) (j : Nat) (o : Outcome) : Ends n m (settle j o) s := by
  unfold settle Ends
  cases ha : s.stream? j with
  | none => exact ⟨_, s, bind_of_error (stream_of_none ha) _, hs⟩
  | some a =>
    rw [bind_of_ok (stream_of_getElem? ha)]
    cases o with
    | failed f => exact ⟨_, _, rfl, hs.setStream (.streamFailed s j a f ha) ha rfl⟩
    | exhausted => exact ⟨_, _, rfl, hs.setStream (.streamEnded s j a ha) ha rfl⟩
    | emitted token span => exact ⟨_, s, rfl, hs⟩
    | skipped span => exact ⟨_, s, rfl, hs⟩

theorem ends_streamStepWith (hanswers : Answers n m depth (s.passes n)) (hs : s.Orderly n m)
    (j : Nat) : Ends n m (streamStepWith (perform depth) j) s := by
  unfold streamStepWith Ends
  cases ha : s.stream? j with
  | none => exact ⟨_, s, bind_of_error (stream_of_none ha) _, hs⟩
  | some a =>
    rw [bind_of_ok (stream_of_getElem? ha)]
    cases herror : a.error with
    | some f => exact ⟨_, s, rfl, hs⟩
    | none =>
      cases hdone : a.done with
      | true => exact ⟨_, s, rfl, hs⟩
      | false =>
        have held : s.Holds a.table := .inr (.inr ⟨j, a, ha, rfl⟩)
        exact (ends_stepWith hanswers hs held (hs.streams j a ha) a.context).bind
          fun o t _ ht => (ends_settle ht j o).bind fun _ u _ hu => ⟨_, u, rfl, hu⟩

/-- Matches that are skipped take passes, so there are turns enough for a token or the end. -/
theorem ends_nextWith {turns : Nat} (hanswers : Answers n m depth (s.passes n))
    (hs : s.Orderly n m) (hturns : s.passes n < turns) (j : Nat) :
    Ends n m (nextWith (perform depth) j turns) s := by
  induction turns generalizing s with
  | zero => exact absurd hturns (Nat.not_lt_zero _)
  | succ turns ih =>
    unfold nextWith
    refine (ends_streamStepWith hanswers hs j).bind fun o t hstep ht => ?_
    cases o with
    | skipped span =>
      have works : s.Works t := moves_streamStepWith (moves_perform depth) j hstep
      obtain ⟨a, ha⟩ := stream_of_streamStepWith hstep
      have hi := hs.streams j a ha
      have hlt : t.passes n < s.passes n := works.passes_lt hs.progressive hs.size hi
        (streamStepWith_passes_lt (moves_perform depth) hs.progressive ha (hi.trans_le hs.size)
          hstep id)
      exact ih (fun u hu hmost => hanswers u hu (hmost.trans hlt)) ht (by omega)
    | _ => exact ⟨_, t, rfl, ht⟩

theorem ends_find (table : List (String × α)) (name : String) (hs : s.Orderly n m) :
    Ends n m (find table name) s := by
  unfold find
  split
  · exact ⟨_, s, rfl, hs⟩
  · exact ⟨_, s, rfl, hs⟩

theorem ends_engine (name : String) (hs : s.Orderly n m) : Ends n m (engine name) s := by
  unfold Ends engine
  rw [get_bind_apply]
  cases s.engines.lookup name with
  | some table => exact ⟨_, s, rfl, hs⟩
  | none => exact ends_find s.lexers name hs

theorem ends_advance (hs : s.Orderly n m) (i : Nat) (k : Int) : Ends n m (advance i k) s := by
  unfold Ends
  rw [advance_apply]
  split
  · exact ⟨_, s, rfl, hs⟩
  · next hfits =>
    exact ⟨_, _, rfl, hs.of_works (.single (.advanced s i k.toNat (by omega))) hs.streams⟩

theorem ends_openStream (hs : s.Orderly n m) (name : String) {i : Nat} (hi : i < n)
    (context : Arguments) : Ends n m (perform 0 (.openStream name i context)) s := by
  refine (ends_find s.lexers name hs).bind (k := fun table => _) fun table t hfind ht => ?_
  obtain ⟨rfl, hmem⟩ := find_eq_ok hfind
  cases hcall : table.checkCall "__call__" (context.map (·.1)) with
  | error flaw => exact ⟨_, t, rfl, ht⟩
  | ok a =>
    refine ⟨_, _, rfl, ht.of_works (.single (.streamOpened t table (.inl ⟨name, hmem⟩) i context))
      fun j b hb => ?_⟩
    rcases Session.stream?_push _ hb with hb | rfl
    · exact ht.streams j b hb
    · exact hi

/-- By induction on the depth: within a step fewer matches are left, and less depth. -/
theorem answers {most : Nat} (h : most < depth) : Answers n m depth most := by
  induction depth generalizing most with
  | zero => exact absurd h (Nat.not_lt_zero _)
  | succ depth ih =>
    intro s hs hmost q hq
    have hbelow : Answers n m depth (s.passes n) := ih (by omega)
    cases q with
    | advance i k => exact ends_advance hs i k
    | look i => exact ⟨_, s, rfl, hs⟩
    | mark i => exact ⟨_, _, rfl, hs.of_works (.single (.marked s i)) hs.streams⟩
    | cursorNamed name => exact ends_find s.cursorNames name hs
    | openText text => exact hq.elim
    | openStream name i context => exact ends_openStream hs name hq context
    | step name i context =>
      refine (ends_engine name hs).bind fun table t hengine ht => ?_
      obtain ⟨rfl, held⟩ := engine_eq_ok hengine
      exact ends_stepWith hbelow ht held hq context
    | streamStep j => exact ends_streamStepWith hbelow hs j
    | next j => exact ends_nextWith hbelow hs (by omega) j
    | streamNamed name => exact ends_find s.streamNames name hs
    | countCall action => exact ⟨_, _, rfl, hs.beside rfl rfl rfl rfl rfl⟩
    | cite f =>
      obtain ⟨cursors, streams, lexers, engines, journal⟩ := s.cite_same f
      exact ⟨_, _, rfl, hs.beside cursors streams lexers engines journal⟩

/-- Each token takes a pass, so there are turns enough for all tokens. -/
theorem ends_pairsFrom {turns : Nat} (hs : s.Orderly n m) (hdepth : s.passes n < depth)
    (hturns : s.passes n < turns) (j : Nat) (before : List (Value × Span)) :
    Ends n m (pairsFrom depth j turns before) s := by
  induction turns generalizing s before with
  | zero => exact absurd hturns (Nat.not_lt_zero _)
  | succ turns ih =>
    unfold pairsFrom
    refine (ends_nextWith (answers hdepth) hs hdepth j).bind fun e t hnext ht => ?_
    cases e with
    | none => exact ⟨_, t, rfl, ht⟩
    | some e =>
      have works : s.Works t := moves_nextWith (moves_streamStepWith (moves_perform depth) j) depth hnext
      obtain ⟨a, ha, hlt⟩ := nextWith_passes_lt (moves_perform depth) hs.progressive hnext
      have hi := hs.streams j a ha
      have hfewer := works.passes_lt hs.progressive hs.size hi (hlt (hi.trans_le hs.size))
      exact ih ht (by omega) (by omega) _

/-- A run that ends within some depth ends so within all greater ones. -/
theorem ends_alike {x : Nat → Run α} (hbelow : ∀ d e, d ≤ e → (x d).Below (x e)) {least : Nat}
    (h : Ends n m (x least) s) : ∃ r t, ∀ d, least ≤ d → x d s = some (r, t) := by
  obtain ⟨r, t, hr, -⟩ := h
  exact ⟨r, t, fun d hd => hbelow least d hd hr⟩

end Run

/-- If no pattern takes a text without characters, then on each cursor there are at most as many
matches as characters and one, whatever is done with it. If the actions are tame too, then asking for a
token or for all tokens and running a tame script end, alike for all depths from some on. Of the steps
of one stream, whatever is done between them, at most as many go on as there are characters and one.
What stops a stream is the end, a failure, or the error of a match whose groups are tangled, which is
the pattern engine's own. -/
theorem tokenization_terminates {s : Session}
    (progressive : ∀ table, s.Holds table → table.Progressive) :
    (∀ t, s.Works t → ∀ i, i < s.cursors.size →
      ∃ es, Session.entriesOn i t.journal = Session.entriesOn i s.journal ++ es ∧
        es.countP Entry.isMatch ≤ (s.cursor i).ahead.length + 1) ∧
    (∀ n, s.Orderly n (s.passes n) →
      (∀ j, ∃ r t, ∀ depth, s.passes n + 1 ≤ depth → Run.next depth j s = some (r, t)) ∧
      (∀ j, ∃ r t, ∀ depth, s.passes n + 1 ≤ depth → Run.pairs depth j s = some (r, t)) ∧
      ∀ (α : Type) (p : Script α), p.Tame n (fun _ _ => True) (s.passes n) →
        ∃ r t, ∀ depth, s.passes n + 2 ≤ depth → p.run (Run.perform depth) s = some (r, t)) ∧
    ∀ j a, s.stream? j = some a → a.cursor < s.cursors.size → ∀ rs t, Run.OwnSteps j s rs t →
      (s.cursor a.cursor).ahead.length + 2 ≤ rs.length →
        ∃ r ∈ rs, r = .ok .exhausted ∨ (∃ f, r = .ok (.failed f)) ∨ r = .error .tangled := by
  refine ⟨fun t works i hi => ?_, fun n hs => ⟨fun j => ?_, fun j => ?_, fun α p hp => ?_⟩,
    fun j a ha hi rs t steps hlen => ?_⟩
  · obtain ⟨es, hes, hcount⟩ := works.count_add_le Cursor.pays_passes progressive hi
    have hpasses := (s.cursor i).passes_le
    exact ⟨es, hes, by omega⟩
  · exact Run.ends_alike (fun d e h => Run.below_next h j)
      (Run.ends_nextWith (Run.answers (Nat.lt_succ_self _)) hs (Nat.lt_succ_self _) j)
  · exact Run.ends_alike (fun d e h => Run.below_pairs h j)
      (Run.ends_pairsFrom hs (Nat.lt_succ_self _) (Nat.lt_succ_self _) j [])
  · exact Run.ends_alike (fun d e h => Run.below_script (Run.below_perform h) p)
      (Run.ends_script (Run.answers (Nat.lt_succ_self _)) hp hs le_rfl (Nat.lt_succ_self _))
  · by_contra hnone
    have hgo : ∀ r ∈ rs, ¬Run.Stops r := by
      intro r hr hstops
      refine hnone ⟨r, hr, ?_⟩
      unfold Run.Stops at hstops
      split at hstops
      · exact .inl rfl
      · exact .inr (.inl ⟨_, rfl⟩)
      · exact .inr (.inr rfl)
      · exact hstops.elim
    have hpasses := (s.cursor a.cursor).passes_le
    have hcount := steps.length_add_le progressive ha hi hgo
    omega

/-- A session with a stream of remarks before one of them. -/
def remarkStream : Session := { remarkSession with streams := #[⟨remarks, 0, [], false, none⟩] }

theorem remarkStream_holds {table : RuleTable} (h : remarkStream.Holds table) :
    table = remarks ∨ table = remainder := by
  obtain ⟨name, hname⟩ | ⟨name, hname⟩ | ⟨j, a, ha, rfl⟩ := h
  · simp only [remarkStream, remarkSession, List.mem_cons, List.not_mem_nil, or_false,
      Prod.mk.injEq] at hname
    exact hname.imp And.right And.right
  · cases hname
  · cases j with
    | zero =>
      cases ha
      exact .inl rfl
    | succ j => cases ha

/-- The tokens of a remark come to an end, though its action runs another lexer to the end. -/
theorem tokenization_terminates_remark :
    (∀ table, remarkStream.Holds table → table.Progressive) ∧ remarkStream.Orderly 1 3 ∧
    (∃ r t, ∀ depth, 4 ≤ depth → Run.pairs depth 0 remarkStream = some (r, t)) ∧
    ∀ rs t, Run.OwnSteps 0 remarkStream rs t → 4 ≤ rs.length →
      ∃ r ∈ rs, r = .ok .exhausted ∨ (∃ f, r = .ok (.failed f)) ∨ r = .error .tangled := by
  have progressive : ∀ table, remarkStream.Holds table → table.Progressive := by
    intro table held
    rcases remarkStream_holds held with rfl | rfl
    · refine ⟨built_remarks, fun r hr source program htrigger c cs hrun => ?_⟩
      simp only [remarks, List.mem_cons, List.not_mem_nil, or_false] at hr
      rcases hr with rfl | rfl
      · cases htrigger
      · cases htrigger
        exact Trigger.run_single_ne_zero (fun _ _ _ => rfl) 1 (c :: cs) hrun
    · refine ⟨built_remainder, fun r hr source program htrigger => ?_⟩
      obtain rfl := List.mem_singleton.mp hr
      cases htrigger
  have hpasses : remarkStream.passes 1 = 3 := rfl
  have horderly : remarkStream.Orderly 1 3 := by
    refine ⟨by decide, hpasses.le, ?_, progressive, ?_⟩
    · rintro (_ | j) a ha
      · cases ha
        exact Nat.zero_lt_one
      · cases ha
    · intro table held rule hrule text i span context p hi hp
      have unnamed (shape : CallShape) (hkeywords : shape.keywords = [])
          (hany : shape.anyKeyword = false) : shape.select context = [] := by
        simp [CallShape.select, hkeywords, hany]
      unfold CompiledRule.script at hp
      rcases remarkStream_holds held with rfl | rfl
      · simp only [remarks, List.mem_cons, List.not_mem_nil, or_false] at hrule
        rcases hrule with rfl | rfl
        · rw [unnamed _ rfl rfl] at hp
          cases hp
          exact Recipe.tame_action rfl (fun j hj => by cases hj) (by decide)
        · rw [unnamed _ rfl rfl] at hp
          cases hp
          refine Recipe.tame_action rfl (fun j hj => ?_) (by decide)
          cases hj
          exact hi
      · obtain rfl := List.mem_singleton.mp hrule
        rw [unnamed _ rfl rfl] at hp
        cases hp
        trivial
  obtain ⟨-, hends, hsteps⟩ := tokenization_terminates progressive
  obtain ⟨-, hpairs, -⟩ := hends 1 horderly
  exact ⟨progressive, horderly, hpairs 0, hsteps 0 _ rfl (by decide)⟩

end FirstMatch
