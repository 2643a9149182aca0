import FirstMatch.Proofs.StreamSteps

/-!
Streams that are left alone. A script that never asks for a step or a token of some streams does not see
what these streams have recorded, nor what feeds there are: with other records it does the same, and it
leaves the records as they are. The one equation for both is that running the script and putting other
records in place commute.
-/

namespace FirstMatch

namespace Request

/-- The request is for a step or a token of one of the streams. -/
def UsesStream (J : List Nat) : Request → Prop
  | streamStep j => j ∈ J
  | next j => j ∈ J
  | _ => False

/-- The answer is one that there can be, by the names that streams have: a stream that has just been
opened is none of those that there were. -/
def Admits (J : List Nat) (names : List (String × Nat)) : (q : Request) → Except Fault q.Answer → Prop
  | openStream .., .ok j => j ∉ J
  | streamNamed name, .ok j => (name, j) ∈ names
  | _, _ => True

end Request

/-- The script never uses one of the streams, whichever answers it gets. -/
def Script.Avoids {α : Type} (J : List Nat) (names : List (String × Nat)) : Script α → Prop
  | done _ => True
  | fail _ => True
  | ask q reply => ¬q.UsesStream J ∧ ∀ answer, q.Admits J names answer → (reply answer).Avoids J names
  | stall => True

namespace Script

variable {α β σ : Type} {J : List Nat} {names : List (String × Nat)}

theorem Avoids.bind {p : Script α} {k : α → Script β} (hp : p.Avoids J names)
    (hk : ∀ a, (k a).Avoids J names) : (p.bind k).Avoids J names := by
  induction p with
  | done a => exact hk a
  | fail f => trivial
  | ask q reply ih => exact ⟨hp.1, fun answer hadmits => ih answer (hp.2 answer hadmits)⟩
  | stall => trivial

theorem avoids_ite {p q : Script α} {c : Prop} [Decidable c] (hp : p.Avoids J names)
    (hq : q.Avoids J names) : (if c then p else q).Avoids J names := by
  split
  · exact hp
  · exact hq

/-- Going on after a request with an answer that there can be. -/
theorem avoids_request_bind {q : Request} {k : q.Answer → Script β} (hq : ¬q.UsesStream J)
    (hk : ∀ a, q.Admits J names (.ok a) → (k a).Avoids J names) :
    ((request q).bind k).Avoids J names := by
  refine ⟨hq, fun answer hadmits => ?_⟩
  cases answer with
  | ok a => exact hk a hadmits
  | error f => trivial

theorem avoids_iterate {turn : σ → Script (σ ⊕ α)} (hturn : ∀ s, (turn s).Avoids J names)
    (turns : Nat) (s : σ) : (iterate turn turns s).Avoids J names := by
  induction turns generalizing s with
  | zero => trivial
  | succ turns ih =>
    refine (hturn s).bind fun r => ?_
    cases r with
    | inl t => exact ih t
    | inr a => trivial

end Script

/-- No action of the table uses one of the streams. -/
def RuleTable.Avoids (J : List Nat) (names : List (String × Nat)) (t : RuleTable) : Prop :=
  ∀ r ∈ t.rules, ∀ b, (r.action.body b).Avoids J names

namespace Session

/-- There are such streams, and no action in the session uses them. -/
structure LeavesAlone (J : List Nat) (names : List (String × Nat)) (s : Session) : Prop where
  avoids : ∀ table, s.Holds table → table.Avoids J names
  named : s.streamNames = names
  present : ∀ j ∈ J, j < s.streams.size

/-- The session with other records of some streams, and with other feeds. -/
def revised (J : List Nat) (φ : Nat → Stream) (feeds : List (String × Feed)) (s : Session) : Session :=
  { s with
    streams := s.streams.mapIdx fun j a => if j ∈ J then φ j else a
    feeds := feeds }

variable {J : List Nat} {names : List (String × Nat)} {φ : Nat → Stream}
  {feeds : List (String × Feed)} {s t : Session} {i j k : Nat} {a b : Stream}

theorem stream?_revised_of_mem (hj : j ∈ J) (hpresent : j < s.streams.size) :
    (s.revised J φ feeds).stream? j = some (φ j) := by
  simp [revised, stream?, hj, hpresent]

theorem stream?_revised_of_notMem (hk : k ∉ J) :
    (s.revised J φ feeds).stream? k = s.stream? k := by
  simp [revised, stream?, hk]

theorem revised_eq_self (h : ∀ j ∈ J, s.stream? j = some (φ j)) : s.revised J φ s.feeds = s := by
  have hstreams : (s.revised J φ s.feeds).streams = s.streams := by
    apply Array.ext_getElem?
    intro k
    by_cases hk : k ∈ J
    · obtain ⟨hpresent, -⟩ := Array.getElem?_eq_some_iff.mp (h k hk)
      exact (stream?_revised_of_mem hk hpresent).trans (h k hk).symm
    · exact stream?_revised_of_notMem hk
  change { s.revised J φ s.feeds with streams := (s.revised J φ s.feeds).streams } = s
  rw [hstreams]
  rfl

theorem tried_revised (table : RuleTable) (i : Nat) :
    (s.revised J φ feeds).tried table i = (s.tried table i).revised J φ feeds := by
  have hcursor : (s.revised J φ feeds).cursor i = s.cursor i := rfl
  unfold tried
  rw [hcursor]
  cases table.attempt (s.cursor i) with
  | mk attempt d => cases attempt <;> rfl

theorem setStream_revised (hk : k ∉ J) :
    (s.revised J φ feeds).setStream k b = (s.setStream k b).revised J φ feeds := by
  have hstreams : ((s.revised J φ feeds).setStream k b).streams =
      ((s.setStream k b).revised J φ feeds).streams := by
    apply Array.ext_getElem?
    intro l
    simp only [setStream, revised, Array.getElem?_setIfInBounds, Array.getElem?_mapIdx,
      Array.size_mapIdx]
    by_cases hkl : k = l
    · subst hkl
      by_cases hsize : k < s.streams.size <;> simp [hk, hsize]
    · simp [hkl]
  simp only [setStream, revised] at hstreams ⊢
  rw [hstreams]

theorem push_revised (h : ∀ j ∈ J, j < s.streams.size) :
    ({ s.revised J φ feeds with streams := (s.revised J φ feeds).streams.push b } : Session) =
      ({ s with streams := s.streams.push b } : Session).revised J φ feeds := by
  have hnew : s.streams.size ∉ J := fun hmem => Nat.lt_irrefl _ (h _ hmem)
  simp only [revised, Array.mapIdx_push, if_neg hnew]

theorem note_revised (n : Nat) :
    (s.revised J φ feeds).note n = (s.note n).revised J φ feeds := by
  unfold note
  split <;> split <;> first | rfl | contradiction

theorem cite_revised (f : Fault) :
    (s.revised J φ feeds).cite f = (s.cite f).revised J φ feeds := by
  induction f generalizing s with
  | unmatched n character location => exact note_revised n
  | action n cause location rule caused ih =>
    unfold cite
    rw [note_revised]
    exact ih
  | _ => rfl

theorem recorded_revised (hk : k ∉ J) (o : Outcome) :
    (s.revised J φ feeds).recorded k b o = (s.recorded k b o).revised J φ feeds := by
  cases o with
  | failed f => exact setStream_revised hk
  | exhausted => exact setStream_revised hk
  | _ => rfl

theorem streamNames_tried (s : Session) (table : RuleTable) (i : Nat) :
    (s.tried table i).streamNames = s.streamNames := by
  unfold tried
  split <;> rfl

theorem streamNames_note (s : Session) (n : Nat) : (s.note n).streamNames = s.streamNames := by
  unfold note
  split <;> rfl

theorem streamNames_cite (s : Session) (f : Fault) : (s.cite f).streamNames = s.streamNames := by
  induction f generalizing s with
  | unmatched n character location => exact streamNames_note s n
  | action n cause location rule caused ih => exact (ih _).trans (streamNames_note s n)
  | _ => rfl

theorem size_setStream (s : Session) (k : Nat) (b : Stream) :
    (s.setStream k b).streams.size = s.streams.size := by
  simp [setStream]

/-- What is done leaves the streams alone, if it keeps them and their names. -/
theorem LeavesAlone.deed (h : s.LeavesAlone J names) (deed : Deed s t)
    (hnames : t.streamNames = s.streamNames) (hsize : s.streams.size ≤ t.streams.size) :
    t.LeavesAlone J names where
  avoids table held := h.avoids table (deed.holds held)
  named := hnames.trans h.named
  present j hj := (h.present j hj).trans_le hsize

/-- So does recording an outcome, in whichever stream. -/
theorem LeavesAlone.recorded (h : s.LeavesAlone J names) (hb : s.stream? k = some b) (o : Outcome) :
    (s.recorded k b o).LeavesAlone J names := by
  cases o with
  | failed f => exact h.deed (.streamFailed s k b f hb) rfl (size_setStream s k _).ge
  | exhausted => exact h.deed (.streamEnded s k b hb) rfl (size_setStream s k _).ge
  | _ => exact h

theorem LeavesAlone.numbered (h : s.LeavesAlone J names) (n : Nat) :
    LeavesAlone J names { s with nextSerial := n } :=
  h.deed (.beside rfl rfl rfl rfl rfl) rfl (Nat.le_refl _)

end Session

namespace Run

/-- From this session the run does the same with other records, and what it leads to leaves the streams
alone. -/
structure Frames {α : Type} (J : List Nat) (names : List (String × Nat)) (φ : Nat → Stream)
    (feeds : List (String × Feed)) (x : Run α) (s : Session) : Prop where
  same : x (s.revised J φ feeds) = (x s).map fun p => (p.1, p.2.revised J φ feeds)
  stays : ∀ r t, x s = some (r, t) → t.LeavesAlone J names

variable {α β : Type} {J : List Nat} {names : List (String × Nat)} {φ : Nat → Stream}
  {feeds : List (String × Feed)} {s : Session}

theorem frames_of_eq {x : Run α} {r : Except Fault α} {t : Session} (h : x s = some (r, t))
    (hrevised : x (s.revised J φ feeds) = some (r, t.revised J φ feeds))
    (ht : t.LeavesAlone J names) : Frames J names φ feeds x s where
  same := by rw [hrevised, h]; rfl
  stays r' t' h' := by
    rw [h] at h'
    cases h'
    exact ht

theorem frames_of_none {x : Run α} (h : x s = none) (hrevised : x (s.revised J φ feeds) = none) :
    Frames J names φ feeds x s where
  same := by rw [hrevised, h]; rfl
  stays r t h' := by
    rw [h] at h'
    cases h'

theorem frames_unfinished : Frames J names φ feeds (unfinished : Run α) s :=
  frames_of_none rfl rfl

theorem frames_bind {x : Run α} {k : α → Run β} (hx : Frames J names φ feeds x s)
    (hk : ∀ a t, x s = some (.ok a, t) → Frames J names φ feeds (k a) t) :
    Frames J names φ feeds (x >>= k) s := by
  have hsame := hx.same
  cases h : x s with
  | none =>
    rw [h] at hsame
    apply frames_of_none
    · rw [bind_apply, h]
    · rw [bind_apply, hsame]
      rfl
  | some p =>
    obtain ⟨r, t⟩ := p
    rw [h] at hsame
    cases r with
    | ok a =>
      have ha := hk a t h
      constructor
      · rw [bind_of_ok h, bind_of_ok hsame]
        exact ha.same
      · intro r u hu
        rw [bind_of_ok h] at hu
        exact ha.stays r u hu
    | error f =>
      exact frames_of_eq (bind_of_error h k) (bind_of_error hsame k) (hx.stays _ _ h)

theorem frames_outcome {x : Run α} (hx : Frames J names φ feeds x s) :
    Frames J names φ feeds x.outcome s where
  same := by
    rw [outcome_apply, outcome_apply, hx.same]
    cases x s <;> rfl
  stays r t h := by
    rw [outcome_apply] at h
    obtain ⟨⟨r', t'⟩, hr, heq⟩ := Option.map_eq_some_iff.mp h
    cases heq
    exact hx.stays r' t' hr

theorem frames_ofCall (hs : s.LeavesAlone J names) (e : Except CallFlaw α) :
    Frames J names φ feeds (ofCall e) s := by
  cases e with
  | ok a => exact frames_of_eq rfl rfl hs
  | error flaw => exact frames_of_eq rfl rfl hs

theorem find_apply (table : List (String × α)) (name : String) (s : Session) :
    find table name s = some
      (match table.lookup name with
        | some a => .ok a
        | none => .error (.raised "KeyError" (some name)), s) := by
  unfold find
  cases table.lookup name <;> rfl

theorem frames_lexer (hs : s.LeavesAlone J names) (name : String) :
    Frames J names φ feeds (lexer name) s :=
  frames_of_eq (find_apply s.lexers name s) (find_apply s.lexers name _) hs

theorem frames_engine (hs : s.LeavesAlone J names) (name : String) :
    Frames J names φ feeds (engine name) s := by
  cases hlookup : s.engines.lookup name with
  | some table =>
    have hengine (u : Session) (hu : u.engines = s.engines) :
        engine name u = some (.ok table, u) := by
      unfold engine
      rw [get_bind_apply, hu, hlookup]
      rfl
    exact frames_of_eq (hengine s rfl) (hengine _ rfl) hs
  | none =>
    have hengine (u : Session) (hu : u.engines = s.engines) : engine name u = lexer name u := by
      unfold engine
      rw [get_bind_apply, hu, hlookup]
    have hlexer : Frames J names φ feeds (lexer name) s := frames_lexer hs name
    constructor
    · rw [hengine s rfl, hengine (s.revised J φ feeds) rfl]
      exact hlexer.same
    · rw [hengine s rfl]
      exact hlexer.stays

/-- A change that is made of the session without a look at the records. -/
theorem frames_modify (hs : s.LeavesAlone J names) {g : Session → Session} (deed : Session.Deed s (g s))
    (hrevised : g (s.revised J φ feeds) = (g s).revised J φ feeds)
    (hnames : (g s).streamNames = s.streamNames) (hsize : s.streams.size ≤ (g s).streams.size) :
    Frames J names φ feeds (modify g : Run Unit) s :=
  frames_of_eq rfl (congrArg (fun u => some (Except.ok (), u)) hrevised)
    (hs.deed deed hnames hsize)

section

variable {perform : Performer}
  (answers : ∀ q s, ¬q.UsesStream J → s.LeavesAlone J names →
    Frames J names φ feeds (perform q) s ∧
      ∀ r t, perform q s = some (r, t) → q.Admits J names r)

include answers

theorem frames_script {p : Script α} (hp : p.Avoids J names) (hs : s.LeavesAlone J names) :
    Frames J names φ feeds (p.run perform) s := by
  induction p generalizing s with
  | done a => exact frames_of_eq rfl rfl hs
  | fail f => exact frames_of_eq rfl rfl hs
  | ask q reply ih =>
    obtain ⟨hframes, hadmits⟩ := answers q s hp.1 hs
    apply frames_bind (frames_outcome hframes)
    intro answer t h
    rw [outcome_apply] at h
    obtain ⟨⟨r, t'⟩, hr, heq⟩ := Option.map_eq_some_iff.mp h
    cases heq
    exact ih r (hp.2 r (hadmits _ _ hr)) (hframes.stays _ _ hr)
  | stall => exact frames_unfinished

theorem frames_invoke {rule : CompiledRule} (hrule : ∀ b, (rule.action.body b).Avoids J names)
    (hs : s.LeavesAlone J names) (text : List Char) (i : Nat) (span : Span) (context : Arguments) :
    Frames J names φ feeds (rule.invoke perform text i span context) s := by
  apply frames_bind (frames_ofCall hs _)
  intro script t h
  unfold CompiledRule.script at h
  cases hbind : rule.action.signature.bind (rule.positional text i span)
      (rule.shape.select context) with
  | error flaw =>
    rw [hbind] at h
    cases h
  | ok b =>
    rw [hbind] at h
    cases h
    exact frames_script answers (hrule b) hs

/-- A step of a table that comes to a match. -/
theorem frames_of_fired {table : RuleTable} (held : s.Holds table) (hs : s.LeavesAlone J names)
    {i : Nat} (context : Arguments) {rule : CompiledRule} {text : List Char} {span : Span}
    (htried : (s.tried table i).LeavesAlone J names)
    (hattempt : (table.attempt (s.cursor i)).1 = .fired rule text span) :
    Frames J names φ feeds (table.stepWith perform i context) s := by
  have hrule := hs.avoids table held rule (RuleTable.mem_of_fired hattempt)
  have hinvoke : Frames J names φ feeds (rule.invoke perform text i span context)
      (s.tried table i) := frames_invoke answers hrule htried text i span context
  have hcursor : (s.revised J φ feeds).cursor i = s.cursor i := rfl
  have hstep := RuleTable.stepWith_apply perform table i context
  have hs' := hstep s
  have hrevised := hstep (s.revised J φ feeds)
  rw [hattempt] at hs'
  rw [Session.tried_revised, hcursor, hattempt] at hrevised
  have hsame := hinvoke.same
  cases hcall : rule.invoke perform text i span context (s.tried table i) with
  | none =>
    rw [hcall] at hsame
    simp only [hcall] at hs'
    simp only [hsame, Option.map_none] at hrevised
    exact frames_of_none hs' hrevised
  | some p =>
    obtain ⟨r, t⟩ := p
    have ht := hinvoke.stays r t hcall
    rw [hcall] at hsame
    simp only [hcall] at hs'
    simp only [hsame, Option.map_some] at hrevised
    cases r with
    | ok v => exact frames_of_eq hs' hrevised ht
    | error f =>
      cases hordinary : f.isOrdinary with
      | true =>
        simp only [hordinary, ↓reduceIte] at hs' hrevised
        exact frames_of_eq hs' hrevised (ht.numbered _)
      | false =>
        simp only [hordinary, Bool.false_eq_true, ↓reduceIte] at hs' hrevised
        exact frames_of_eq hs' hrevised ht

/-- A step of a table. -/
theorem frames_stepWith {table : RuleTable} (held : s.Holds table) (hs : s.LeavesAlone J names)
    (i : Nat) (context : Arguments) :
    Frames J names φ feeds (table.stepWith perform i context) s := by
  have htried : (s.tried table i).LeavesAlone J names :=
    hs.deed (.tried s table held i) (Session.streamNames_tried s table i)
      (by rw [Session.streams_tried])
  have hcursor : (s.revised J φ feeds).cursor i = s.cursor i := rfl
  have hstep := RuleTable.stepWith_apply perform table i context
  have hs' := hstep s
  have hrevised := hstep (s.revised J φ feeds)
  rw [Session.tried_revised, hcursor] at hrevised
  cases hattempt : (table.attempt (s.cursor i)).1 with
  | exhausted =>
    rw [hattempt] at hs' hrevised
    exact frames_of_eq hs' hrevised htried
  | unmatched character location =>
    rw [hattempt] at hs' hrevised
    exact frames_of_eq hs' hrevised (htried.numbered _)
  | overrun o =>
    rw [hattempt] at hs' hrevised
    exact frames_of_eq hs' hrevised htried
  | tangled =>
    rw [hattempt] at hs' hrevised
    exact frames_of_eq hs' hrevised htried
  | fired rule text span => exact frames_of_fired answers held hs context htried hattempt

/-- A step of another stream. -/
theorem frames_streamStepWith {k : Nat} (hk : k ∉ J) (hs : s.LeavesAlone J names) :
    Frames J names φ feeds (streamStepWith perform k) s := by
  have hstream : (s.revised J φ feeds).stream? k = s.stream? k :=
    Session.stream?_revised_of_notMem hk
  cases ha : s.stream? k with
  | none => exact frames_of_eq (streamStepWith_of_none ha) (streamStepWith_of_none (hstream.trans ha)) hs
  | some a =>
    cases hanswer : a.answer? with
    | some o =>
      exact frames_of_eq (streamStepWith_of_answer ha hanswer)
        (streamStepWith_of_answer (hstream.trans ha) hanswer) hs
    | none =>
      have held : s.Holds a.table := .inr (.inr ⟨k, a, ha, rfl⟩)
      have hstep : Frames J names φ feeds (a.table.stepWith perform a.cursor a.context) s :=
        frames_stepWith answers held hs a.cursor a.context
      have hsame := hstep.same
      have hlive : streamStepWith perform k s = _ := streamStepWith_of_live ha hanswer
      have hrevised : streamStepWith perform k (s.revised J φ feeds) = _ :=
        streamStepWith_of_live (hstream.trans ha) hanswer
      rw [hsame] at hrevised
      cases hrun : a.table.stepWith perform a.cursor a.context s with
      | none =>
        rw [hrun] at hlive hrevised
        exact frames_of_none hlive hrevised
      | some p =>
        obtain ⟨r, t⟩ := p
        have ht := hstep.stays r t hrun
        rw [hrun] at hlive hrevised
        cases r with
        | error f => exact frames_of_eq hlive hrevised ht
        | ok o =>
          simp only [Option.map_some, Session.stream?_revised_of_notMem hk] at hrevised
          cases hb : t.stream? k with
          | none =>
            simp only [hb] at hlive hrevised
            exact frames_of_eq hlive hrevised ht
          | some b =>
            simp only [hb, Session.recorded_revised hk] at hlive hrevised
            exact frames_of_eq hlive hrevised (ht.recorded hb o)

/-- A token of another stream. -/
theorem frames_nextWith {k : Nat} (hk : k ∉ J) (hs : s.LeavesAlone J names) (turns : Nat) :
    Frames J names φ feeds (nextWith perform k turns) s := by
  induction turns generalizing s with
  | zero => exact frames_unfinished
  | succ turns ih =>
    have hstep : Frames J names φ feeds (streamStepWith perform k) s :=
      frames_streamStepWith answers hk hs
    apply frames_bind hstep
    intro o t h
    have ht := hstep.stays _ _ h
    cases o with
    | skipped span => exact ih ht
    | emitted token span => exact frames_of_eq rfl rfl ht
    | failed f => exact frames_of_eq rfl rfl ht
    | exhausted => exact frames_of_eq rfl rfl ht

end

/-- Opening a stream looks at the lexers, and adds a stream behind those that there are. -/
theorem perform_openStream_apply (name : String) (i : Nat) (context : Arguments) (s : Session) :
    perform 0 (.openStream name i context) s =
      match s.lexers.lookup name with
      | none => some (.error (.raised "KeyError" (some name)), s)
      | some table =>
        match table.checkCall "__call__" (context.map (·.1)) with
        | .error flaw => some (.error (.call flaw), s)
        | .ok _ => some (.ok s.streams.size,
            { s with streams := s.streams.push ⟨table, i, context, false, none⟩ }) := by
  change (lexer name >>= fun table => ofCall (table.checkCall "__call__" (context.map (·.1))) >>=
    fun _ => openStream table i context) s = _
  have hlexer : lexer name s = _ := find_apply s.lexers name s
  rw [bind_apply, hlexer]
  cases s.lexers.lookup name with
  | none => rfl
  | some table =>
    dsimp only
    cases table.checkCall "__call__" (context.map (·.1)) <;> rfl

/-- Opening a stream gives it a number that none of the others has. -/
theorem frames_openStream (hs : s.LeavesAlone J names) (name : String) (i : Nat)
    (context : Arguments) :
    Frames J names φ feeds (perform 0 (.openStream name i context)) s ∧
      ∀ r t, perform 0 (.openStream name i context) s = some (r, t) →
        (Request.openStream name i context).Admits J names r := by
  have hs' := perform_openStream_apply name i context s
  have hrevised := perform_openStream_apply name i context (s.revised J φ feeds)
  have hlookups : (s.revised J φ feeds).lexers.lookup name = s.lexers.lookup name := rfl
  rw [hlookups] at hrevised
  cases hlookup : s.lexers.lookup name with
  | none =>
    simp only [hlookup] at hs' hrevised
    refine ⟨frames_of_eq hs' hrevised hs, fun r t h => ?_⟩
    cases hs'.symm.trans h
    trivial
  | some table =>
    simp only [hlookup] at hs' hrevised
    cases hcheck : table.checkCall "__call__" (context.map (·.1)) with
    | error flaw =>
      simp only [hcheck] at hs' hrevised
      refine ⟨frames_of_eq hs' hrevised hs, fun r t h => ?_⟩
      cases hs'.symm.trans h
      trivial
    | ok _ =>
      have hsize : (s.revised J φ feeds).streams.size = s.streams.size := Array.size_mapIdx
      simp only [hcheck] at hs' hrevised
      rw [hsize, Session.push_revised hs.present] at hrevised
      have held : s.Holds table := .inl ⟨name, mem_of_lookup hlookup⟩
      constructor
      · exact frames_of_eq hs' hrevised
          (hs.deed (.streamOpened s table held i context) rfl (by simp))
      · intro r t h
        cases hs'.symm.trans h
        exact fun hmem => Nat.lt_irrefl _ (hs.present _ hmem)

/-- The requests that take no step. -/
theorem frames_perform_zero {q : Request} (hq : ¬q.UsesStream J) (hs : s.LeavesAlone J names) :
    Frames J names φ feeds (perform 0 q) s ∧
      ∀ r t, perform 0 q s = some (r, t) → q.Admits J names r := by
  cases q with
  | advance i n =>
    refine ⟨?_, fun _ _ _ => trivial⟩
    have hadvance : advance i n s = _ := advance_apply i n s
    have hrevised : advance i n (s.revised J φ feeds) = _ := advance_apply i n _
    have hcursor : (s.revised J φ feeds).cursor i = s.cursor i := rfl
    rw [hcursor] at hrevised
    by_cases hn : n < 0 ∨ ((s.cursor i).ahead.length : Int) < n
    · rw [if_pos hn] at hadvance hrevised
      exact frames_of_eq hadvance hrevised hs
    · rw [if_neg hn] at hadvance hrevised
      exact frames_of_eq hadvance hrevised
        (hs.deed (.advanced s i n.toNat (by omega)) rfl (Nat.le_refl _))
  | look i => exact ⟨frames_of_eq rfl rfl hs, fun _ _ _ => trivial⟩
  | mark i =>
    exact ⟨frames_of_eq rfl rfl (hs.deed (.marked s i) rfl (Nat.le_refl _)), fun _ _ _ => trivial⟩
  | cursorNamed name =>
    exact ⟨frames_of_eq (find_apply s.cursorNames name s) (find_apply s.cursorNames name _) hs,
      fun _ _ _ => trivial⟩
  | openText text =>
    exact ⟨frames_of_eq rfl rfl (hs.deed (.textOpened s text) rfl (Nat.le_refl _)),
      fun _ _ _ => trivial⟩
  | openStream name i context => exact frames_openStream hs name i context
  | step name i context => exact ⟨frames_unfinished, nofun⟩
  | streamStep k => exact ⟨frames_unfinished, nofun⟩
  | next k => exact ⟨frames_unfinished, nofun⟩
  | streamNamed name =>
    have hfind := find_apply s.streamNames name s
    refine ⟨frames_of_eq hfind (find_apply s.streamNames name _) hs, fun r t h => ?_⟩
    cases hfind.symm.trans h
    cases hlookup : s.streamNames.lookup name with
    | none => trivial
    | some k =>
      rw [hs.named] at hlookup
      exact mem_of_lookup hlookup
  | countCall action =>
    exact ⟨frames_of_eq rfl rfl (hs.deed (.beside rfl rfl rfl rfl rfl) rfl (Nat.le_refl _)),
      fun _ _ _ => trivial⟩
  | cite f =>
    refine ⟨frames_modify hs (s.deed_cite f) (Session.cite_revised f) (Session.streamNames_cite s f)
      ?_, fun _ _ _ => trivial⟩
    rw [(s.cite_same f).2.1]

/-- Answering a request that is for none of the streams, however deep the steps within it are nested. -/
theorem frames_perform (depth : Nat) {q : Request} (hq : ¬q.UsesStream J)
    (hs : s.LeavesAlone J names) :
    Frames J names φ feeds (perform depth q) s ∧
      ∀ r t, perform depth q s = some (r, t) → q.Admits J names r := by
  induction depth generalizing q s with
  | zero => exact frames_perform_zero hq hs
  | succ depth ih =>
    have answers (q : Request) (s : Session) (hq : ¬q.UsesStream J) (hs : s.LeavesAlone J names) :=
      ih hq hs
    cases q with
    | step name i context =>
      refine ⟨frames_bind (frames_engine hs name) fun table t h => ?_, fun _ _ _ => trivial⟩
      obtain ⟨rfl, held⟩ := engine_eq_ok h
      exact frames_stepWith answers held hs i context
    | streamStep k => exact ⟨frames_streamStepWith answers hq hs, fun _ _ _ => trivial⟩
    | next k => exact ⟨frames_nextWith answers hq hs depth, fun _ _ _ => trivial⟩
    | advance i n => exact frames_perform_zero hq hs
    | look i => exact frames_perform_zero hq hs
    | mark i => exact frames_perform_zero hq hs
    | cursorNamed name => exact frames_perform_zero hq hs
    | openText text => exact frames_perform_zero hq hs
    | openStream name i context => exact frames_perform_zero hq hs
    | streamNamed name => exact frames_perform_zero hq hs
    | countCall action => exact frames_perform_zero hq hs
    | cite f => exact frames_perform_zero hq hs

/-- The records themselves stay as they are: that is the equation for the records that there are. -/
theorem Frames.stream?_eq {x : Run α} {r : Except Fault α} {t : Session} {j : Nat}
    (hx : Frames J names φ s.feeds x s) (hφ : ∀ j ∈ J, s.stream? j = some (φ j))
    (h : x s = some (r, t)) (hj : j ∈ J) : t.stream? j = s.stream? j := by
  have hsame := hx.same
  rw [Session.revised_eq_self hφ, h, Option.map_some, Option.some.injEq, Prod.mk.injEq] at hsame
  rw [hsame.2, Session.stream?_revised_of_mem hj ((hx.stays r t h).present j hj), hφ j hj]

end Run

end FirstMatch
