import FirstMatch.Proofs.FirstMatches
import FirstMatch.Proofs.Renumbering

/-!
The journal is kept beside the input. No run looks at it, so from two sessions that differ in their
journals only it comes to the same result, and to sessions that differ in their journals only.
-/

namespace FirstMatch

namespace Session

def withJournal (s : Session) (journal : List Entry) : Session := { s with journal := journal }

/-- The session without its journal. -/
def unjournaled (s : Session) : Session := s.withJournal []

variable {s t : Session}

theorem exists_journal (h : t.unjournaled = s.unjournaled) :
    ∃ journal, t = s.withJournal journal := by
  refine ⟨t.journal, ?_⟩
  have hback : t.unjournaled.withJournal t.journal = s.unjournaled.withJournal t.journal := by rw [h]
  exact hback

theorem cursor_of_unjournaled (h : t.unjournaled = s.unjournaled) (i : Nat) :
    t.cursor i = s.cursor i := by
  obtain ⟨journal, rfl⟩ := exists_journal h
  rfl

theorem unjournaled_tried (s : Session) (table : RuleTable) (i : Nat) :
    (s.tried table i).unjournaled = (s.setCursor i (table.attempt (s.cursor i)).2).unjournaled := by
  unfold tried
  split
  · next hattempt =>
    rw [hattempt]
    rfl
  · next hattempt =>
    rw [hattempt]

end Session

/-- Results that are related are carried over to related ones, or there are none on either side. -/
theorem rel_map {A B C D : Type} {R : A → B → Prop} {S : C → D → Prop} {f : A → C} {g : B → D}
    {x : Option A} {y : Option B} (h : Option.Rel R x y) (hfg : ∀ a b, R a b → S (f a) (g b)) :
    Option.Rel S (x.map f) (y.map g) := by
  cases h with
  | none => exact .none
  | some hab => exact .some (hfg _ _ hab)

namespace Run

variable {α β : Type}

/-- The same result, and sessions that differ in their journals only. -/
def Twins (p q : Except Fault α × Session) : Prop :=
  q.1 = p.1 ∧ q.2.unjournaled = p.2.unjournaled

/-- The run comes to the same whatever is in the journal. -/
def Blind (x : Run α) : Prop :=
  ∀ (s : Session) (journal : List Entry), Option.Rel Twins (x s) (x (s.withJournal journal))

theorem Blind.of_unjournaled {x : Run α} (hx : Blind x) {s t : Session}
    (h : t.unjournaled = s.unjournaled) : Option.Rel Twins (x s) (x t) := by
  obtain ⟨journal, rfl⟩ := Session.exists_journal h
  exact hx s journal

theorem blind_pure (a : α) : Blind (pure a : Run α) := fun _ _ => .some ⟨rfl, rfl⟩

theorem blind_throw (f : Fault) : Blind (throw f : Run α) := fun _ _ => .some ⟨rfl, rfl⟩

theorem blind_unfinished : Blind (unfinished : Run α) := fun _ _ => .none

theorem blind_modify {g : Session → Session}
    (hg : ∀ s journal, (g (s.withJournal journal)).unjournaled = (g s).unjournaled) :
    Blind (modify g : Run Unit) := fun s journal => .some ⟨rfl, hg s journal⟩

theorem blind_bind {x : Run α} {k : α → Run β} (hx : Blind x) (hk : ∀ a, Blind (k a)) :
    Blind (x >>= k) := by
  intro s journal
  have h := hx s journal
  rw [bind_apply, bind_apply]
  generalize x s = p at h
  generalize x (s.withJournal journal) = q at h
  cases h with
  | none => exact .none
  | @some p q hpq =>
    obtain ⟨r, u⟩ := p
    obtain ⟨r', v⟩ := q
    obtain ⟨rfl, huv⟩ := hpq
    cases r' with
    | ok a => exact (hk a).of_unjournaled huv
    | error f => exact .some ⟨rfl, huv⟩

/-- Looking at the session first, but not at its journal. -/
theorem blind_get_bind {k : Session → Run β} (hk : ∀ s, Blind (k s))
    (same : ∀ s journal, k (s.withJournal journal) = k s) : Blind (get >>= k) := by
  intro s journal
  rw [get_bind_apply, get_bind_apply, same s journal]
  exact hk s s journal

theorem blind_outcome {x : Run α} (hx : Blind x) : Blind x.outcome := fun s journal =>
  rel_map (hx s journal) fun _ _ hpq => ⟨congrArg Except.ok hpq.1, hpq.2⟩

theorem blind_ofCall (e : Except CallFlaw α) : Blind (ofCall e) := by
  cases e with
  | ok a => exact blind_pure a
  | error flaw => exact blind_throw _

theorem blind_find (table : List (String × α)) (name : String) : Blind (find table name) := by
  unfold find
  split
  · exact blind_pure _
  · exact blind_throw _

theorem blind_lexer (name : String) : Blind (lexer name) :=
  blind_get_bind (fun s => blind_find s.lexers name) fun _ _ => rfl

theorem blind_engine (name : String) : Blind (engine name) := by
  refine blind_get_bind (fun s => ?_) fun _ _ => rfl
  split
  · exact blind_pure _
  · exact blind_lexer name

theorem blind_stream (i : Nat) : Blind (stream i) := by
  refine blind_get_bind (fun s => ?_) fun _ _ => rfl
  split
  · exact blind_pure _
  · exact blind_throw _

theorem blind_settle (j : Nat) (o : Outcome) : Blind (settle j o) := by
  refine blind_bind (blind_stream j) fun a => ?_
  cases o with
  | failed f => exact blind_modify fun _ _ => rfl
  | exhausted => exact blind_modify fun _ _ => rfl
  | emitted token span => exact blind_pure _
  | skipped span => exact blind_pure _

section

variable {perform : Performer} (hp : ∀ q, Blind (perform q))

include hp

theorem blind_script (p : Script α) : Blind (p.run perform) := by
  induction p with
  | done a => exact blind_pure a
  | fail f => exact blind_throw f
  | ask q reply ih => exact blind_bind (blind_outcome (hp q)) ih
  | stall => exact blind_unfinished

theorem blind_invoke (r : CompiledRule) (text : List Char) (i : Nat) (span : Span)
    (context : Arguments) : Blind (r.invoke perform text i span context) :=
  blind_bind (blind_ofCall _) fun p => blind_script hp p

/-- Steps of two tables that try their rules alike, but for the numbers of the rules. -/
theorem stepWith_renumbered {a b : RuleTable} {number : Int → Int} {i : Nat} {s t : Session}
    (hattempt : b.attempt (s.cursor i) =
      ((a.attempt (s.cursor i)).1.mapRule (.renumbered number), (a.attempt (s.cursor i)).2))
    (ht : t.unjournaled = s.unjournaled) (context : Arguments) :
    Option.Rel (fun p q => q.1 = p.1.map (Outcome.renumbered number) ∧
        q.2.unjournaled = p.2.unjournaled)
      (a.stepWith perform i context s) (b.stepWith perform i context t) := by
  obtain ⟨journal, rfl⟩ := Session.exists_journal ht
  have hcursor : (s.withJournal journal).cursor i = s.cursor i := rfl
  have htried : ((s.withJournal journal).tried b i).unjournaled = (s.tried a i).unjournaled := by
    rw [Session.unjournaled_tried, Session.unjournaled_tried, hcursor, hattempt]
    rfl
  rw [RuleTable.stepWith_apply, RuleTable.stepWith_apply, hcursor, hattempt]
  cases (a.attempt (s.cursor i)).1 with
  | exhausted => exact .some ⟨rfl, htried⟩
  | unmatched character location =>
    exact .some ⟨rfl, congrArg (fun u => { u with nextSerial := s.nextSerial + 1 }) htried⟩
  | overrun o => exact .some ⟨rfl, htried⟩
  | tangled => exact .some ⟨rfl, htried⟩
  | fired rule text span =>
    -- A rule is called the same whatever its number is.
    have hcall : Option.Rel Twins (rule.invoke perform text i span context (s.tried a i))
        ((rule.renumbered number).invoke perform text i span context
          ((s.withJournal journal).tried b i)) :=
      (blind_invoke hp rule text i span context).of_unjournaled htried
    dsimp only [Attempt.mapRule]
    generalize rule.invoke perform text i span context (s.tried a i) = p at hcall
    generalize (rule.renumbered number).invoke perform text i span context
      ((s.withJournal journal).tried b i) = q at hcall
    cases hcall with
    | none => exact .none
    | @some p q hpq =>
      obtain ⟨r, u⟩ := p
      obtain ⟨r', v⟩ := q
      obtain ⟨rfl, huv⟩ := hpq
      obtain ⟨journal', hv⟩ : ∃ journal', v = u.withJournal journal' := Session.exists_journal huv
      subst hv
      cases r' with
      | ok value => exact .some ⟨congrArg _ (Outcome.renumbered_ofResult number value span).symm, rfl⟩
      | error f =>
        dsimp only
        split
        · exact .some ⟨rfl, rfl⟩
        · exact .some ⟨rfl, rfl⟩

theorem blind_stepWith (table : RuleTable) (i : Nat) (context : Arguments) :
    Blind (table.stepWith perform i context) := by
  intro s journal
  have hattempt : table.attempt (s.cursor i) =
      ((table.attempt (s.cursor i)).1.mapRule (.renumbered id), (table.attempt (s.cursor i)).2) :=
    Prod.ext (table.attempt (s.cursor i)).1.mapRule_id.symm rfl
  have hstep := stepWith_renumbered hp hattempt (t := s.withJournal journal) rfl context
  generalize table.stepWith perform i context s = p at hstep
  generalize table.stepWith perform i context (s.withJournal journal) = q at hstep
  cases hstep with
  | none => exact .none
  | @some p q hpq =>
    refine .some ⟨hpq.1.trans ?_, hpq.2⟩
    cases p.1 with
    | ok o => exact congrArg Except.ok o.renumbered_id
    | error f => rfl

theorem blind_streamStepWith (j : Nat) : Blind (streamStepWith perform j) := by
  refine blind_bind (blind_stream j) fun a => ?_
  split
  · exact blind_pure _
  · exact blind_pure _
  · exact blind_bind (blind_stepWith hp a.table a.cursor a.context) fun o =>
      blind_bind (blind_settle j o) fun _ => blind_pure o

theorem blind_nextWith (j turns : Nat) : Blind (nextWith perform j turns) := by
  induction turns with
  | zero => exact blind_unfinished
  | succ turns ih =>
    refine blind_bind (blind_streamStepWith hp j) fun o => ?_
    cases o with
    | emitted token span => exact blind_pure _
    | skipped span => exact ih
    | failed f => exact blind_throw f
    | exhausted => exact blind_pure _

end

theorem blind_advance (i : Nat) (n : Int) : Blind (advance i n) := by
  intro s journal
  have hcursor : (s.withJournal journal).cursor i = s.cursor i := rfl
  rw [advance_apply, advance_apply, hcursor]
  split
  · exact .some ⟨rfl, rfl⟩
  · exact .some ⟨rfl, rfl⟩

theorem unjournaled_note (s : Session) (journal : List Entry) (n : Nat) :
    ((s.withJournal journal).note n).unjournaled = (s.note n).unjournaled := by
  unfold Session.note
  change (if s.cited.contains n then _ else _ : Session).unjournaled = _
  split <;> rfl

theorem unjournaled_cite (s : Session) (journal : List Entry) (f : Fault) :
    ((s.withJournal journal).cite f).unjournaled = (s.cite f).unjournaled := by
  induction f generalizing s journal with
  | action n cause location rule caused ih =>
    obtain ⟨journal', hnote⟩ := Session.exists_journal (unjournaled_note s journal n)
    change (((s.withJournal journal).note n).cite cause).unjournaled = _
    rw [hnote]
    exact ih _ _
  | unmatched n character location => exact unjournaled_note s journal n
  | _ => rfl

theorem blind_perform_zero (q : Request) : Blind (perform 0 q) := by
  cases q with
  | advance i n => exact blind_advance i n
  | look i => exact blind_get_bind (fun s => blind_pure _) fun _ _ => rfl
  | mark i => exact fun s journal => .some ⟨rfl, rfl⟩
  | cursorNamed name =>
    exact blind_get_bind (fun s => blind_find s.cursorNames name) fun _ _ => rfl
  | openText text => exact fun s journal => .some ⟨rfl, rfl⟩
  | openStream name i context =>
    exact blind_bind (blind_lexer name) fun table => blind_bind (blind_ofCall _) fun _ =>
      fun s journal => .some ⟨rfl, rfl⟩
  | step name i context => exact blind_unfinished
  | streamStep j => exact blind_unfinished
  | next j => exact blind_unfinished
  | streamNamed name =>
    exact blind_get_bind (fun s => blind_find s.streamNames name) fun _ _ => rfl
  | countCall action => exact fun s journal => .some ⟨rfl, rfl⟩
  | cite f => exact blind_modify fun s journal => unjournaled_cite s journal f

/-- No request is answered by a look at the journal. -/
theorem blind_perform (depth : Nat) (q : Request) : Blind (perform depth q) := by
  induction depth generalizing q with
  | zero => exact blind_perform_zero q
  | succ depth ih =>
    cases q with
    | step name i context =>
      exact blind_bind (blind_engine name) fun table => blind_stepWith ih table i context
    | streamStep j => exact blind_streamStepWith ih j
    | next j => exact blind_nextWith ih j depth
    | advance i n => exact blind_perform_zero (.advance i n)
    | look i => exact blind_perform_zero (.look i)
    | mark i => exact blind_perform_zero (.mark i)
    | cursorNamed name => exact blind_perform_zero (.cursorNamed name)
    | openText text => exact blind_perform_zero (.openText text)
    | openStream name i context => exact blind_perform_zero (.openStream name i context)
    | streamNamed name => exact blind_perform_zero (.streamNamed name)
    | countCall action => exact blind_perform_zero (.countCall action)
    | cite f => exact blind_perform_zero (.cite f)

end Run

end FirstMatch
