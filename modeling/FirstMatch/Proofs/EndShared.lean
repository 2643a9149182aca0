import FirstMatch.Proofs.EndFiring
import FirstMatch.Recipe

/-!
The pass at the end of a shared cursor. The cursor is exhausted once, by whoever first finds that
nothing is left, and it depends on the rules of that engine alone whether a rule for the end ever fires
on the cursor. All other engines find it exhausted, those with a rule for the end in the first place too.
-/

namespace FirstMatch

open Session (entriesOn Deed)

/-- The first rule is one for the end. -/
def RuleTable.BeginsWithEof (t : RuleTable) : Prop := ∃ r rest, t.rules = r :: rest ∧ r.kind = .eof

/-- A rule for the end has fired on a cursor. -/
def Session.EofFired (i : Nat) (s : Session) : Prop :=
  0 < (entriesOn i s.journal).countP Entry.endsInput

namespace RuleTable

variable {t : RuleTable} {c : Cursor}

theorem BeginsWithEof.endsInEof (h : t.BeginsWithEof) : t.EndsInEof := by
  obtain ⟨r, rest, hrules, hkind⟩ := h
  exact ⟨[], r, rest, hrules, hkind, nofun⟩

/-- An engine whose first rule is for the end reports the end for no other reason than the mark of the
cursor. -/
theorem Built.attempt_exhausted_iff (h : t.Built) (hfirst : t.BeginsWithEof) (hc : c.Sound) :
    (t.attempt c).1 = .exhausted ↔ c.exhausted = true := by
  constructor
  · intro hattempt
    by_contra hne
    have hex : c.exhausted = false := Bool.eq_false_iff.mpr hne
    have hahead := ahead_of_attempt_exhausted hc hattempt
    rcases h.entries_at_end 0 hex hahead with ⟨e, he, -⟩ | ⟨-, hnot⟩
    · rw [hattempt] at he
      cases he
    · exact hnot hfirst.endsInEof
  · intro hex
    rw [attempt, if_pos hex]

theorem stepWith_exhausted_iff {perform : Performer} {i : Nat} {context : Arguments}
    {s : Session} : (∃ u, t.stepWith perform i context s = some (.ok .exhausted, u)) ↔
      (t.attempt (s.cursor i)).1 = .exhausted := by
  constructor
  · rintro ⟨u, hstep⟩
    exact attempt_of_stepWith_exhausted hstep
  · intro hattempt
    rw [stepWith_apply, hattempt]
    exact ⟨_, rfl⟩

end RuleTable

namespace Session

variable {s t : Session} {i : Nat}

/-- The mark of a cursor is set where nothing is left, by an attempt or directly. -/
theorem DeedOn.of_exhausted (hi : i < s.cursors.size) (h : DeedOn i s t)
    (hs : (s.cursor i).exhausted = false) (ht : (t.cursor i).exhausted = true) :
    (s.cursor i).ahead = [] ∧
      ((∃ table, s.Holds table ∧ t = s.tried table i) ∨
        t = s.setCursor i (s.cursor i).markIfEmpty) := by
  have marked (h : (s.cursor i).markIfEmpty.exhausted = true) : (s.cursor i).ahead = [] := by
    rw [Cursor.markIfEmpty, hs, Bool.false_or] at h
    exact List.isEmpty_iff.mp h
  cases h with
  | tried table held =>
    refine ⟨marked ?_, .inl ⟨table, held, rfl⟩⟩
    rw [cursor_tried_self hi] at ht
    rcases table.attempt_cases (s.cursor i) with ⟨rule, n, -, -, -, ha⟩ | ⟨-, hd⟩
    · rw [ha] at ht
      exact ht
    · rwa [hd] at ht
  | advanced n le =>
    rw [cursor_advanced_self hi] at ht
    exact absurd (hs.symm.trans ht) Bool.false_ne_true
  | marked =>
    rw [cursor_setCursor_self hi] at ht
    exact ⟨marked ht, .inr rfl⟩
  | apart cursor entries =>
    rw [cursor, hs] at ht
    cases ht

/-- A cursor that has come to be exhausted was made so by one deed. -/
theorem Works.exhausting (h : s.Works t) (hs : (s.cursor i).exhausted = false)
    (ht : (t.cursor i).exhausted = true) :
    ∃ a b, s.Works a ∧ Deed a b ∧ b.Works t ∧ (a.cursor i).exhausted = false ∧
      (b.cursor i).exhausted = true := by
  induction h with
  | refl =>
    rw [hs] at ht
    cases ht
  | @tail u v works deed ih =>
    cases hu : (u.cursor i).exhausted with
    | true =>
      obtain ⟨a, b, ha, hab, hb, hlive, hover⟩ := ih hu
      exact ⟨a, b, ha, hab, hb.tail deed, hlive, hover⟩
    | false => exact ⟨u, v, works, deed, .refl, hu, ht⟩

/-- Before a cursor is exhausted no rule for the end fires on it, and none does afterwards. -/
theorem Works.count_endsInput (hi : i < s.cursors.size)
    (built : ∀ table, s.Holds table → table.Built) (h : s.Works t)
    (same : (t.cursor i).exhausted = (s.cursor i).exhausted) :
    (entriesOn i t.journal).countP Entry.endsInput =
      (entriesOn i s.journal).countP Entry.endsInput := by
  obtain ⟨es, hes, hcount⟩ := h.count_add_le Cursor.pays_endsLeft built hi
  have hleft : (t.cursor i).endsLeft = (s.cursor i).endsLeft := by
    rw [Cursor.endsLeft, same, Cursor.endsLeft]
  have hzero : es.countP Entry.endsInput = 0 := by omega
  rw [hes, List.countP_append, hzero, Nat.add_zero]

end Session

/-- On a cursor that is shared from its opening on, an engine whose first rule is for the end reports
the end as soon as the cursor is marked. It was marked by one deed: by an attempt of some engine, and
then a rule for the end has fired exactly if the table of that engine ends so, or directly, and then
none has. -/
theorem exhausted_by_one_pass {text : List Char} {i : Nat} {s : Session}
    (hi : i < s.cursors.size) (hopen : s.cursor i = .ofText text) (hfresh : ¬s.EofFired i)
    (built : ∀ table, s.Holds table → table.Built) {t : Session} (works : s.Works t) :
    (∀ table, s.Holds table → table.BeginsWithEof → ∀ perform context,
      (∃ u, table.stepWith perform i context t = some (.ok .exhausted, u)) ↔
        (t.cursor i).exhausted = true) ∧
    ((t.cursor i).exhausted = true →
      ∃ a b, s.Works a ∧ Deed a b ∧ b.Works t ∧
        (a.cursor i).ahead = [] ∧ (a.cursor i).exhausted = false ∧
        ((∃ table, a.Holds table ∧ b = a.tried table i ∧ (t.EofFired i ↔ table.EndsInEof)) ∨
          b = a.setCursor i (a.cursor i).markIfEmpty ∧ ¬t.EofFired i)) := by
  have hlive : (s.cursor i).exhausted = false := by rw [hopen]; rfl
  have hsound : (s.cursor i).Sound := hopen ▸ Cursor.sound_ofText text
  constructor
  · intro table held hfirst perform context
    obtain ⟨-, gs, -, hmoves⟩ := works.leads.moves hi
    rw [RuleTable.stepWith_exhausted_iff]
    exact (built table held).attempt_exhausted_iff hfirst (hmoves.sound hsound)
  · intro hover
    obtain ⟨a, b, ha, hab, hb, halive, hbover⟩ := works.exhausting hlive hover
    have hia := hi.trans_le ha.size_le
    have builta := ha.forall_holds built
    have hbefore := ha.count_endsInput hi built (halive.trans hlive.symm)
    have hafter := hb.count_endsInput (hia.trans_le hab.size_le)
      (Session.Works.forall_holds (ha.tail hab) built) (hover.trans hbover.symm)
    obtain ⟨hahead, htried | rfl⟩ := (hab.on hia).of_exhausted hia halive hbover
    · obtain ⟨table, held, rfl⟩ := htried
      refine ⟨a, _, ha, hab, hb, hahead, halive, .inl ⟨table, held, rfl, ?_⟩⟩
      unfold Session.EofFired at hfresh ⊢
      rw [hafter, Session.entriesOn_tried_self, List.countP_append, hbefore]
      rcases (builta table held).entries_at_end i halive hahead with ⟨e, he, hends, hlast⟩ | hnone
      · rw [he, List.countP_singleton, if_pos hends]
        exact iff_of_true (by omega) hlast
      · rw [hnone.1]
        exact iff_of_false hfresh hnone.2
    · refine ⟨a, _, ha, hab, hb, hahead, halive, .inr ⟨rfl, ?_⟩⟩
      unfold Session.EofFired at hfresh ⊢
      rw [hafter]
      change ¬0 < (entriesOn i a.journal).countP Entry.endsInput
      rwa [hbefore]

/-- Any characters, one at a time. -/
def remainder : RuleTable := ⟨[⟨0, .wildcard, .string, ⟨1, [], [], false⟩⟩]⟩

/-- Reads all that comes after a number sign. -/
def remark : Action :=
  Recipe.action 4 "remark" 0 (Action.standardSignature 2)
    (.sub ⟨"remainder", none, none, none, false, false, none⟩)

def remarkEnd : Action := Recipe.action 4 "end" 1 Action.textOnly (.const (.text "<eof>".toList))

/-- The end or, of lesser priority, a number sign with what comes after it. -/
def remarks : RuleTable := ⟨[
  ⟨0, .eof, remarkEnd, ⟨1, [], [], false⟩⟩,
  ⟨1, .regex .pattern ['#'] ⟨.char 35 .exact, 1⟩, remark, ⟨2, [], [], false⟩⟩]⟩

theorem built_remainder : remainder.Built :=
  ⟨.bare, .declarations [.rule (.kind .wildcard) (.action .string)], [], rfl⟩

theorem built_remarks : remarks.Built :=
  ⟨.bare, .declarations [.rule (.kind .eof) (.action remarkEnd),
    .rule (.text ['#']) (.action remark)], [], rfl⟩

/-- A session with a cursor before a remark. -/
def remarkSession : Session :=
  { Session.empty with
    cursors := #[.ofText ['#', 'a']]
    lexers := [("remarks", remarks), ("remainder", remainder)] }

/-- The remark is read to its end within the action, and no rule for the end ever fires. -/
theorem exhausted_by_one_pass_remark :
    remarks.BeginsWithEof ∧ (∀ table, remarkSession.Holds table → table.Built) ∧
    ∃ r t, (Script.request (.step "remarks" 0 [])).run (Run.perform 4) remarkSession = some (r, t) ∧
      remarkSession.Works t ∧
      (∃ u, remarks.stepWith (Run.perform 4) 0 [] t = some (.ok .exhausted, u)) ∧
      ¬t.EofFired 0 ∧
      ∃ a b, remarkSession.Works a ∧ Deed a b ∧ b.Works t ∧
        ((∃ table, a.Holds table ∧ b = a.tried table 0 ∧ ¬table.EndsInEof) ∨
          b = a.setCursor 0 (a.cursor 0).markIfEmpty) := by
  have hfirst : remarks.BeginsWithEof := ⟨_, _, rfl, rfl⟩
  have built : ∀ table, remarkSession.Holds table → table.Built := by
    rintro table (⟨name, hname⟩ | ⟨name, hname⟩ | ⟨j, a, ha, rfl⟩)
    · simp only [remarkSession, List.mem_cons, List.not_mem_nil, or_false, Prod.mk.injEq] at hname
      rcases hname with ⟨-, rfl⟩ | ⟨-, rfl⟩
      · exact built_remarks
      · exact built_remainder
    · cases hname
    · cases ha
  have hvisit : (((Script.request (.step "remarks" 0 [])).run (Run.perform 4) remarkSession).any
      fun p => (p.2.cursor 0).exhausted &&
        (entriesOn 0 p.2.journal).countP Entry.endsInput == 0) = true := by
    decide +kernel
  obtain ⟨⟨r, t⟩, hrun, hend⟩ := (Option.any_eq_true _ _).mp hvisit
  obtain ⟨hover, hcount⟩ := (Bool.and_eq_true _ _).mp hend
  have hnever : ¬t.EofFired 0 := by
    rw [Session.EofFired, eq_of_beq hcount]
    exact Nat.lt_irrefl 0
  have works := Run.works_of_script hrun
  have hfresh : ¬remarkSession.EofFired 0 := Nat.lt_irrefl 0
  obtain ⟨hreports, hpass⟩ := exhausted_by_one_pass (by decide) rfl hfresh built works
  have held : remarkSession.Holds remarks := .inl ⟨"remarks", List.mem_cons_self⟩
  obtain ⟨a, b, ha, hab, hb, -, -, hwho⟩ := hpass hover
  refine ⟨hfirst, built, r, t, hrun, works, ?_, hnever, a, b, ha, hab, hb, ?_⟩
  · exact (hreports remarks held hfirst _ []).mpr hover
  · rcases hwho with ⟨table, hheld, rfl, hiff⟩ | ⟨rfl, -⟩
    · exact .inl ⟨table, hheld, rfl, fun hends => hnever (hiff.mpr hends)⟩
    · exact .inr rfl

end FirstMatch
