import FirstMatch.Proofs.EndOfInput
import FirstMatch.Proofs.TakenCharacters

/-!
Patterns that match the empty text. Many can be told from the tree: there is a way through it that
takes no character, and the conditions on that way hold where there is no text at all. In the empty
text all spots are one.
-/

namespace FirstMatch

namespace Regex

/-- Whether the tree shows a match of the empty text. -/
def vacuous : Regex → Bool
  | .empty => true
  | .never | .char .. | .except .. | .any _ | .set .. | .reference .. => false
  | .anchor (.boundary _) | .anchor (.interior _) => false
  | .anchor _ => true
  | .seq first second => first.vacuous && second.vacuous
  | .alt first others => first.vacuous || others.vacuous
  | .loop _ least _ body => least == 0 || body.vacuous
  | .group _ body | .scoped body | .atomic body | .ahead false body => body.vacuous
  | .ahead true body => !body.nullable && !body.slips
  | .behind negated width _ => negated && width != 0
  | .ifGroup _ yes no => yes.vacuous && no.vacuous

/-- Whether the tree shows that the pattern matches the empty text, or that it never matches without a
character. -/
def settled (e : Regex) : Bool := e.vacuous || (!e.nullable && !e.slips)

end Regex

theorem Spot.Within.eq_start {s : Spot} (h : s.Within []) : s = .start [] := by
  obtain ⟨behind, ahead, index⟩ := s
  obtain ⟨hbehind, hahead⟩ := List.append_eq_nil_iff.mp h.text_eq
  obtain rfl : behind = [] := List.reverse_eq_nil_iff.mp hbehind
  obtain rfl : ahead = [] := hahead
  obtain rfl : index = 0 := h.index_eq
  rfl

namespace Verdict

variable {v : Verdict} {f : Registers → Verdict}

def Succeeds (v : Verdict) : Prop := ∃ r, v = .matched r

theorem Succeeds.orElse (h : v.Succeeds) : (v.orElse f).Succeeds := by
  obtain ⟨r, rfl⟩ := h
  exact ⟨r, rfl⟩

/-- It is enough that what is done after a failure succeeds. -/
theorem Within.succeeds_orElse {text : List Char} (h : v.Within text)
    (hf : ∀ r : Registers, r.Within text → (f r).Succeeds) : (v.orElse f).Succeeds := by
  cases v with
  | matched r => exact ⟨r, rfl⟩
  | failed r => exact hf r h

end Verdict

/-- Going on in the empty text succeeds, and the next character does not rule it out. -/
structure Continuation.Admits (k : Continuation) : Prop where
  lead : k.lead = .other
  keeps : k.Keeps []
  run : ∀ ⦃r : Registers⦄, r.Within [] → (k.run (.start []) r).Succeeds

/-- A turn succeeds in the empty text as soon as going on does. -/
def Turn.Admits (turn : Turn) : Prop :=
  ∀ ⦃k : Continuation⦄ ⦃r : Registers⦄, k.Admits → r.Within [] →
    (turn k (.start []) r).Succeeds

variable {k : Continuation} {r : Registers}

namespace Continuation

theorem admits_finish : finish.Admits := ⟨rfl, keeps_finish, fun _ _ => ⟨_, rfl⟩⟩

theorem Admits.attempt (hk : k.Admits) (hr : r.Within []) :
    (k.attempt (.start []) r).Succeeds :=
  hk.run (hr.stand (Spot.within_start []))

/-- A match in the empty text ends where it began. -/
theorem Admits.run_spot (hk : k.Admits) (hr : r.Within []) : (k.run r.spot r).Succeeds := by
  rw [hr.spot.eq_start]
  exact hk.run hr

theorem Admits.other (hk : k.Admits) : Continuation.Admits ⟨.other, k.run⟩ :=
  ⟨rfl, hk.keeps, hk.run⟩

end Continuation

namespace CharTest

theorem counted_start (c : CharTest) (r : Registers) :
    c.counted (.start []) (.start []) r = r.stand (.start []) := by
  unfold counted
  split <;> rfl

theorem admits_giveOnce (hk : k.Admits) (inLoop : Bool) (before : Marks) (hr : r.Within []) :
    (giveOnce k inLoop before (.start []) r).Succeeds := by
  unfold giveOnce
  rw [hk.lead]
  exact (hk.attempt hr).orElse

/-- Taking a character no times is going on. -/
theorem admits_repeated (c : CharTest) (pace : Pace) (most : Option Nat) (inLoop : Bool) :
    Turn.Admits (c.repeated pace 0 most inLoop) := by
  intro k r hk hr
  have hstay (limit : Option Nat) : (Spot.start []).advanceWhile c.holds limit = .start [] := rfl
  have hstand := hr.stand (Spot.within_start [])
  unfold repeated
  cases pace with
  | greedy =>
    simp only [hstay, counted_start]
    obtain ⟨q, hq⟩ := admits_giveOnce hk inLoop r.marks hstand
    refine ⟨q, ?_⟩
    change giveBack k inLoop r.marks 0 (.start []) (r.stand (.start [])) = .matched q
    rw [giveBack_eq, hq]
  | possessive undoes =>
    simp only [hstay, counted_start]
    exact hk.run hstand
  | lazy =>
    simp only [hstay, counted_start]
    change (takeMore c k inLoop r.marks [] 0 [] (most.map (· - 0)) (r.stand (.start []))).Succeeds
    unfold takeMore
    exact (hk.attempt hstand).orElse

end CharTest

namespace Loop

variable {turn : Turn} {least : Nat}

theorem admits_leave (hk : k.Admits) (hr : r.Within []) : (leave k (.start []) r).Succeeds := by
  unfold leave
  exact (hk.attempt hr).orElse

/-- Turns that keep to the text, and that succeed in the empty text if any is needed. -/
structure Fits (turn : Turn) (least : Nat) : Prop where
  keeps : turn.Keeps []
  admits : 0 < least → turn.Admits

theorem admits_greedy (hturn : Fits turn least) (most : Option Nat) (hk : k.Admits)
    (bound count : Nat) (last : Option Nat) (hcount : count ≤ least) (hbound : least < count + bound)
    (hr : r.Within []) : (greedy turn least most k bound count last (.start []) r).Succeeds := by
  have hstart := Spot.within_start []
  induction bound generalizing count last r with
  | zero => omega
  | succ bound ih =>
    have hkeeps (last : Option Nat) :
        Continuation.Keeps [] ⟨.other, greedy turn least most k bound (count + 1) last⟩ :=
      fun _ _ hs hq => within_greedy hturn.keeps hk.keeps _ _ _ _ _ hs hq
    unfold greedy
    split
    · next hless =>
      have hadmits : Continuation.Admits
          ⟨.other, greedy turn least most k bound (count + 1) last⟩ :=
        ⟨rfl, hkeeps last, fun q hq => ih (count + 1) last hless (by omega) hq⟩
      exact (hturn.admits (by omega) hadmits (hr.stand hstart)).orElse
    · split
      · have h := hturn.keeps (hkeeps (some (Spot.start []).index)) hstart (hr.stand hstart)
        exact h.succeeds_orElse fun f hf => admits_leave hk (hr.takeBack hf true)
      · exact admits_leave hk hr

theorem admits_lazily (hturn : Fits turn least) (most : Option Nat) (inLoop : Bool) (hk : k.Admits)
    (bound count : Nat) (last : Option Nat) (hcount : count ≤ least) (hbound : least < count + bound)
    (hr : r.Within []) :
    (lazily turn least most inLoop k bound count last (.start []) r).Succeeds := by
  have hstart := Spot.within_start []
  induction bound generalizing count last r with
  | zero => omega
  | succ bound ih =>
    unfold lazily
    split
    · next hless =>
      have hadmits : Continuation.Admits
          ⟨.other, lazily turn least most inLoop k bound (count + 1) last⟩ :=
        ⟨rfl, fun _ _ hs hq => within_lazily hturn.keeps hk.keeps _ _ _ _ _ _ hs hq,
          fun q hq => ih (count + 1) last hless (by omega) hq⟩
      exact (hturn.admits (by omega) hadmits (hr.stand hstart)).orElse
    · exact (hk.attempt hr).orElse

theorem admits_owed (hturn : turn.Keeps []) (count : Nat) (hadmits : 0 < count → turn.Admits)
    (hr : r.Within []) : (owed turn count r).Succeeds := by
  induction count generalizing r with
  | zero => exact ⟨r, rfl⟩
  | succ count ih =>
    have h := hturn Continuation.keeps_finish hr.spot hr
    obtain ⟨q, hq⟩ := hadmits (Nat.succ_pos count) Continuation.admits_finish hr
    rw [← hr.spot.eq_start] at hq
    unfold owed
    rw [hq] at h ⊢
    exact ih (fun _ => hadmits (Nat.succ_pos count)) h

theorem admits_run (hturn : Fits turn least) (pace : Pace) (most : Option Nat) (inLoop : Bool) :
    Turn.Admits (run turn pace least most inLoop) := by
  intro k r hk hr
  have hstand := hr.stand (Spot.within_start [])
  have hbound : least < 0 + bound least (.start []) := by
    rw [Nat.zero_add]
    exact least_lt_bound least _
  cases pace with
  | greedy => exact admits_greedy hturn most hk _ 0 none (Nat.zero_le _) hbound hstand
  | lazy => exact admits_lazily hturn most inLoop hk _ 0 none (Nat.zero_le _) hbound hstand
  | possessive undoes =>
    have h := within_owed hturn.keeps least hstand
    obtain ⟨q, hq⟩ := admits_owed hturn.keeps least hturn.admits hstand
    unfold run possessive
    rw [hq] at h ⊢
    exact hk.run_spot (within_free hturn.keeps undoes most _ _ _ h)

end Loop

namespace Regex

theorem lead_of_vacuous {e : Regex} (h : e.vacuous = true) : e.lead .other = .other := by
  induction e with
  | seq first second ihf ihs =>
    obtain ⟨hfirst, hsecond⟩ := Bool.and_eq_true_iff.mp h
    change first.lead (second.lead .other) = .other
    rw [ihs hsecond, ihf hfirst]
  | «scoped» body ih => exact ih h
  | char code rule => cases h
  | set negated items rule => cases h
  | _ => rfl

theorem nullable_of_vacuous {e : Regex} (h : e.vacuous = true) : e.nullable = true := by
  induction e with
  | seq first second ihf ihs =>
    obtain ⟨hfirst, hsecond⟩ := Bool.and_eq_true_iff.mp h
    exact Bool.and_eq_true_iff.mpr ⟨ihf hfirst, ihs hsecond⟩
  | alt first others ihf iho =>
    exact Bool.or_eq_true_iff.mpr ((Bool.or_eq_true_iff.mp h).imp ihf iho)
  | loop pace least most body ih =>
    exact Bool.or_eq_true_iff.mpr ((Bool.or_eq_true_iff.mp h).imp_right ih)
  | group i body ih => exact ih h
  | «scoped» body ih => exact ih h
  | atomic body ih => exact ih h
  | ifGroup i yes no ihy ihn =>
    exact Bool.or_eq_true_iff.mpr (.inl (ihy (Bool.and_eq_true_iff.mp h).1))
  | never => cases h
  | char code rule => cases h
  | except code rule => cases h
  | any newline => cases h
  | set negated items rule => cases h
  | _ => rfl

/-- The turns of a repetition keep to the text, and the tree shows that those that are needed succeed. -/
theorem fits_body {pace : Pace} {least : Nat} {most : Option Nat} {body : Regex} {inLoop : Bool}
    (h : (loop pace least most body).vacuous = true)
    (hbody : body.vacuous = true → Turn.Admits (body.run inLoop)) :
    Loop.Fits (body.run inLoop) least where
  keeps := keeps_run inLoop body
  admits hleast := by
    rcases Bool.or_eq_true_iff.mp h with hzero | hvacuous
    · have hzero : least = 0 := beq_iff_eq.mp hzero
      omega
    · exact hbody hvacuous

variable {inLoop : Bool}

theorem admits_anchor {a : Anchor} (h : (anchor a).vacuous = true) :
    Turn.Admits ((anchor a).run inLoop) := by
  have holds : a.holds (.start []) = true := by
    cases a with
    | boundary ascii => cases h
    | interior ascii => cases h
    | _ => rfl
  intro k r hk hr
  rw [run_anchor, if_pos holds]
  exact hk.run hr

theorem admits_seq {first second : Regex} (hvacuous : second.vacuous = true)
    (hfirst : Turn.Admits (first.run inLoop)) (hsecond : Turn.Admits (second.run inLoop)) :
    Turn.Admits ((seq first second).run inLoop) := by
  intro k r hk hr
  have hrest : Continuation.Admits ⟨second.lead k.lead, second.run inLoop k⟩ :=
    ⟨by rw [hk.lead, lead_of_vacuous hvacuous],
      fun _ _ hs hq => keeps_run inLoop second hk.keeps hs hq, fun q hq => hsecond hk hq⟩
  exact hfirst hrest hr

theorem admits_first {first : Regex} (hvacuous : first.vacuous = true)
    (hfirst : Turn.Admits (first.run inLoop)) (others : Regex) :
    Turn.Admits ((alt first others).run inLoop) := by
  intro k r hk hr
  unfold run
  rw [lead_of_vacuous hvacuous]
  exact (hfirst hk.other (hr.stand (Spot.within_start []))).orElse

theorem admits_others (first : Regex) {others : Regex} (hothers : Turn.Admits (others.run inLoop)) :
    Turn.Admits ((alt first others).run inLoop) := by
  intro k r hk hr
  have hstart := Spot.within_start []
  unfold run
  split
  · exact hothers hk hr
  · have hwithin := keeps_run inLoop first hk.other.keeps hstart (hr.stand hstart)
    exact hwithin.succeeds_orElse fun f hf => hothers hk (hr.takeBack hf inLoop)

theorem admits_loop {pace : Pace} {least : Nat} {most : Option Nat} {body : Regex}
    (h : (loop pace least most body).vacuous = true)
    (hbody : body.vacuous = true → ∀ inLoop, Turn.Admits (body.run inLoop)) :
    Turn.Admits ((loop pace least most body).run inLoop) := by
  intro k r hk hr
  unfold run
  split
  · next test htest =>
    rcases Bool.or_eq_true_iff.mp h with hzero | hvacuous
    · obtain rfl : least = 0 := beq_iff_eq.mp hzero
      exact test.admits_repeated pace most inLoop hk hr
    · have hnull := nullable_of_charTest? htest
      rw [nullable_of_vacuous hvacuous] at hnull
      cases hnull
  · split
    · exact Loop.admits_run (fits_body h fun hv => hbody hv inLoop) _ most inLoop hk hr
    · exact Loop.admits_run (fits_body h fun hv => hbody hv true) pace most inLoop hk hr

theorem admits_group (i : Nat) {body : Regex} (hbody : Turn.Admits (body.run inLoop)) :
    Turn.Admits ((group i body).run inLoop) := by
  intro k r hk hr
  have hstart := Spot.within_start []
  have hrest : Continuation.Admits ⟨.other, fun t r => k.run t (r.mark (2 * i - 1) t)⟩ :=
    ⟨rfl, fun _ _ ht hq => hk.keeps ht (hq.mark ht _), fun q hq => hk.run (hq.mark hstart _)⟩
  exact hbody hrest (hr.mark hstart _)

/-- In the empty text what matches on its own ends where it began. -/
theorem run_start_of_admits {body : Regex} (hbody : Turn.Admits (body.run inLoop)) {r : Registers}
    (hr : r.Within []) : ∃ q, body.run inLoop .finish (.start []) (r.stand (.start [])) = .matched q ∧
      q.Within [] := by
  have hstand := hr.stand (Spot.within_start [])
  obtain ⟨q, hq⟩ := hbody Continuation.admits_finish hstand
  have hwithin := keeps_run inLoop body Continuation.keeps_finish (Spot.within_start []) hstand
  rw [hq] at hwithin
  exact ⟨q, hq, hwithin⟩

theorem admits_atomic {body : Regex} (hbody : Turn.Admits (body.run inLoop)) :
    Turn.Admits ((atomic body).run inLoop) := by
  intro k r hk hr
  obtain ⟨q, hq, hwithin⟩ := run_start_of_admits hbody hr
  unfold run
  rw [hq]
  exact hk.run_spot hwithin

theorem admits_ahead {body : Regex} (hbody : Turn.Admits (body.run inLoop)) :
    Turn.Admits ((ahead false body).run inLoop) := by
  intro k r hk hr
  obtain ⟨q, hq, hwithin⟩ := run_start_of_admits hbody hr
  rw [run_ahead, hq]
  exact hk.run hwithin

/-- What is ruled out would take a character, and there is none. -/
theorem admits_ruledOut {body : Regex} (hnull : body.nullable = false) (hslip : body.slips = false) :
    Turn.Admits ((ahead true body).run inLoop) := by
  intro k r hk hr
  have hstart := Spot.within_start []
  have hwithin := keeps_run inLoop body Continuation.keeps_finish hstart (hr.stand hstart)
  rw [run_ahead]
  cases hrun : body.run inLoop .finish (.start []) (r.stand (.start [])) with
  | matched q =>
    have hpos := pos_of_run_start hnull hslip hrun
    rw [hrun] at hwithin
    exact absurd hwithin.spot.index_le (Nat.not_le_of_lt hpos)
  | failed f =>
    rw [hrun] at hwithin
    exact hk.run (hr.takeBack hwithin inLoop)

theorem admits_behind {width : Nat} (hwidth : width ≠ 0) (body : Regex) :
    Turn.Admits ((behind true width body).run inLoop) := by
  intro k r hk hr
  have hbefore : (Spot.start []).index < width := Nat.pos_of_ne_zero hwidth
  rw [run_behind, if_pos hbefore]
  exact hk.run hr

theorem admits_ifGroup (i : Nat) {yes no : Regex} (hyes : Turn.Admits (yes.run inLoop))
    (hno : Turn.Admits (no.run inLoop)) : Turn.Admits ((ifGroup i yes no).run inLoop) := by
  intro k r hk hr
  unfold run
  split
  · refine hyes ?_ hr
    rw [hk.lead, ite_self]
    exact hk.other
  · exact hno hk hr

/-- A pattern whose tree shows a match of the empty text has one. -/
theorem admits_run {e : Regex} (h : e.vacuous = true) (inLoop : Bool) :
    Turn.Admits (e.run inLoop) := by
  induction e generalizing inLoop with
  | empty => exact fun k r hk hr => hk.run hr
  | never => cases h
  | char code rule => cases h
  | except code rule => cases h
  | any newline => cases h
  | set negated items rule => cases h
  | anchor a => exact admits_anchor h
  | seq first second ihf ihs =>
    obtain ⟨hfirst, hsecond⟩ := Bool.and_eq_true_iff.mp h
    exact admits_seq hsecond (ihf hfirst inLoop) (ihs hsecond inLoop)
  | alt first others ihf iho =>
    rcases Bool.or_eq_true_iff.mp h with hfirst | hothers
    · exact admits_first hfirst (ihf hfirst inLoop) others
    · exact admits_others first (iho hothers inLoop)
  | loop pace least most body ih => exact admits_loop h ih
  | group i body ih => exact admits_group i (ih h inLoop)
  | «scoped» body ih => exact ih h inLoop
  | atomic body ih => exact admits_atomic (ih h inLoop)
  | ahead negated body ih =>
    cases negated with
    | false => exact admits_ahead (ih h inLoop)
    | true =>
      obtain ⟨hnull, hslip⟩ := Bool.and_eq_true_iff.mp h
      exact admits_ruledOut (by simpa using hnull) (by simpa using hslip)
  | behind negated width body =>
    cases negated with
    | false => cases h
    | true => exact admits_behind (by simpa [vacuous] using h) body
  | reference i rule => cases h
  | ifGroup i yes no ihy ihn =>
    obtain ⟨hyes, hno⟩ := Bool.and_eq_true_iff.mp h
    exact admits_ifGroup i (ihy hyes inLoop) (ihn hno inLoop)

theorem least_width_of_vacuous {e : Regex} (h : e.vacuous = true) (groupWidth : Nat → Width) :
    (e.width groupWidth).least = 0 := by
  have hcut (least most : Nat) (hzero : least = 0) : (Width.cut least most).least = 0 := by
    rw [hzero]
    rfl
  induction e with
  | seq first second ihf ihs =>
    obtain ⟨hfirst, hsecond⟩ := Bool.and_eq_true_iff.mp h
    refine hcut _ _ ?_
    rw [ihf hfirst, ihs hsecond]
  | alt first others ihf iho =>
    refine Nat.min_eq_zero_iff.mpr ?_
    exact (Bool.or_eq_true_iff.mp h).imp ihf iho
  | loop pace least most body ih =>
    refine hcut _ _ (Nat.mul_eq_zero.mpr ?_)
    exact (Bool.or_eq_true_iff.mp h).symm.imp ih beq_iff_eq.mp
  | group i body ih => exact ih h
  | «scoped» body ih => exact ih h
  | atomic body ih => exact ih h
  | ifGroup i yes no ihy ihn =>
    exact Nat.min_eq_zero_iff.mpr (.inl (ihy (Bool.and_eq_true_iff.mp h).1))
  | never => cases h
  | char code rule => cases h
  | except code rule => cases h
  | any newline => cases h
  | set negated items rule => cases h
  | reference i rule => cases h
  | _ => rfl

theorem least_of_vacuous {dialect : Dialect} {source : List Char} {p : Program}
    (hread : ofSource dialect source = .ok p) (h : p.tree.vacuous = true) : p.least = 0 := by
  obtain ⟨e, s, ds, -, hprogram⟩ := ofSourceAs_eq_ok hread
  unfold program at hprogram
  dsimp only at hprogram
  split at hprogram
  · cases hprogram
  · split at hprogram
    · cases hprogram
    · cases hprogram
      exact least_width_of_vacuous h _

end Regex

namespace Program

variable {p : Program}

/-- A match of the empty text takes no character. -/
theorem run_nil_eq_none_or (p : Program) : p.run [] = none ∨ p.run [] = some (.length 0) := by
  cases hrun : p.run [] with
  | none => exact .inl rfl
  | some m =>
    cases m with
    | length n =>
      obtain rfl : n = 0 := Nat.le_zero.mp (length_le_of_run hrun)
      exact .inr rfl
    | tangled => exact absurd hrun p.run_nil_ne_tangled

theorem run_nil_of_vacuous (hleast : p.least = 0) (h : p.tree.vacuous = true) :
    p.run [] = some (.length 0) := by
  refine p.run_nil_eq_none_or.resolve_left fun hnone => ?_
  obtain ⟨q, hq⟩ := Regex.admits_run h false Continuation.admits_finish (Registers.within_start [])
  unfold run at hnone
  rw [hleast, hq] at hnone
  cases hnone

/-- A program whose tree settles it matches some text without characters only if it matches the empty
text. -/
theorem run_nil_of_settled {dialect : Regex.Dialect} {source text : List Char}
    (hread : Regex.ofSource dialect source = .ok p) (hsettled : p.tree.settled = true) (h : p.run text = some (.length 0)) :
    p.run [] = some (.length 0) := by
  rcases Bool.or_eq_true_iff.mp hsettled with hvacuous | htakes
  · exact run_nil_of_vacuous (Regex.least_of_vacuous hread hvacuous) hvacuous
  · obtain ⟨hnull, hslip⟩ := Bool.and_eq_true_iff.mp htakes
    have hpos := pos_of_run (by simpa using hnull) (by simpa using hslip) h
    exact absurd hpos (Nat.lt_irrefl 0)

end Program

end FirstMatch
