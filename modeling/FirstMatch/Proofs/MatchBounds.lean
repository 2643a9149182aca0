import FirstMatch.Rule

/-!
Matching stays within the text: every spot that it comes to, the marks of groups included, is a spot
of the text that was given. So no match is longer than the text.
-/

namespace FirstMatch

/-- A spot of the text, whose index counts the characters behind it. -/
structure Spot.Within (text : List Char) (s : Spot) : Prop where
  text_eq : s.text = text
  index_eq : s.index = s.behind.length

/-- Registers that hold spots of the text only. -/
structure Registers.Within (text : List Char) (r : Registers) : Prop where
  spot : r.spot.Within text
  marks : ∀ s, some s ∈ r.marks → s.Within text

def Verdict.Within (text : List Char) : Verdict → Prop
  | .matched r => r.Within text
  | .failed r => r.Within text

/-- Going on from a spot of the text stays within the text. -/
def Continuation.Keeps (text : List Char) (k : Continuation) : Prop :=
  ∀ ⦃s : Spot⦄ ⦃r : Registers⦄, s.Within text → r.Within text → (k.run s r).Within text

/-- Taking a turn stays within the text. -/
def Turn.Keeps (text : List Char) (turn : Turn) : Prop :=
  ∀ ⦃k : Continuation⦄ ⦃s : Spot⦄ ⦃r : Registers⦄, k.Keeps text → s.Within text →
    r.Within text → (turn k s r).Within text

variable {text : List Char}

namespace Spot

theorem within_start (text : List Char) : (start text).Within text := ⟨rfl, rfl⟩

theorem Within.index_le {s : Spot} (h : s.Within text) : s.index ≤ text.length := by
  rw [h.index_eq, ← h.text_eq]
  simp [Spot.text]

theorem Within.eat? {s t : Spot} {test : Nat → Bool} (h : s.Within text)
    (ht : s.eat? test = some t) : t.Within text := by
  refine ⟨(text_of_eat? ht).trans h.text_eq, ?_⟩
  unfold Spot.eat? at ht
  split at ht
  · cases ht
  · split at ht
    · cases ht
      simp [h.index_eq]
    · cases ht

theorem Within.retreat {s : Spot} (h : s.Within text) : s.retreat.Within text := by
  refine ⟨(text_retreat s).trans h.text_eq, ?_⟩
  have hindex := h.index_eq
  unfold Spot.retreat
  split
  · exact hindex
  · next c cs hc =>
    rw [hc] at hindex
    simp [hindex]

theorem Within.back {s : Spot} (h : s.Within text) (n : Nat) : (Spot.back n s).Within text := by
  induction n generalizing s with
  | zero => exact h
  | succ n ih => exact ih h.retreat

theorem index_skipWhile (test : Nat → Bool) (behind cs : List Char) (index : Nat)
    (most : Option Nat) (h : index = behind.length) :
    (skipWhile test behind index cs most).index =
      (skipWhile test behind index cs most).behind.length := by
  induction cs generalizing behind index most with
  | nil => exact h
  | cons c cs ih =>
    rw [skipWhile]
    split
    · exact h
    · exact ih (c :: behind) (index + 1) _ (by simp [h])

theorem Within.advanceWhile {s : Spot} (h : s.Within text) (test : Nat → Bool)
    (most : Option Nat) : (s.advanceWhile test most).Within text :=
  ⟨(text_advanceWhile s test most).trans h.text_eq, index_skipWhile _ _ _ _ _ h.index_eq⟩

theorem Within.eatText {s t : Spot} {rule : CaseRule} {ds : List Char} (h : s.Within text)
    (ht : Spot.eatText rule ds s = some t) : t.Within text := by
  induction ds generalizing s with
  | nil =>
    cases ht
    exact h
  | cons d ds ih =>
    obtain ⟨u, hu, hut⟩ := Option.bind_eq_some_iff.mp ht
    exact ih (h.eat? hu) hut

end Spot

namespace Registers

theorem within_start (text : List Char) : (start text).Within text :=
  ⟨Spot.within_start text, nofun⟩

theorem Within.stand {r : Registers} (h : r.Within text) {s : Spot} (hs : s.Within text) :
    (r.stand s).Within text := ⟨hs, h.marks⟩

theorem Within.mark {r : Registers} (h : r.Within text) {s : Spot} (hs : s.Within text) (i : Nat) :
    (r.mark i s).Within text := by
  unfold Registers.mark
  split
  · refine ⟨h.spot, fun m hm => ?_⟩
    rcases List.mem_or_eq_of_mem_set hm with hm | hm
    · exact h.marks m hm
    · cases hm
      exact hs
  · refine ⟨h.spot, fun m hm => ?_⟩
    simp only [List.mem_append, List.mem_replicate, reduceCtorEq, and_false, or_false,
      List.mem_singleton, Option.some.injEq] at hm
    rcases hm with hm | rfl
    · exact h.marks m hm
    · exact hs

theorem Within.takeBack {r f : Registers} (h : r.Within text) (hf : f.Within text)
    (inLoop : Bool) : (f.takeBack inLoop r.marks).Within text := by
  refine ⟨hf.spot, fun m hm => ?_⟩
  cases inLoop with
  | true => exact h.marks m hm
  | false => exact hf.marks m (List.mem_of_mem_take hm)

end Registers

namespace Continuation

theorem keeps_finish : finish.Keeps text := fun _ _ hs hr => hr.stand hs

theorem Keeps.attempt {k : Continuation} (hk : k.Keeps text) {s : Spot} {r : Registers}
    (hs : s.Within text) (hr : r.Within text) : (k.attempt s r).Within text :=
  hk hs (hr.stand hs)

end Continuation

namespace CharTest

variable {k : Continuation}

theorem within_counted (c : CharTest) {s t : Spot} {r : Registers} (hs : s.Within text)
    (ht : t.Within text) (hr : r.Within text) : (c.counted s t r).Within text := by
  unfold counted
  split
  · exact hr.stand ht
  · exact hr.stand hs

/-- Goes on from one of the places, if the next character does not rule that out. -/
def giveOnce (k : Continuation) (inLoop : Bool) (before : Marks) (s : Spot) (r : Registers) :
    Verdict :=
  let passed := match k.lead with
    | .code n => !s.faces n
    | _ => false
  if passed then .failed r
  else
    match k.attempt s r with
    | .matched r => .matched r
    | .failed r => .failed (r.takeBack inLoop before)

theorem giveBack_eq (k : Continuation) (inLoop : Bool) (before : Marks) (spare : Nat) (s : Spot)
    (r : Registers) : giveBack k inLoop before spare s r =
      match giveOnce k inLoop before s r, spare with
      | .matched r, _ => .matched r
      | .failed r, 0 => .failed r
      | .failed r, spare + 1 => giveBack k inLoop before spare s.retreat r := by
  rw [giveBack.eq_def]
  rfl

theorem within_giveOnce (hk : k.Keeps text) (inLoop : Bool) {before r : Registers}
    (hb : before.Within text) {s : Spot} (hs : s.Within text) (hr : r.Within text) :
    (giveOnce k inLoop before.marks s r).Within text := by
  have ha := hk.attempt hs hr
  unfold giveOnce
  extract_lets passed
  split
  · exact hr
  · split
    · next t ht =>
      rwa [ht] at ha
    · next t ht =>
      rw [ht] at ha
      exact hb.takeBack ha inLoop

theorem within_giveBack (hk : k.Keeps text) (inLoop : Bool) {before r : Registers}
    (hb : before.Within text) (spare : Nat) {s : Spot} (hs : s.Within text) (hr : r.Within text) :
    (giveBack k inLoop before.marks spare s r).Within text := by
  induction spare generalizing s r with
  | zero =>
    have h := within_giveOnce hk inLoop hb hs hr
    rw [giveBack_eq]
    cases hv : giveOnce k inLoop before.marks s r with
    | matched t => rwa [hv] at h
    | failed t => rwa [hv] at h
  | succ spare ih =>
    have h := within_giveOnce hk inLoop hb hs hr
    rw [giveBack_eq]
    cases hv : giveOnce k inLoop before.marks s r with
    | matched t => rwa [hv] at h
    | failed t =>
      rw [hv] at h
      exact ih hs.retreat h

theorem within_takeMore (c : CharTest) (hk : k.Keeps text) (inLoop : Bool) {before r : Registers}
    (hb : before.Within text) {behind ahead : List Char} {index : Nat} (spare : Option Nat)
    (hs : Spot.Within text ⟨behind, ahead, index⟩) (hr : r.Within text) :
    (takeMore c k inLoop before.marks behind index ahead spare r).Within text := by
  induction ahead generalizing behind index spare r with
  | nil =>
    unfold takeMore
    have ha := hk.attempt hs hr
    dsimp only
    split
    · next t ht =>
      rwa [ht] at ha
    · next t ht =>
      rw [ht] at ha
      exact (hb.takeBack ha inLoop).stand hs
  | cons x rest ih =>
    have hnext : Spot.Within text ⟨x :: behind, rest, index + 1⟩ := by
      constructor
      · rw [← hs.text_eq]
        simp [Spot.text]
      · exact congrArg (· + 1) hs.index_eq
    unfold takeMore
    have ha := hk.attempt hs hr
    dsimp only
    split
    · next t ht =>
      rwa [ht] at ha
    · next t ht =>
      rw [ht] at ha
      have hstand := (hb.takeBack ha inLoop).stand hs
      split
      · have hcounted := within_counted c hs hnext hstand
        split
        · exact hcounted
        · exact ih _ hnext hcounted
      · exact hstand

theorem within_repeated (c : CharTest) (pace : Pace) (least : Nat) (most : Option Nat)
    (inLoop : Bool) (hk : k.Keeps text) {s : Spot} {r : Registers} (hs : s.Within text)
    (hr : r.Within text) : (c.repeated pace least most inLoop k s r).Within text := by
  unfold repeated
  split
  · exact hr
  · cases pace with
    | greedy =>
      have ht := hs.advanceWhile c.holds most
      have hcounted := within_counted c hs ht hr
      dsimp only
      split
      · exact hcounted
      · exact within_giveBack hk inLoop hcounted _ ht hcounted
    | possessive =>
      have ht := hs.advanceWhile c.holds most
      have hcounted := within_counted c hs ht hr
      dsimp only
      split
      · exact hcounted
      · exact hk ht hcounted
    | lazy =>
      have ht := hs.advanceWhile c.holds (some least)
      have hcounted := within_counted c hs ht hr
      dsimp only
      split
      · exact hcounted
      · exact within_takeMore c hk inLoop hcounted _ ht hcounted

end CharTest

namespace Loop

variable {turn : Turn} {k : Continuation}

theorem within_leave (hk : k.Keeps text) {s : Spot} {r : Registers} (hs : s.Within text)
    (hr : r.Within text) : (leave k s r).Within text := by
  have ha := hk.attempt hs hr
  unfold leave
  split
  · next t ht =>
    rwa [ht] at ha
  · next t ht =>
    rw [ht] at ha
    exact ha.stand hs

theorem within_greedy (hturn : turn.Keeps text) (hk : k.Keeps text) (least : Nat)
    (most : Option Nat) (bound count : Nat) (last : Option Nat) {s : Spot} {r : Registers}
    (hs : s.Within text) (hr : r.Within text) :
    (greedy turn least most k bound count last s r).Within text := by
  induction bound generalizing count last s r with
  | zero => exact hr
  | succ bound ih =>
    have hnext (last : Option Nat) := hturn (k := ⟨.other, greedy turn least most k bound (count + 1) last⟩)
      (fun _ _ ht hq => ih (count + 1) last ht hq) hs (hr.stand hs)
    unfold greedy
    split
    · have h := hnext last
      split
      · next t ht =>
        rwa [ht] at h
      · next t ht =>
        rw [ht] at h
        exact h.stand hs
    · split
      · have h := hnext (some s.index)
        split
        · next t ht =>
          rwa [ht] at h
        · next t ht =>
          rw [ht] at h
          exact within_leave hk hs (hr.takeBack h true)
      · exact within_leave hk hs hr

theorem within_lazily (hturn : turn.Keeps text) (hk : k.Keeps text) (least : Nat)
    (most : Option Nat) (inLoop : Bool) (bound count : Nat) (last : Option Nat) {s : Spot}
    {r : Registers} (hs : s.Within text) (hr : r.Within text) :
    (lazily turn least most inLoop k bound count last s r).Within text := by
  induction bound generalizing count last s r with
  | zero => exact hr
  | succ bound ih =>
    have hnext (last : Option Nat) {r : Registers} (hr : r.Within text) :=
      hturn (k := ⟨.other, lazily turn least most inLoop k bound (count + 1) last⟩)
        (fun _ _ ht hq => ih (count + 1) last ht hq) hs hr
    unfold lazily
    split
    · have h := hnext last (hr.stand hs)
      split
      · next t ht =>
        rwa [ht] at h
      · next t ht =>
        rw [ht] at h
        exact h.stand hs
    · have ha := hk.attempt hs hr
      split
      · next t ht =>
        rwa [ht] at ha
      · next f hf =>
        rw [hf] at ha
        have hback := (hr.takeBack ha inLoop).stand hs
        dsimp only
        split
        · have h := hnext (some s.index) hback
          split
          · next t ht =>
            rwa [ht] at h
          · next t ht =>
            rw [ht] at h
            exact h.stand hs
        · exact hback

theorem within_owed (hturn : turn.Keeps text) (n : Nat) {r : Registers} (hr : r.Within text) :
    (owed turn n r).Within text := by
  induction n generalizing r with
  | zero => exact hr
  | succ n ih =>
    have h := hturn Continuation.keeps_finish hr.spot hr
    unfold owed
    split
    · next t ht =>
      rw [ht] at h
      exact ih h
    · next t ht =>
      rwa [ht] at h

theorem within_free (hturn : turn.Keeps text) (undoes : Bool) (most : Option Nat)
    (bound count : Nat) (last : Option Nat) {r : Registers} (hr : r.Within text) :
    (free undoes turn most bound count last r).Within text := by
  induction bound generalizing count last r with
  | zero => exact hr
  | succ bound ih =>
    have h := hturn Continuation.keeps_finish hr.spot hr
    unfold free
    split
    · split
      · next t ht =>
        rw [ht] at h
        exact ih _ _ h
      · next f hf =>
        rw [hf] at h
        split
        · exact hr
        · exact hr.takeBack h true
    · exact hr

theorem within_run (hturn : turn.Keeps text) (hk : k.Keeps text) (pace : Pace) (least : Nat)
    (most : Option Nat) (inLoop : Bool) {s : Spot} {r : Registers} (hs : s.Within text)
    (hr : r.Within text) : (run turn pace least most inLoop k s r).Within text := by
  cases pace with
  | greedy => exact within_greedy hturn hk _ _ _ _ _ hs (hr.stand hs)
  | lazy => exact within_lazily hturn hk _ _ _ _ _ _ hs (hr.stand hs)
  | possessive undoes =>
    have h := within_owed hturn least (hr.stand hs)
    unfold run possessive
    dsimp only
    split
    · next t ht =>
      rw [ht] at h
      exact h.stand hs
    · next t ht =>
      rw [ht] at h
      have hfree := within_free hturn undoes most (bound least s) least none h
      exact hk hfree.spot hfree

end Loop

namespace Regex

theorem keeps_step (test : Nat → Bool) : Turn.Keeps text (step test) := by
  intro k s r hk hs hr
  unfold step
  split
  · next t ht => exact hk (hs.eat? ht) hr
  · exact hr

variable {inLoop : Bool}

theorem keeps_alt {first others : Regex} (hfirst : Turn.Keeps text (first.run inLoop))
    (hothers : Turn.Keeps text (others.run inLoop)) :
    Turn.Keeps text ((alt first others).run inLoop) := by
  intro k s r hk hs hr
  have h := hfirst (k := ⟨.other, k.run⟩) hk hs (hr.stand hs)
  unfold run
  split
  · exact hothers hk hs hr
  · split
    · next t ht => rwa [ht] at h
    · next f hf =>
      rw [hf] at h
      exact hothers hk hs (hr.takeBack h inLoop)

theorem keeps_loop (pace : Pace) (least : Nat) (most : Option Nat) {body : Regex}
    (hbody : ∀ inLoop, Turn.Keeps text (body.run inLoop)) :
    Turn.Keeps text ((loop pace least most body).run inLoop) := by
  intro k s r hk hs hr
  unfold run
  split
  · next test _ => exact CharTest.within_repeated test pace least most inLoop hk hs hr
  · split
    · exact Loop.within_run (hbody inLoop) hk _ _ _ _ hs hr
    · exact Loop.within_run (hbody true) hk _ _ _ _ hs hr

theorem keeps_group (i : Nat) {body : Regex} (hbody : Turn.Keeps text (body.run inLoop)) :
    Turn.Keeps text ((group i body).run inLoop) := fun _ _ _ hk hs hr =>
  hbody (k := ⟨.other, _⟩) (fun _ _ ht hq => hk ht (hq.mark ht _)) hs (hr.mark hs _)

theorem keeps_atomic {body : Regex} (hbody : Turn.Keeps text (body.run inLoop)) :
    Turn.Keeps text ((atomic body).run inLoop) := by
  intro k s r hk hs hr
  have h := hbody Continuation.keeps_finish hs (hr.stand hs)
  unfold run
  split
  · next t ht =>
    rw [ht] at h
    exact hk h.spot h
  · next t ht =>
    rw [ht] at h
    exact h.stand hs

theorem within_looked {k : Continuation} (hk : k.Keeps text) {s : Spot} {r : Registers}
    (hs : s.Within text) (hr : r.Within text) {v : Verdict} (hv : v.Within text) (negated : Bool) :
    (looked negated inLoop k s r v).Within text := by
  cases v with
  | matched q =>
    cases negated with
    | false => exact hk hs hv
    | true => exact hv
  | failed f =>
    cases negated with
    | false => exact hv
    | true => exact hk hs (hr.takeBack hv inLoop)

theorem keeps_ahead (negated : Bool) {body : Regex} (hbody : Turn.Keeps text (body.run inLoop)) :
    Turn.Keeps text ((ahead negated body).run inLoop) := by
  intro k s r hk hs hr
  rw [run_ahead]
  exact within_looked hk hs hr (hbody Continuation.keeps_finish hs (hr.stand hs)) negated

theorem keeps_behind (negated : Bool) (width : Nat) {body : Regex}
    (hbody : Turn.Keeps text (body.run inLoop)) :
    Turn.Keeps text ((behind negated width body).run inLoop) := by
  intro k s r hk hs hr
  have hback := hs.back width
  rw [run_behind]
  split
  · split
    · exact hk hs hr
    · exact hr
  · exact within_looked hk hs hr (hbody Continuation.keeps_finish hback (hr.stand hback)) negated

theorem keeps_reference (i : Nat) (rule : CaseRule) :
    Turn.Keeps text ((reference i rule).run inLoop) := by
  intro k s r hk hs hr
  unfold run
  split
  · next t ht =>
    obtain ⟨captured, -, heat⟩ := Option.bind_eq_some_iff.mp ht
    exact hk (hs.eatText heat) hr
  · exact hr

theorem keeps_ifGroup (i : Nat) {yes no : Regex} (hyes : Turn.Keeps text (yes.run inLoop))
    (hno : Turn.Keeps text (no.run inLoop)) :
    Turn.Keeps text ((ifGroup i yes no).run inLoop) := by
  intro k s r hk hs hr
  unfold run
  split
  · exact hyes (k := ⟨_, k.run⟩) hk hs hr
  · exact hno hk hs hr

/-- Matching a pattern and going on stays within the text. -/
theorem keeps_run (inLoop : Bool) (e : Regex) : Turn.Keeps text (e.run inLoop) := by
  induction e generalizing inLoop with
  | empty => exact fun _ _ _ hk hs hr => hk hs hr
  | never => exact fun _ _ _ _ _ hr => hr
  | char code rule => exact keeps_step _
  | except code rule => exact keeps_step _
  | any newline => exact keeps_step _
  | set negated items rule => exact keeps_step _
  | anchor a =>
    intro k s r hk hs hr
    rw [run_anchor]
    split
    · exact hk hs hr
    · exact hr
  | seq first second ihf ihs =>
    intro k s r hk hs hr
    exact ihf inLoop (fun _ _ ht hq => ihs inLoop hk ht hq) hs hr
  | alt first others ihf iho => exact keeps_alt (ihf inLoop) (iho inLoop)
  | loop pace least most body ih => exact keeps_loop pace least most ih
  | group i body ih => exact keeps_group i (ih inLoop)
  | «scoped» body ih => exact ih inLoop
  | atomic body ih => exact keeps_atomic (ih inLoop)
  | ahead negated body ih => exact keeps_ahead negated (ih inLoop)
  | behind negated width body ih => exact keeps_behind negated width (ih inLoop)
  | reference i rule => exact keeps_reference i rule
  | ifGroup i yes no ihy ihn => exact keeps_ifGroup i (ihy inLoop) (ihn inLoop)

end Regex

namespace Program

theorem within_run_start (p : Program) (text : List Char) :
    (p.tree.run false .finish (.start text) (.start text)).Within text :=
  Regex.keeps_run false p.tree Continuation.keeps_finish (Spot.within_start text)
    (Registers.within_start text)

/-- A match is no longer than the text. -/
theorem length_le_of_run {p : Program} {n : Nat} (h : p.run text = some (.length n)) :
    n ≤ text.length := by
  have hw := p.within_run_start text
  unfold run at h
  split at h
  · cases h
  · split at h
    · cases h
    · next r hr =>
      rw [hr] at hw
      split at h
      · cases h
      · cases h
        exact hw.spot.index_le

end Program

/-- In the empty text all marks coincide. -/
theorem Registers.isTangled_of_within_nil {marks : Marks}
    (h : ∀ s, some s ∈ marks → s.Within []) : isTangled marks = false := by
  fun_induction isTangled marks with
  | case1 first last rest ih =>
    have hlast := (h last (by simp)).index_le
    have hfirst := (h first (by simp)).index_le
    have hrest := ih fun s hs => h s (by simp [hs])
    simp only [List.length_nil, Nat.le_zero_eq] at hlast hfirst
    simp [hlast, hfirst, hrest]
  | case2 first second rest _ ih => exact ih fun s hs => h s (by simp [hs])
  | case3 => rfl

/-- No match of the empty text is tangled. -/
theorem Program.run_nil_ne_tangled (p : Program) : p.run [] ≠ some .tangled := by
  intro h
  have hw := p.within_run_start []
  unfold run at h
  split at h
  · cases h
  · split at h
    · cases h
    · next r hr =>
      rw [hr] at hw
      rw [Registers.isTangled_of_within_nil hw.marks] at h
      cases h

/-- A match of a trigger is no longer than the text. -/
theorem Trigger.length_le_of_matchAt {t : Trigger} {exhausted : Bool} {n : Nat}
    (h : t.matchAt exhausted text = some (.length n)) : n ≤ text.length := by
  cases t with
  | eof =>
    cases exhausted with
    | false => cases h
    | true =>
      cases h
      exact Nat.zero_le _
  | regex kind source program => exact Program.length_le_of_run h

end FirstMatch
