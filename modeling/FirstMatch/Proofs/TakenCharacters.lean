import FirstMatch.Proofs.MatchBounds

/-!
Patterns that take a character. A pattern all of whose alternatives contain a single character, outside
of conditions, never matches without one. An exception are possessive repetitions of what looks back
if they do not undo the turn that failed: they go on from where it has failed, which may lie behind.
-/

namespace FirstMatch

namespace Regex

/-- Whether a pattern may match without a character; conditions are taken to hold. -/
def nullable : Regex → Bool
  | .empty | .anchor _ | .ahead .. | .behind .. | .reference .. => true
  | .never | .char .. | .except .. | .any _ | .set .. => false
  | .seq first second => first.nullable && second.nullable
  | .alt first others => first.nullable || others.nullable
  | .loop _ least _ body => least == 0 || body.nullable
  | .group _ body | .scoped body | .atomic body => body.nullable
  | .ifGroup _ yes no => yes.nullable || no.nullable

/-- Whether a pattern looks back somewhere. -/
def looksBack : Regex → Bool
  | .behind .. => true
  | .seq first second => first.looksBack || second.looksBack
  | .alt first others => first.looksBack || others.looksBack
  | .loop _ _ _ body => body.looksBack
  | .group _ body | .scoped body | .atomic body | .ahead _ body => body.looksBack
  | .ifGroup _ yes no => yes.looksBack || no.looksBack
  | _ => false

/-- Whether something that looks back is repeated possessively, without undoing the turn that failed. -/
def slips : Regex → Bool
  | .seq first second => first.slips || second.slips
  | .alt first others => first.slips || others.slips
  | .loop pace _ _ body => (pace == .possessive false && body.looksBack) || body.slips
  | .group _ body | .scoped body | .atomic body | .ahead _ body => body.slips
  | .ifGroup _ yes no => yes.slips || no.slips
  | _ => false

/-- How many characters a match takes at least, as far as this is told here: none or one. -/
def taken (e : Regex) : Nat := if e.nullable then 0 else 1

end Regex

/-- A match ends at `hi` or beyond, and a failure leaves a spot at `lo` or beyond. -/
def Verdict.Past (lo hi : Nat) : Verdict → Prop
  | .matched r => hi ≤ r.spot.index
  | .failed r => lo ≤ r.spot.index

/-- A match, or what is done after the failure. -/
def Verdict.orElse (v : Verdict) (f : Registers → Verdict) : Verdict :=
  match v with
  | .matched r => .matched r
  | .failed r => f r

theorem Verdict.past_zero (v : Verdict) : v.Past 0 0 := by
  cases v <;> exact Nat.zero_le _

theorem Verdict.Past.orElse {v : Verdict} {f : Registers → Verdict} {lo hi : Nat}
    (h : v.Past lo hi) (hf : ∀ r : Registers, lo ≤ r.spot.index → (f r).Past lo hi) :
    (v.orElse f).Past lo hi := by
  cases v with
  | matched r => exact h
  | failed r => exact hf r h

/-- Going on from `p` or beyond ends past the given indices. -/
def Continuation.Past (lo p hi : Nat) (k : Continuation) : Prop :=
  ∀ ⦃s : Spot⦄ ⦃r : Registers⦄, p ≤ s.index → lo ≤ r.spot.index → (k.run s r).Past lo hi

/-- A turn takes `n` characters before it goes on, and never falls back behind where it began, unless
it looks back. -/
def Turn.Takes (back : Bool) (n : Nat) (turn : Turn) : Prop :=
  ∀ ⦃k : Continuation⦄ ⦃lo p hi : Nat⦄ ⦃s : Spot⦄ ⦃r : Registers⦄, (back = true → lo = 0) →
    lo ≤ p → p ≤ s.index → lo ≤ r.spot.index → k.Past lo (p + n) hi → (turn k s r).Past lo hi

namespace Spot

theorem index_eat? {s t : Spot} {test : Nat → Bool} (h : s.eat? test = some t) :
    t.index = s.index + 1 := by
  unfold eat? at h
  split at h
  · cases h
  · split at h
    · cases h
      rfl
    · cases h

theorem index_le_retreat (s : Spot) : s.index ≤ s.retreat.index + 1 := by
  unfold retreat
  split
  · exact Nat.le_succ _
  · dsimp only
    omega

theorem le_index_skipWhile (test : Nat → Bool) (behind cs : List Char) (index : Nat)
    (most : Option Nat) : index ≤ (skipWhile test behind index cs most).index := by
  induction cs generalizing behind index most with
  | nil => exact Nat.le_refl _
  | cons c cs ih =>
    rw [skipWhile]
    split
    · exact Nat.le_refl _
    · exact Nat.le_trans (Nat.le_succ index) (ih _ _ _)

theorem le_index_advanceWhile (s : Spot) (test : Nat → Bool) (most : Option Nat) :
    s.index ≤ (s.advanceWhile test most).index := le_index_skipWhile ..

theorem le_index_eatText {s t : Spot} {rule : CaseRule} {ds : List Char}
    (h : eatText rule ds s = some t) : s.index ≤ t.index := by
  induction ds generalizing s with
  | nil =>
    cases h
    exact Nat.le_refl _
  | cons d ds ih =>
    obtain ⟨u, hu, hut⟩ := Option.bind_eq_some_iff.mp h
    have hle := ih hut
    rw [index_eat? hu] at hle
    omega

end Spot

theorem Registers.spot_mark (r : Registers) (i : Nat) (s : Spot) : (r.mark i s).spot = r.spot := by
  unfold mark
  split <;> rfl

namespace Continuation

variable {k : Continuation} {lo p hi : Nat}

theorem past_finish (lo p : Nat) : finish.Past lo p p := fun _ _ hs _ => hs

theorem Past.mono (hk : k.Past lo p hi) {q : Nat} (h : p ≤ q) : k.Past lo q hi :=
  fun _ _ hs hr => hk (Nat.le_trans h hs) hr

theorem Past.attempt (hk : k.Past lo p hi) (hlo : lo ≤ p) {s : Spot} (hs : p ≤ s.index)
    (r : Registers) : (k.attempt s r).Past lo hi :=
  hk hs (Nat.le_trans hlo hs)

end Continuation

theorem Turn.Takes.mono {turn : Turn} {back : Bool} {m n : Nat} (h : turn.Takes back n)
    (hmn : m ≤ n) : turn.Takes back m :=
  fun _ _ _ _ _ _ hback hlo hs hr hk => h hback hlo hs hr (hk.mono (by omega))

theorem Turn.Takes.left {turn : Turn} {b c : Bool} {n : Nat} (h : turn.Takes b n) :
    turn.Takes (b || c) n :=
  fun _ _ _ _ _ _ hback => h fun hb => hback (Bool.or_eq_true_iff.mpr (.inl hb))

theorem Turn.Takes.right {turn : Turn} {b c : Bool} {n : Nat} (h : turn.Takes c n) :
    turn.Takes (b || c) n :=
  fun _ _ _ _ _ _ hback => h fun hc => hback (Bool.or_eq_true_iff.mpr (.inr hc))

namespace CharTest

variable {k : Continuation} {lo p hi : Nat}

theorem le_counted (c : CharTest) {s t : Spot} (hs : lo ≤ s.index) (ht : lo ≤ t.index)
    (r : Registers) : lo ≤ (c.counted s t r).spot.index := by
  unfold counted Registers.stand
  dsimp only
  split
  · exact ht
  · exact hs

theorem past_giveOnce (hk : k.Past lo p hi) (hlo : lo ≤ p) (inLoop : Bool) (before : Marks)
    {s : Spot} (hs : p ≤ s.index) {r : Registers} (hr : lo ≤ r.spot.index) :
    (giveOnce k inLoop before s r).Past lo hi := by
  unfold giveOnce
  extract_lets passed
  split
  · exact hr
  · exact (hk.attempt hlo hs r).orElse fun q hq => hq

theorem past_giveBack (hk : k.Past lo p hi) (hlo : lo ≤ p) (inLoop : Bool) (before : Marks)
    (spare : Nat) {s : Spot} (hs : p + spare ≤ s.index) {r : Registers} (hr : lo ≤ r.spot.index) :
    (giveBack k inLoop before spare s r).Past lo hi := by
  induction spare generalizing s r with
  | zero =>
    have h := past_giveOnce hk hlo inLoop before hs hr
    rw [giveBack_eq]
    cases hv : giveOnce k inLoop before s r with
    | matched t => rwa [hv] at h
    | failed t => rwa [hv] at h
  | succ spare ih =>
    have h := past_giveOnce hk hlo inLoop before (s := s) (by omega) hr
    rw [giveBack_eq]
    cases hv : giveOnce k inLoop before s r with
    | matched t => rwa [hv] at h
    | failed t =>
      rw [hv] at h
      have hback := s.index_le_retreat
      exact ih (by omega) h

theorem past_takeMore (c : CharTest) (hk : k.Past lo p hi) (hlo : lo ≤ p) (inLoop : Bool)
    (before : Marks) (behind ahead : List Char) {index : Nat} (spare : Option Nat)
    (hs : p ≤ index) (r : Registers) :
    (takeMore c k inLoop before behind index ahead spare r).Past lo hi := by
  induction ahead generalizing behind index spare r with
  | nil =>
    unfold takeMore
    exact (hk.attempt hlo (s := ⟨behind, [], index⟩) hs r).orElse fun _ _ => Nat.le_trans hlo hs
  | cons x rest ih =>
    have hlos := Nat.le_trans hlo hs
    unfold takeMore
    refine (hk.attempt hlo (s := ⟨behind, x :: rest, index⟩) hs r).orElse fun q _ => ?_
    dsimp only
    split
    · split
      · exact c.le_counted hlos (Nat.le_succ_of_le hlos) _
      · exact ih _ _ (Nat.le_succ_of_le hs) _
    · exact hlos

/-- Repeating a single character takes the characters that are needed. -/
theorem takes_repeated (c : CharTest) (pace : Pace) (least : Nat) (most : Option Nat)
    (inLoop back : Bool) : Turn.Takes back least (c.repeated pace least most inLoop) := by
  intro k lo p hi s r _ hlo hs hr hk
  have hlo' : lo ≤ p + least := by omega
  have hpast (limit : Option Nat) := s.le_index_advanceWhile c.holds limit
  have hcounted (limit : Option Nat) (q : Registers) :
      lo ≤ (c.counted s (s.advanceWhile c.holds limit) q).spot.index :=
    c.le_counted (by omega) (by have := hpast limit; omega) q
  unfold repeated
  split
  · exact hr
  · cases pace with
    | greedy =>
      have hle := hpast most
      dsimp only
      split
      · exact hcounted most r
      · exact past_giveBack hk hlo' inLoop _ _ (by omega) (hcounted most r)
    | possessive =>
      have hle := hpast most
      dsimp only
      split
      · exact hcounted most r
      · exact hk (by omega) (hcounted most r)
    | lazy =>
      have hle := hpast (some least)
      dsimp only
      split
      · exact hcounted _ r
      · exact past_takeMore c hk hlo' inLoop _ _ _ _ (by omega) _

end CharTest

namespace Loop

variable {turn : Turn} {back : Bool} {k : Continuation} {lo p hi n : Nat}

theorem past_leave (hk : k.Past lo p hi) (hlo : lo ≤ p) {s : Spot} (hs : p ≤ s.index)
    (r : Registers) : (leave k s r).Past lo hi := by
  unfold leave
  exact (hk.attempt hlo hs r).orElse fun _ _ => Nat.le_trans hlo hs

theorem past_greedy (hturn : turn.Takes back n) (hback : back = true → lo = 0) (least : Nat)
    (most : Option Nat) (hk : k.Past lo (p + least * n) hi) (hlo : lo ≤ p) (bound count : Nat)
    (last : Option Nat) {s : Spot} {r : Registers} (hs : p + count * n ≤ s.index)
    (hr : lo ≤ r.spot.index) : (greedy turn least most k bound count last s r).Past lo hi := by
  induction bound generalizing count last s r with
  | zero => exact hr
  | succ bound ih =>
    have hlos : lo ≤ s.index := by omega
    have hnext (last : Option Nat) : Verdict.Past lo hi
        (turn ⟨.other, greedy turn least most k bound (count + 1) last⟩ s (r.stand s)) :=
      hturn hback hlos (Nat.le_refl _) hlos fun t q ht hq =>
        ih (count + 1) last (by rw [Nat.succ_mul]; omega) hq
    have hdone (h : ¬count < least) (q : Registers) : (leave k s q).Past lo hi := by
      have hmul := Nat.mul_le_mul_right n (Nat.le_of_not_lt h)
      exact past_leave hk (by omega) (by omega) q
    unfold greedy
    split
    · exact (hnext last).orElse fun _ _ => hlos
    · next hcount =>
      split
      · exact (hnext (some s.index)).orElse fun _ _ => hdone hcount _
      · exact hdone hcount _

theorem past_lazily (hturn : turn.Takes back n) (hback : back = true → lo = 0) (least : Nat)
    (most : Option Nat) (inLoop : Bool) (hk : k.Past lo (p + least * n) hi) (hlo : lo ≤ p)
    (bound count : Nat) (last : Option Nat) {s : Spot} {r : Registers}
    (hs : p + count * n ≤ s.index) (hr : lo ≤ r.spot.index) :
    (lazily turn least most inLoop k bound count last s r).Past lo hi := by
  induction bound generalizing count last s r with
  | zero => exact hr
  | succ bound ih =>
    have hlos : lo ≤ s.index := by omega
    have hnext (last : Option Nat) (q : Registers) (hq : lo ≤ q.spot.index) : Verdict.Past lo hi
        (turn ⟨.other, lazily turn least most inLoop k bound (count + 1) last⟩ s q) :=
      hturn hback hlos (Nat.le_refl _) hq fun t q ht hq =>
        ih (count + 1) last (by rw [Nat.succ_mul]; omega) hq
    unfold lazily
    split
    · exact (hnext last (r.stand s) hlos).orElse fun _ _ => hlos
    · next hcount =>
      have hmul := Nat.mul_le_mul_right n (Nat.le_of_not_lt hcount)
      refine (hk.attempt (by omega) (s := s) (by omega) r).orElse fun f _ => ?_
      dsimp only
      split
      · exact (hnext (some s.index) _ hlos).orElse fun _ _ => hlos
      · exact hlos

/-- Each of the turns that are needed goes on from where the one before has ended. -/
theorem past_owed (hturn : turn.Takes back n) (hback : back = true → lo = 0) (count : Nat)
    {r : Registers} (hp : p ≤ r.spot.index) (hlo : lo ≤ p) :
    (owed turn count r).Past lo (p + count * n) := by
  induction count generalizing p r with
  | zero => exact (by omega : p + 0 * n ≤ r.spot.index)
  | succ count ih =>
    have h := hturn hback hlo hp (Nat.le_trans hlo hp) (Continuation.past_finish lo (p + n))
    unfold owed
    split
    · next t ht =>
      rw [ht] at h
      have hrest := ih h (by omega)
      rwa [Nat.succ_mul, Nat.add_comm (count * n), ← Nat.add_assoc]
    · next t ht => rwa [ht] at h

/-- Free turns leave a spot that does not lie behind, if they undo a failure or never look back. -/
theorem le_free (hturn : turn.Takes back n) {undoes : Bool} (h : undoes = false → back = false)
    (most : Option Nat) (bound count : Nat) (last : Option Nat) (r : Registers) :
    r.spot.index ≤ (free undoes turn most bound count last r).spot.index := by
  induction bound generalizing count last r with
  | zero => exact Nat.le_refl _
  | succ bound ih =>
    -- Where a failure may lie behind it is undone, and nothing has to be known of its spot.
    obtain ⟨lo, hback, hlo, hleft⟩ : ∃ lo, (back = true → lo = 0) ∧ lo ≤ r.spot.index ∧
        (undoes = false → lo = r.spot.index) := by
      cases back with
      | true => exact ⟨0, fun _ => rfl, Nat.zero_le _, fun hnot => nomatch h hnot⟩
      | false => exact ⟨r.spot.index, nofun, Nat.le_refl _, fun _ => rfl⟩
    have hend := hturn hback hlo (Nat.le_refl _) hlo (Continuation.past_finish lo (r.spot.index + n))
    unfold free
    split
    · split
      · next t ht =>
        rw [ht] at hend
        exact Nat.le_trans (Nat.le_trans (Nat.le_add_right _ n) hend) (ih _ _ t)
      · next f hf =>
        rw [hf] at hend
        split
        · exact Nat.le_refl _
        · next hnot => exact hleft (Bool.eq_false_iff.mpr hnot) ▸ hend
    · exact Nat.le_refl _

theorem takes_run (hturn : turn.Takes back n) (pace : Pace) (least : Nat) (most : Option Nat)
    (inLoop : Bool) (h : pace = .possessive false → back = false) :
    Turn.Takes back (least * n) (run turn pace least most inLoop) := by
  intro k lo p hi s r hback hlo hs hr hk
  have hlos := Nat.le_trans hlo hs
  cases pace with
  | greedy => exact past_greedy hturn hback least most hk hlo _ 0 none (by omega) hlos
  | lazy => exact past_lazily hturn hback least most inLoop hk hlo _ 0 none (by omega) hlos
  | possessive undoes =>
    have howed := past_owed hturn hback least (r := r.stand s) hs hlo
    unfold run possessive
    dsimp only
    split
    · exact hlos
    · next t ht =>
      rw [ht] at howed
      have hfree := le_free hturn (fun hnot => h (congrArg Pace.possessive hnot)) most
        (bound least s) least none t
      have hend := Nat.le_trans howed hfree
      exact hk hend (by omega)

end Loop

namespace Regex

variable {back inLoop : Bool} {n : Nat}

theorem takes_zero {turn : Turn} (h : ∀ (k : Continuation) (s : Spot) (r : Registers),
    turn k s r = k.run s r ∨ turn k s r = .failed r) : turn.Takes back 0 := by
  intro k lo p hi s r _ _ hs hr hk
  rcases h k s r with h | h
  · rw [h]
    exact hk hs hr
  · rw [h]
    exact hr

theorem takes_step (test : Nat → Bool) : Turn.Takes back 1 (step test) := by
  intro k lo p hi s r _ hlo hs hr hk
  unfold step
  split
  · next t ht =>
    have hindex := Spot.index_eat? ht
    exact hk (by omega) hr
  · exact hr

/-- What is repeated by counting is a single character. -/
theorem nullable_of_charTest? {body : Regex} {test : CharTest} (h : body.charTest? = some test) :
    body.nullable = false := by
  induction body with
  | char code rule => rfl
  | except code rule => rfl
  | any newline => rfl
  | set negated items rule => rfl
  | «scoped» body ih => exact ih h
  | _ => cases h

theorem taken_seq_le (first second : Regex) :
    (seq first second).taken ≤ first.taken + second.taken := by
  unfold taken
  rw [nullable]
  cases first.nullable with
  | true => cases second.nullable <;> decide
  | false => cases second.nullable <;> decide

theorem taken_alt_le (first others : Regex) :
    (alt first others).taken ≤ first.taken ∧ (alt first others).taken ≤ others.taken := by
  unfold taken
  rw [nullable]
  cases first.nullable with
  | true => cases others.nullable <;> decide
  | false => cases others.nullable <;> decide

theorem taken_loop_le (pace : Pace) (least : Nat) (most : Option Nat) (body : Regex) :
    (loop pace least most body).taken ≤ least * body.taken := by
  cases least with
  | zero => exact Nat.le_of_eq (Nat.zero_mul _).symm
  | succ least =>
    have htaken : (loop pace (least + 1) most body).taken = body.taken := rfl
    rw [htaken]
    exact Nat.le_mul_of_pos_left _ (Nat.succ_pos least)

theorem takes_seq {first second : Regex}
    (hfirst : Turn.Takes first.looksBack first.taken (first.run inLoop))
    (hsecond : Turn.Takes second.looksBack second.taken (second.run inLoop)) :
    Turn.Takes (seq first second).looksBack (seq first second).taken
      ((seq first second).run inLoop) := by
  refine Turn.Takes.mono ?_ (taken_seq_le first second)
  intro k lo p hi s r hback hlo hs hr hk
  rw [← Nat.add_assoc] at hk
  exact hfirst.left hback hlo hs hr fun t q ht hq =>
    hsecond.right hback (Nat.le_add_right_of_le hlo) ht hq hk

theorem takes_alt {first others : Regex}
    (hfirst : Turn.Takes first.looksBack first.taken (first.run inLoop))
    (hothers : Turn.Takes others.looksBack others.taken (others.run inLoop)) :
    Turn.Takes (alt first others).looksBack (alt first others).taken
      ((alt first others).run inLoop) := by
  obtain ⟨hlef, hleo⟩ := taken_alt_le first others
  have hfirst := (hfirst.mono hlef).left (c := others.looksBack)
  have hothers := (hothers.mono hleo).right (b := first.looksBack)
  intro k lo p hi s r hback hlo hs hr hk
  unfold run
  split
  · exact hothers hback hlo hs hr hk
  · have h := hfirst (k := ⟨.other, k.run⟩) (r := r.stand s) hback hlo hs (Nat.le_trans hlo hs) hk
    exact h.orElse fun f hf => hothers hback hlo hs hf hk

theorem takes_ifGroup (i : Nat) {yes no : Regex}
    (hyes : Turn.Takes yes.looksBack yes.taken (yes.run inLoop))
    (hno : Turn.Takes no.looksBack no.taken (no.run inLoop)) :
    Turn.Takes (ifGroup i yes no).looksBack (ifGroup i yes no).taken
      ((ifGroup i yes no).run inLoop) := by
  obtain ⟨hley, hlen⟩ := taken_alt_le yes no
  have hyes := (hyes.mono hley).left (c := no.looksBack)
  have hno := (hno.mono hlen).right (b := yes.looksBack)
  intro k lo p hi s r hback hlo hs hr hk
  unfold run
  split
  · exact hyes (k := ⟨_, k.run⟩) hback hlo hs hr hk
  · exact hno hback hlo hs hr hk

theorem takes_loop (pace : Pace) (least : Nat) (most : Option Nat) {body : Regex}
    (h : pace = .possessive false → body.looksBack = false)
    (hbody : ∀ inLoop, Turn.Takes body.looksBack body.taken (body.run inLoop)) :
    Turn.Takes body.looksBack (loop pace least most body).taken
      ((loop pace least most body).run inLoop) := by
  refine Turn.Takes.mono ?_ (taken_loop_le pace least most body)
  intro k lo p hi s r hback hlo hs hr hk
  unfold run
  split
  · next test htest =>
    rw [taken, nullable_of_charTest? htest, if_neg Bool.false_ne_true, Nat.mul_one] at hk
    exact test.takes_repeated pace least most inLoop _ hback hlo hs hr hk
  · split
    · exact Loop.takes_run (hbody inLoop) _ least most inLoop h hback hlo hs hr hk
    · exact Loop.takes_run (hbody true) pace least most inLoop h hback hlo hs hr hk

theorem takes_group (i : Nat) {body : Regex} (hbody : Turn.Takes back n (body.run inLoop)) :
    Turn.Takes back n ((group i body).run inLoop) := by
  intro k lo p hi s r hback hlo hs hr hk
  refine hbody hback hlo hs (by rwa [Registers.spot_mark]) fun t q ht hq => ?_
  exact hk ht (by rwa [Registers.spot_mark])

theorem takes_atomic {body : Regex} (hbody : Turn.Takes back n (body.run inLoop)) :
    Turn.Takes back n ((atomic body).run inLoop) := by
  intro k lo p hi s r hback hlo hs hr hk
  have hlos := Nat.le_trans hlo hs
  have h := hbody hback hlo hs (r := r.stand s) hlos (Continuation.past_finish lo (p + n))
  unfold run
  split
  · next t ht =>
    rw [ht] at h
    exact hk h (Nat.le_trans (Nat.le_add_right_of_le hlo) h)
  · exact hlos

/-- After a look that leaves no spot before `lo` matching goes on from where it was. -/
theorem past_looked {k : Continuation} {lo p q hi : Nat} (hk : k.Past lo p hi) {s : Spot}
    (hs : p ≤ s.index) (r : Registers) {v : Verdict} (hv : v.Past lo q) (hlo : lo ≤ q)
    (negated : Bool) : (looked negated inLoop k s r v).Past lo hi := by
  cases v with
  | matched t =>
    have ht : lo ≤ t.spot.index := Nat.le_trans hlo hv
    cases negated with
    | false => exact hk hs ht
    | true => exact ht
  | failed f =>
    cases negated with
    | false => exact hv
    | true => exact hk hs hv

theorem takes_ahead (negated : Bool) {body : Regex} (hbody : Turn.Takes back n (body.run inLoop)) :
    Turn.Takes back 0 ((ahead negated body).run inLoop) := by
  intro k lo p hi s r hback hlo hs hr hk
  have hv := hbody hback hlo hs (r := r.stand s) (Nat.le_trans hlo hs)
    (Continuation.past_finish lo (p + n))
  rw [run_ahead]
  exact past_looked hk hs r hv (Nat.le_add_right_of_le hlo) negated

/-- Looking behind may leave any spot. -/
theorem takes_behind (negated : Bool) (width : Nat) (body : Regex) :
    Turn.Takes true 0 ((behind negated width body).run inLoop) := by
  intro k lo p hi s r hback hlo hs hr hk
  obtain rfl := hback rfl
  rw [run_behind]
  split
  · split
    · exact hk hs hr
    · exact hr
  · exact past_looked hk hs r (Verdict.past_zero _) (Nat.le_refl 0) negated

theorem takes_reference (i : Nat) (rule : CaseRule) :
    Turn.Takes back 0 ((reference i rule).run inLoop) := by
  intro k lo p hi s r _ hlo hs hr hk
  unfold run
  split
  · next t ht =>
    obtain ⟨captured, -, heat⟩ := Option.bind_eq_some_iff.mp ht
    exact hk (Nat.le_trans hs (Spot.le_index_eatText heat)) hr
  · exact hr

/-- A pattern takes the characters that it is said to. -/
theorem takes_run (e : Regex) (inLoop : Bool) (hslip : e.slips = false) :
    Turn.Takes e.looksBack e.taken (e.run inLoop) := by
  induction e generalizing inLoop with
  | empty => exact takes_zero fun _ _ _ => .inl rfl
  | never => exact fun _ _ _ _ _ _ _ _ _ hr _ => hr
  | char code rule => exact takes_step _
  | except code rule => exact takes_step _
  | any newline => exact takes_step _
  | set negated items rule => exact takes_step _
  | anchor a =>
    refine takes_zero fun k s r => ?_
    rw [run_anchor]
    split
    · exact .inl rfl
    · exact .inr rfl
  | seq first second ihf ihs =>
    obtain ⟨hslipf, hslips⟩ := Bool.or_eq_false_iff.mp hslip
    exact takes_seq (ihf inLoop hslipf) (ihs inLoop hslips)
  | alt first others ihf iho =>
    obtain ⟨hslipf, hslipo⟩ := Bool.or_eq_false_iff.mp hslip
    exact takes_alt (ihf inLoop hslipf) (iho inLoop hslipo)
  | loop pace least most body ih =>
    obtain ⟨hpace, hslipb⟩ := Bool.or_eq_false_iff.mp hslip
    refine takes_loop pace least most ?_ fun inLoop => ih inLoop hslipb
    rintro rfl
    exact hpace
  | group i body ih => exact takes_group i (ih inLoop hslip)
  | «scoped» body ih => exact ih inLoop hslip
  | atomic body ih => exact takes_atomic (ih inLoop hslip)
  | ahead negated body ih => exact takes_ahead negated (ih inLoop hslip)
  | behind negated width body => exact takes_behind negated width body
  | reference i rule => exact takes_reference i rule
  | ifGroup i yes no ihy ihn =>
    obtain ⟨hslipy, hslipn⟩ := Bool.or_eq_false_iff.mp hslip
    exact takes_ifGroup i (ihy inLoop hslipy) (ihn inLoop hslipn)

/-- A pattern that takes a character matches the start of a text only with one. -/
theorem pos_of_run_start {e : Regex} {inLoop : Bool} {text : List Char} {r q : Registers}
    (hnull : e.nullable = false) (hslip : e.slips = false)
    (h : e.run inLoop .finish (.start text) r = .matched q) : 0 < q.spot.index := by
  have hpast := e.takes_run inLoop hslip (s := Spot.start text) (r := r) (fun _ => rfl)
    (Nat.le_refl 0) (Nat.le_refl 0) (Nat.zero_le _) (Continuation.past_finish 0 (0 + e.taken))
  rw [h, taken, hnull] at hpast
  exact hpast

end Regex

theorem Program.pos_of_run {p : Program} (hnull : p.tree.nullable = false)
    (hslip : p.tree.slips = false) {text : List Char} {n : Nat}
    (h : p.run text = some (.length n)) : 0 < n := by
  unfold run at h
  split at h
  · cases h
  · split at h
    · cases h
    · next r hr =>
      split at h
      · cases h
      · cases h
        exact Regex.pos_of_run_start hnull hslip hr

/-- So `[a-z]+(?:(?<=-)x)*+` takes a letter wherever the turn that fails is undone. -/
example : ∀ undoes, (Regex.loop (.possessive undoes) 0 none
    (.seq (.behind false 1 (.char 45 .exact)) (.char 120 .exact))).slips = !undoes := by decide

end FirstMatch
