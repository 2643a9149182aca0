import FirstMatch.Proofs.PairedTokens

/-!
The whole notation of a source beside the one in which dollars are replaced. On the left a dollar means
the end of the text, on the right as usual.
-/

namespace FirstMatch

theorem Unicode.isName_of_dollar {cs : List Char} (h : '$' ∈ cs) : Unicode.isName cs = false := by
  have hstarts : Unicode.startsName '$'.toNat = false := by decide +kernel
  have hcontinues : Unicode.continuesName '$'.toNat = false := by decide +kernel
  cases cs with
  | nil => cases h
  | cons c cs =>
    change (Unicode.startsName c.toNat && cs.all fun d => Unicode.continuesName d.toNat) = false
    rw [Bool.and_eq_false_iff]
    rcases List.mem_cons.mp h with rfl | h
    · exact .inl hstarts
    · refine .inr (List.all_eq_false.mpr ⟨'$', h, ?_⟩)
      rw [hcontinues]
      exact Bool.false_ne_true

theorem Numeral.mem_dropWhile {c : Char} {test : Char → Bool} (hc : test c = false)
    {cs : List Char} (h : c ∈ cs) : c ∈ cs.dropWhile test := by
  induction cs with
  | nil => exact h
  | cons d cs ih =>
    rw [List.dropWhile_cons]
    split
    · next hd =>
      rcases List.mem_cons.mp h with rfl | h
      · rw [hc] at hd
        cases hd
      · exact ih h
    · exact h

theorem Numeral.mem_strip {c : Char} {cs : List Char} (hc : Numeral.isSpace c = false)
    (h : c ∈ cs) : c ∈ Numeral.strip cs := by
  unfold Numeral.strip
  rw [List.mem_reverse]
  exact Numeral.mem_dropWhile hc (List.mem_reverse.mpr (Numeral.mem_dropWhile hc h))

theorem Numeral.baseOf_ten (cs : List Char) : Numeral.baseOf 10 cs = 10 := by
  unfold Numeral.baseOf
  split <;> rfl

theorem Numeral.unmarked_ten (cs : List Char) : Numeral.unmarked 10 cs = cs := by
  unfold Numeral.unmarked
  split <;> rfl

theorem Numeral.mem_sign {c : Char} {cs : List Char} (hplus : c ≠ '+') (hminus : c ≠ '-')
    (h : c ∈ cs) : c ∈ (Numeral.sign cs).2 := by
  unfold Numeral.sign
  split
  · exact List.mem_of_ne_of_mem hplus h
  · exact List.mem_of_ne_of_mem hminus h
  · exact h

/-- A numeral has no dollar in it. -/
theorem Numeral.read_of_dollar {cs : List Char} (h : '$' ∈ cs) :
    ∃ flaw, Numeral.read 10 cs = .error flaw := by
  have hplain : '$' ∈ cs.map Numeral.plain := List.mem_map.mpr ⟨'$', h, by decide⟩
  have hbody := Numeral.mem_sign (by decide) (by decide)
    (Numeral.mem_strip (c := '$') (by decide) hplain)
  have hrest : (Numeral.sign (Numeral.strip (cs.map Numeral.plain))).2.dropWhile
      (fun c => (Numeral.digit 10 c).isSome || c == '_') ≠ [] :=
    List.ne_nil_of_mem (Numeral.mem_dropWhile (by decide) hbody)
  unfold Numeral.read
  simp only [Numeral.baseOf_ten, Numeral.unmarked_ten]
  split
  · exact ⟨_, rfl⟩
  · split
    · exact ⟨_, rfl⟩
    · rw [if_pos (.inr hrest)]
      exact ⟨_, rfl⟩

namespace Regex.Reader

open EndAnchor (Replaces)

variable {source : List Char} {body body' branch branch' : BodyReader}

/-- The bodies of groups are read alike under flags that may be in force. -/
def FollowsBody (source : List Char) (body body' : BodyReader) : Prop :=
  ∀ flags, Announced source flags → Follows source Eq (body flags) (body' flags)

theorem follows_closeParenthesis (start start' : Nat) :
    Follows source Eq (closeParenthesis start) (closeParenthesis start') := by
  unfold closeParenthesis
  refine follows_after (follows_accept (by decide)) fun found => ?_
  split
  · exact follows_pure rfl
  · exact follows_failAt _ _ _

/-- A name that passes has no dollar in it. -/
theorem follows_checkName {a b : List Char} (hab : SameName a b) (offset : Nat) :
    Follows source (fun _ _ => b = a) (checkName a offset) (checkName b offset) := by
  unfold checkName
  rcases hab with rfl | ⟨ha, -⟩
  · split
    · exact follows_pure rfl
    · exact follows_failBack _ _ _
  · rw [Unicode.isName_of_dollar ha]
    exact follows_failBack _ _ _

theorem follows_openGroup (called : Option (List Char)) :
    Follows source Eq (openGroup called) (openGroup called) := by
  unfold openGroup
  refine follows_bind follows_get fun s t hst => ?_
  dsimp only
  rw [hst.nextGroup]
  split
  · refine follows_bind (follows_modify fun s t hst => ?_) fun _ _ _ => follows_pure rfl
    refine ⟨hst.within, hst.announced, hst.rest, hst.flags, ?_, hst.names, hst.awaited,
      hst.lookbehind, hst.dialect⟩
    simp only [hst.widths]
  · refine follows_bind follows_get fun s t hst => ?_
    rw [hst.names]
    split
    · exact follows_bind (R := Eq) (follows_failBack _ _ _) fun _ _ _ => follows_pure rfl
    · refine follows_bind (follows_modify fun s t hst => ?_) fun _ _ _ => follows_pure rfl
      refine ⟨hst.within, hst.announced, hst.rest, hst.flags, ?_, ?_, hst.awaited, hst.lookbehind,
        hst.dialect⟩
      · simp only [hst.widths]
      · simp only [hst.names]

theorem follows_capturing (hbody : FollowsBody source body body') (start start' : Nat)
    {flags : List Flag} (hflags : Announced source flags) (called : Option (List Char)) :
    Follows source Eq (capturing body start flags called)
      (capturing body' start' flags called) := by
  unfold capturing
  refine follows_after (follows_openGroup called) fun group => ?_
  refine follows_after (hbody flags hflags) fun items => ?_
  refine follows_bind (follows_closeParenthesis _ _) fun _ _ _ => ?_
  refine follows_bind (follows_modify fun s t hst => ?_) fun _ _ _ => follows_pure rfl
  refine ⟨hst.within, hst.announced, hst.rest, hst.flags, ?_, hst.names, hst.awaited,
    hst.lookbehind, hst.dialect⟩
  simp only [hst.widths, hst.width]

theorem follows_bracketed (hbody : FollowsBody source body body') (start start' : Nat)
    {flags : List Flag} (hflags : Announced source flags) :
    Follows source Eq (bracketed body start flags) (bracketed body' start' flags) := by
  unfold bracketed
  refine follows_after (hbody flags hflags) fun items => ?_
  exact follows_bind (follows_closeParenthesis _ _) fun _ _ _ => follows_pure rfl

theorem follows_namedReference (flags : List Flag) :
    Follows source Eq (namedReference flags) (namedReference flags) := by
  unfold namedReference
  refine follows_bind (follows_name (by decide) _) fun called called' hcalled => ?_
  refine follows_bind (follows_checkName hcalled 1) fun _ _ h => ?_
  subst h
  refine follows_bind follows_get fun s t hst => ?_
  rw [hst.names]
  split
  · exact follows_failBack _ _ _
  · refine follows_bind follows_get fun s t hst => ?_
    rw [hst.isClosed]
    split
    · exact follows_failBack _ _ _
    · exact follows_bind (follows_checkLookbehind _) fun _ _ _ => follows_pure rfl

theorem follows_comment (start start' : Nat) {fuel fuel' : Nat} (hfuel : fuel ≤ fuel') :
    Follows source Eq (comment start fuel) (comment start' fuel') := by
  induction fuel generalizing fuel' with
  | zero => exact follows_throw _ _
  | succ fuel ih =>
    obtain ⟨fuel', rfl⟩ : ∃ k, fuel' = k + 1 := Nat.exists_eq_succ_of_ne_zero (by omega)
    unfold comment
    refine follows_next (follows_failAt _ _ _) (fun u => ?_) ?_
    · dsimp only
      split
      · exact follows_pure rfl
      · exact ih (by omega)
    · dsimp only
      rw [if_neg (by decide), if_neg (by decide)]
      exact ih (by omega)

theorem follows_lineComment {fuel fuel' : Nat} (hfuel : fuel ≤ fuel') :
    Follows source Eq (lineComment fuel) (lineComment fuel') := by
  induction fuel generalizing fuel' with
  | zero => exact follows_throw _ _
  | succ fuel ih =>
    obtain ⟨fuel', rfl⟩ : ∃ k, fuel' = k + 1 := Nat.exists_eq_succ_of_ne_zero (by omega)
    unfold lineComment
    refine follows_next (follows_pure rfl) (fun u => ?_) ?_
    · dsimp only
      split
      · exact follows_pure rfl
      · exact ih (by omega)
    · dsimp only
      rw [if_neg (by decide), if_neg (by decide)]
      exact ih (by omega)

theorem follows_lookingAhead (hbody : FollowsBody source body body') (start start' : Nat)
    {flags : List Flag} (hflags : Announced source flags) (negated : Bool) :
    Follows source Eq (lookingAhead body start flags negated)
      (lookingAhead body' start' flags negated) := by
  unfold lookingAhead
  refine follows_after (follows_bracketed hbody _ _ hflags) fun items => ?_
  exact follows_pure rfl

theorem follows_lookbehind (hbody : FollowsBody source body body') (start start' : Nat)
    {flags : List Flag} (hflags : Announced source flags) (negated : Bool) :
    Follows source Eq (lookbehind body start flags negated)
      (lookbehind body' start' flags negated) := by
  unfold lookbehind
  refine follows_bind follows_get fun s t hst => ?_
  rw [hst.lookbehind]
  refine follows_bind (follows_modify fun s t hst => ?_) fun _ _ _ => ?_
  · exact ⟨hst.within, hst.announced, hst.rest, hst.flags, hst.widths, hst.names, hst.awaited,
      by rw [hst.nextGroup], hst.dialect⟩
  refine follows_after (hbody flags hflags) fun items => ?_
  refine follows_bind (follows_modify fun s t hst => ?_) fun _ _ _ => ?_
  · exact ⟨hst.within, hst.announced, hst.rest, hst.flags, hst.widths, hst.names, hst.awaited, rfl,
      hst.dialect⟩
  refine follows_bind (follows_closeParenthesis _ _) fun _ _ _ => ?_
  refine follows_bind follows_get fun s t hst => ?_
  rw [hst.width]
  exact follows_pure rfl

theorem follows_conditionGroup : Follows source Eq conditionGroup conditionGroup := by
  unfold conditionGroup
  refine follows_bind (follows_name (by decide) _) fun called called' hcalled => ?_
  rcases hcalled with rfl | ⟨hdollar, -⟩
  · split
    · refine follows_bind follows_get fun s t hst => ?_
      rw [hst.names]
      split
      · exact follows_failBack _ _ _
      · exact follows_pure rfl
    · split
      · exact follows_failBack _ _ _
      · refine follows_bind follows_tell fun n m _ => ?_
        dsimp only
        split
        · exact follows_failAt _ _ _
        · split
          · exact follows_failAt _ _ _
          · split
            · exact follows_failAt _ _ _
            · exact follows_bind (follows_modify fun s t hst => hst.await _ _ _)
                fun _ _ _ => follows_pure rfl
  · rw [Unicode.isName_of_dollar hdollar]
    obtain ⟨flaw, hflaw⟩ := Numeral.read_of_dollar hdollar
    simp only [Bool.false_eq_true, ↓reduceIte, hflaw]
    exact follows_failBack _ _ _

theorem follows_condition (hbranch : FollowsBody source branch branch') (start start' : Nat)
    {flags : List Flag} (hflags : Announced source flags) :
    Follows source Eq (condition branch start flags) (condition branch' start' flags) := by
  unfold condition
  refine follows_after follows_conditionGroup fun group => ?_
  refine follows_bind (follows_checkLookbehind group) fun _ _ _ => ?_
  refine follows_after (hbranch flags hflags) fun yes => ?_
  have hrest (no : List Regex) : Follows source Eq
      (do
        if (← peek) = some (.plain '|') then failBack .manyBranches 0
        else
          closeParenthesis start
          return Regex.ifGroup group (joined yes) (joined no))
      (do
        if (← peek) = some (.plain '|') then failBack .manyBranches 0
        else
          closeParenthesis start'
          return Regex.ifGroup group (joined yes) (joined no)) := by
    refine follows_ahead (by decide) nofun (follows_failBack _ _ _) ?_
    exact follows_bind (follows_closeParenthesis _ _) fun _ _ _ => follows_pure rfl
  refine follows_after (follows_accept (by decide)) fun found => ?_
  split
  · exact follows_after (hbranch flags hflags) hrest
  · exact follows_after (follows_pure rfl) hrest

/-- The opening of an extension is what flags are looked for behind. -/
theorem follows_extension (hbody : FollowsBody source body body')
    (hbranch : FollowsBody source branch branch') (start start' : Nat) {flags : List Flag}
    (hflags : Announced source flags) (leading : Bool) :
    FollowsOpened source ['(', '?'] Eq (extension body branch start flags leading)
      (extension body' branch' start' flags leading) := by
  intro s t hst hopen
  unfold extension
  refine agrees_next hst (follows_failBack _ _ _ s t hst) (fun u p q hpq hread _ => ?_)
    fun p q hpq _ => follows_failBack _ _ _ p q hpq
  rw [hread] at hopen
  refine (show FollowsOpened source ('(' :: '?' :: u.text) Eq _ _ from ?_) p q hpq hopen
  clear hread hopen
  split
  · contradiction
  · intro p q hpq _
    refine (follows_accept (by decide) p q hpq).after fun found p q hpq => ?_
    split
    · refine (follows_name (by decide) _ p q hpq).bind fun called called' p q hcalled hpq => ?_
      refine (follows_checkName hcalled 1 p q hpq).bind fun _ _ p q h hpq => ?_
      subst h
      exact (follows_capturing hbody _ _ hflags _ p q hpq).after fun r => follows_pure rfl
    · refine (follows_accept (by decide) p q hpq).after fun found p q hpq => ?_
      split
      · exact (follows_namedReference flags p q hpq).after fun r => follows_pure rfl
      · exact follows_next (follows_failBack _ _ _) (fun u => follows_failBack _ _ _)
          (follows_failBack _ _ _) p q hpq
  · intro p q hpq _
    exact (follows_bracketed hbody _ _ hflags p q hpq).after fun items => follows_pure rfl
  · intro p q hpq _
    rw [get_bind, get_bind]
    have hlength := hpq.rest.length_le
    exact (follows_comment _ _ (by omega) p q hpq).after fun _ => follows_pure rfl
  · intro p q hpq _
    exact (follows_lookingAhead hbody _ _ hflags false p q hpq).after fun r => follows_pure rfl
  · intro p q hpq _
    exact (follows_lookingAhead hbody _ _ hflags true p q hpq).after fun r => follows_pure rfl
  · intro p q hpq _
    refine follows_next (follows_failBack _ _ _) (fun u => ?_) (follows_failBack _ _ _) p q hpq
    split
    · contradiction
    · exact follows_after (follows_lookbehind hbody _ _ hflags false) fun r => follows_pure rfl
    · exact follows_after (follows_lookbehind hbody _ _ hflags true) fun r => follows_pure rfl
    · exact follows_failBack _ _ _
  · intro p q hpq _
    exact (follows_condition hbranch _ _ hflags p q hpq).after fun r => follows_pure rfl
  · intro p q hpq _
    exact (follows_bracketed hbody _ _ hflags p q hpq).after fun items => follows_pure rfl
  · have hu := Option.some.inj ‹some u = some _›
    subst hu
    split
    · intro p q hpq hopen
      refine (follows_flagGroup u p q hpq hopen).bind fun _ found p q h hpq => ?_
      obtain ⟨rfl, hon⟩ := h
      cases found with
      | whole on =>
        refine (follows_modify (fun s t hst => ?_) p q hpq).bind fun _ _ p q _ hpq => ?_
        · refine ⟨hst.within, hst.announced.append hon, hst.rest, ?_, hst.widths, hst.names,
            hst.awaited, hst.lookbehind, hst.dialect⟩
          simp only [hst.flags]
        · split
          · exact follows_pure rfl p q hpq
          · exact follows_failAt _ _ _ p q hpq
      | body on off =>
        exact (follows_bracketed hbody _ _ (hflags.scopeFlags hon off) p q hpq).after fun items =>
          follows_pure rfl
    · exact fun p q hpq _ => follows_failBack _ _ _ p q hpq

theorem follows_group (hbody : FollowsBody source body body')
    (hbranch : FollowsBody source branch branch') {flags : List Flag}
    (hflags : Announced source flags) (leading : Bool) :
    FollowsOpened source ['('] Eq (group body branch flags leading)
      (group body' branch' flags leading) := by
  intro s t hst hopen
  unfold group
  rw [tell_bind, tell_bind]
  refine (follows_accept (by decide) s t hst).bind_reading fun found _ p q _ hread h hpq => ?_
  subst h
  split
  · next hfound =>
    subst hfound
    rw [rest_of_accept hread] at hopen
    exact follows_extension hbody hbranch _ _ hflags leading p q hpq hopen
  · exact (follows_capturing hbody _ _ hflags none p q hpq).after fun r => follows_pure rfl

theorem follows_count (digits : List Char) :
    Follows source Eq (count digits) (count digits) := by
  unfold count
  split
  · exact follows_throw _ _
  · dsimp only
    split
    · exact follows_throw _ _
    · exact follows_pure rfl

theorem follows_upperDigits (lo : List Char) :
    Follows source Eq (upperDigits lo) (upperDigits lo) := by
  unfold upperDigits
  refine follows_after (follows_accept (by decide)) fun found => ?_
  split
  · exact follows_takeAll (by decide) (by decide)
  · exact follows_pure rfl

theorem follows_leastCount (digits : List Char) :
    Follows source Eq (leastCount digits) (leastCount digits) := by
  unfold leastCount
  split
  · exact follows_pure rfl
  · exact follows_count digits

theorem follows_countBounds (position position' : Nat) (lo hi : List Char) :
    Follows source Eq (countBounds position lo hi) (countBounds position' lo hi) := by
  unfold countBounds
  refine follows_after (follows_leastCount lo) fun least => ?_
  split
  · exact follows_pure rfl
  · refine follows_after (follows_count hi) fun most => ?_
    split
    · exact follows_failAt _ _ _
    · exact follows_pure rfl

/-- Where the opening brace stands for itself, both sides go back to where they stood. -/
theorem follows_braces : Follows source Eq braces braces := by
  unfold braces
  refine follows_bind follows_get fun s t hst => ?_
  refine follows_ahead nofun nofun (follows_pure rfl) ?_
  refine follows_after (follows_takeAll (by decide) (by decide)) fun lo => ?_
  refine follows_after (follows_upperDigits lo) fun hi => ?_
  refine follows_after (follows_accept (by decide)) fun closed => ?_
  split
  · refine follows_after (follows_countBounds _ _ lo hi) fun found => ?_
    exact follows_pure rfl
  · refine follows_bind (R := fun _ _ => True) ?_ fun _ _ _ => follows_pure rfl
    exact fun p q hpq => agrees_seek hpq hst.within hst.rest

theorem follows_bounds (c : Char) : Follows source Eq (bounds c) (bounds c) := by
  unfold bounds
  split
  · exact follows_pure rfl
  · exact follows_pure rfl
  · exact follows_pure rfl
  · exact follows_braces

theorem follows_pace : Follows source Eq pace pace := by
  unfold pace
  refine follows_after (follows_accept (by decide)) fun found => ?_
  split
  · exact follows_pure rfl
  · refine follows_after (follows_accept (by decide)) fun found => ?_
    split
    · exact follows_bind follows_get fun s t hst => follows_pure (by rw [hst.dialect])
    · exact follows_pure rfl

theorem follows_repetition (start start' least : Nat) (most : Option Nat) (parts : List Part) :
    Follows source Eq (repetition start least most parts)
      (repetition start' least most parts) := by
  unfold repetition
  split
  · exact follows_failAt _ _ _
  · exact follows_failAt _ _ _
  · exact follows_failAt _ _ _
  · refine follows_after follows_pace fun found => ?_
    exact follows_pure rfl
  · refine follows_after follows_pace fun found => ?_
    exact follows_pure rfl

section

variable {flags : List Flag} {s t : State}

theorem dollarSign_of_lines (hlines : flags.contains .multiline = true) (dollar : Anchor) :
    dollarSign dollar flags s = .ok ((.lineEnd, s), [⟨s.position - 1, .lineEnd⟩]) := by
  unfold dollarSign
  rw [if_pos hlines]
  rfl

theorem dollarSign_of_not_lines (hlines : ¬flags.contains .multiline = true) (dollar : Anchor) :
    dollarSign dollar flags s = .ok ((dollar, s), [⟨s.position - 1, .ending⟩]) := by
  unfold dollarSign
  rw [if_neg hlines]
  rfl

/-- A dollar that has not been replaced is in step if it means the end of a line. -/
theorem agrees_dollarSign (hst : s.Paired source t) (hkept : ¬Replaces source (s.position - 1)) :
    Agrees source Eq (dollarSign .textEnd flags s) (dollarSign .finalLine flags t) := by
  by_cases hlines : flags.contains .multiline = true
  · rw [dollarSign_of_lines hlines, dollarSign_of_lines hlines]
    intro a p ds heq
    cases heq
    refine .alike ?_ rfl ?_ rfl hst
    · intro d hd
      cases List.mem_singleton.mp hd
      exact iff_of_false hkept nofun
    · intro e he
      cases List.mem_singleton.mp he
      exact nofun
  · rw [dollarSign_of_not_lines hlines, dollarSign_of_not_lines hlines]
    intro a p ds heq
    cases heq
    refine .astray ⟨_, List.mem_singleton_self _, fun h => hkept (h.mpr rfl)⟩ ?_
    intro b q es hb
    cases hb
    exact ⟨_, List.mem_singleton_self _, rfl⟩

/-- A dollar that has been replaced means the end of the input, and so does what stands in its place. -/
theorem agrees_dollarSign_replaced (hflags : Announced source flags) (hst : s.Paired source t)
    (hhere : Replaces source (s.position - 1)) (ascii : Bool) :
    Agrees source (fun a m => m = .anchor a) (dollarSign .textEnd flags s)
      (itemEscape ascii 'Z' t) := by
  have hlines : ¬flags.contains .multiline = true := fun hlines =>
    EndAnchor.not_replaces (hflags (List.contains_iff_mem.mp hlines)) _ hhere
  rw [dollarSign_of_not_lines hlines]
  intro a p ds heq
  cases heq
  refine .alike ?_ rfl (fun e he => absurd he List.not_mem_nil) rfl hst
  intro d hd
  cases List.mem_singleton.mp hd
  exact iff_of_true hhere rfl

/-- One token of a sequence, which is the same on both sides. -/
theorem agrees_part (hbody : FollowsBody source body body')
    (hbranch : FollowsBody source branch branch') (hflags : Announced source flags) (first : Bool)
    {u : Token} (parts : List Part) (hst : s.Paired source t)
    (hopen : u.text ++ s.rest <:+ source)
    (hkept : u = .plain '$' → ¬Replaces source (s.position - 1)) :
    Agrees source Eq (part .textEnd body branch flags first u parts s)
      (part .finalLine body' branch' flags first u parts t) := by
  unfold part
  cases u with
  | escape c =>
    refine (follows_itemEscape _ c s t hst).after fun m p q hpq => ?_
    exact follows_pure rfl p q hpq
  | plain c =>
    dsimp only
    split
    · refine (follows_charSet flags s t hst).after fun r p q hpq => ?_
      exact follows_pure rfl p q hpq
    · split
      · refine (follows_tell s t hst).bind fun n m p q _ hpq => ?_
        refine (follows_bounds c p q hpq).after fun found p q hpq => ?_
        split
        · exact follows_pure rfl p q hpq
        · exact follows_repetition _ _ _ _ parts p q hpq
      · split
        · exact follows_pure rfl s t hst
        · split
          · next hc =>
            subst hc
            refine (follows_group hbody hbranch hflags _ s t hst hopen).after fun found p q hpq => ?_
            split
            · exact follows_pure rfl p q hpq
            · exact follows_pure rfl p q hpq
          · split
            · exact follows_pure rfl s t hst
            · split
              · next hc =>
                subst hc
                refine (agrees_dollarSign hst (hkept rfl)).after fun a p q hpq => ?_
                exact follows_pure rfl p q hpq
              · exact follows_pure rfl s t hst

/-- A dollar on the left and the escape that stands in its place. -/
theorem agrees_part_replaced (hflags : Announced source flags) (first : Bool) (parts : List Part)
    (hst : s.Paired source t)
    (hhere : Replaces source (s.position - 1)) :
    Agrees source Eq (part .textEnd body branch flags first (.plain '$') parts s)
      (part .finalLine body' branch' flags first (.escape 'Z') parts t) := by
  unfold part
  dsimp only
  rw [if_neg (by decide), if_neg (by decide), if_neg (by decide), if_neg (by decide),
    if_neg (by decide), if_pos rfl]
  refine (agrees_dollarSign_replaced hflags hst hhere _).bind fun a m p q h hpq => ?_
  subst h
  exact follows_pure rfl p q hpq

end

end Regex.Reader

end FirstMatch
