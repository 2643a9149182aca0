import FirstMatch.Proofs.PairedReaders

/-!
Escapes, sets and flags of a source beside those of the one in which dollars are replaced.
-/

namespace FirstMatch.Regex

open EndAnchor (Replaces)

namespace Reader

variable {source : List Char}

theorem follows_hexEscape (c : Char) (count : Nat) :
    Follows source Eq (hexEscape c count) (hexEscape c count) := by
  unfold hexEscape
  refine follows_after (follows_takeWhile (by decide) (by decide) count) fun digits => ?_
  dsimp only
  split
  · exact follows_failBack _ _ _
  · split
    · exact follows_throw _ _
    · split
      · exact follows_failBack _ _ _
      · exact follows_pure rfl

theorem follows_namedEscape : Follows source Eq namedEscape namedEscape := by
  unfold namedEscape
  refine follows_after (follows_accept (by decide)) fun found => ?_
  split
  · refine follows_bind (follows_name (by decide) _) fun a b hab => ?_
    refine follows_bind follows_get fun s t hst => ?_
    rw [hst.dialect]
    rcases hab with rfl | ⟨hdollar, -⟩
    · cases s.dialect.named b with
      | none => exact follows_failBack _ _ _
      | some n => exact follows_pure rfl
    · -- No character has a name with a dollar, so the left is refused.
      rw [s.dialect.named_of_dollar hdollar]
      exact follows_failBack _ _ _
  · exact follows_failBack _ _ _

theorem follows_codeEscape (c : Char) :
    Follows source Eq (codeEscape c) (codeEscape c) := by
  unfold codeEscape
  split
  · exact follows_bind (follows_hexEscape _ _) fun _ _ h => follows_pure (congrArg some h)
  · exact follows_bind (follows_hexEscape _ _) fun _ _ h => follows_pure (congrArg some h)
  · exact follows_bind (follows_hexEscape _ _) fun _ _ h => follows_pure (congrArg some h)
  · exact follows_bind follows_namedEscape fun _ _ h => follows_pure (congrArg some h)
  · exact follows_pure rfl

theorem follows_octalCode (text : List Char) :
    Follows source Eq (octalCode text) (octalCode text) := by
  unfold octalCode
  dsimp only
  split
  · exact follows_failBack _ _ _
  · exact follows_pure rfl

theorem follows_selfEscape (c : Char) : Follows source Eq (selfEscape c) (selfEscape c) := by
  unfold selfEscape
  split
  · exact follows_failBack _ _ _
  · exact follows_pure rfl

theorem follows_setEscape (c : Char) : Follows source Eq (setEscape c) (setEscape c) := by
  unfold setEscape
  split
  · exact follows_pure rfl
  · exact follows_pure rfl
  · refine follows_after (follows_codeEscape c) fun code => ?_
    split
    · exact follows_pure rfl
    · split
      · refine follows_after (follows_takeWhile (by decide) (by decide) 2) fun digits => ?_
        exact follows_octalCode _
      · exact follows_selfEscape c

theorem follows_checkLookbehind (group : Nat) :
    Follows source Eq (checkLookbehind group) (checkLookbehind group) := by
  unfold checkLookbehind
  refine follows_bind follows_get fun s t hst => ?_
  rw [hst.lookbehind, hst.isClosed]
  split
  · exact follows_pure rfl
  · split
    · exact follows_failBack _ _ _
    · split
      · exact follows_failBack _ _ _
      · exact follows_pure rfl

theorem follows_groupReference (text : List Char) :
    Follows source Eq (groupReference text) (groupReference text) := by
  unfold groupReference
  refine follows_bind follows_get fun s t hst => ?_
  dsimp only
  rw [hst.isClosed, hst.nextGroup]
  split
  · exact follows_failBack _ _ _
  · split
    · exact follows_failBack _ _ _
    · exact follows_bind (follows_checkLookbehind _) fun _ _ _ => follows_pure rfl

theorem follows_numberEscape (c : Char) :
    Follows source Eq (numberEscape c) (numberEscape c) := by
  intro s t hst
  unfold numberEscape
  rw [get_bind, get_bind]
  rcases hst.rest.head isDecimal (by decide) (by decide) with
    ⟨d, cs, ds, hs, ht, hd, tail⟩ | ⟨hs, ht⟩ | ⟨d, cs, e, ds, hs, ht, hd, he⟩
  · rw [hs, ht]
    simp only [hd, ↓reduceIte]
    have hskip : Rewritten (Replaces source) (s.position + 1) (s.rest.drop 1) (t.rest.drop 1) := by
      rw [hs, ht]
      exact tail
    refine (agrees_skip hst hskip).bind fun _ _ p q _ hpq => ?_
    rw [get_bind, get_bind]
    rcases hpq.rest.head isOctal (by decide) (by decide) with
      ⟨e, cs', ds', hp, hq, he, tail'⟩ | ⟨hp, hq⟩ | ⟨e, cs', e', ds', hp, hq, he, he'⟩
    · rw [hp, hq]
      dsimp only
      split
      · have hskip' : Rewritten (Replaces source) (p.position + 1) (p.rest.drop 1) (q.rest.drop 1) := by
          rw [hp, hq]
          exact tail'
        exact (agrees_skip hpq hskip').bind fun _ _ p q _ hpq => follows_octalCode _ p q hpq
      · exact follows_groupReference _ p q hpq
    · rw [hp, hq]
      exact follows_groupReference _ p q hpq
    · rw [hp, hq]
      simp only [he, he', Bool.and_false, Bool.false_eq_true, ↓reduceIte]
      exact follows_groupReference _ p q hpq
  · rw [hs, ht]
    exact follows_groupReference _ s t hst
  · rw [hs, ht]
    simp only [hd, he, Bool.false_eq_true, ↓reduceIte]
    exact follows_groupReference _ s t hst

theorem follows_itemEscape (ascii : Bool) (c : Char) :
    Follows source Eq (itemEscape ascii c) (itemEscape ascii c) := by
  unfold itemEscape
  split
  · exact follows_pure rfl
  · exact follows_pure rfl
  · exact follows_pure rfl
  · refine follows_after (follows_codeEscape c) fun code => ?_
    split
    · exact follows_pure rfl
    · split
      · refine follows_after (follows_takeWhile (by decide) (by decide) 2) fun digits => ?_
        exact follows_pure rfl
      · split
        · exact follows_numberEscape c
        · exact follows_selfEscape c

/-- The escape that a replaced dollar becomes has no meaning in a set. -/
theorem setEscape_error (s : State) : ∃ flaw, setEscape 'Z' s = .error flaw := ⟨_, rfl⟩

theorem setToken_dollar (s : State) : setToken (.plain '$') s =
    .ok ((.code 36, s), [⟨s.position - 1, .member⟩]) := rfl

theorem setToken_plain {c : Char} (hc : c ≠ '$') (s : State) :
    setToken (.plain c) s = .ok ((.code c.toNat, s), []) := by
  unfold setToken
  dsimp only
  rw [if_neg hc]
  rfl

/-- A member of a set. A dollar among them is in step if it has not been replaced. -/
theorem agrees_setToken {u : Token} {s t : State} (hst : s.Paired source t)
    (hkept : u = .plain '$' → ¬Replaces source (s.position - 1)) :
    Agrees source Eq (setToken u s) (setToken u t) := by
  cases u with
  | escape c => exact follows_setEscape c s t hst
  | plain c =>
    by_cases hc : c = '$'
    · subst hc
      rw [setToken_dollar, setToken_dollar]
      intro a p ds heq
      cases heq
      refine .alike ?_ rfl ?_ rfl hst
      · intro d hd
        cases List.mem_singleton.mp hd
        exact iff_of_false (hkept rfl) nofun
      · intro e he
        cases List.mem_singleton.mp he
        exact nofun
    · rw [setToken_plain hc, setToken_plain hc]
      intro a p ds heq
      cases heq
      exact .silent rfl hst rfl

/-- A dollar in a set that has been replaced makes the set on the right refused. -/
theorem agrees_bind_of_refused {α β γ δ : Type} {S : γ → δ → Prop} {f : Reader α} {g : Reader β}
    {s t : State} (hf : ∀ a u ds, f s = .ok ((a, u), ds) → ∃ d ∈ ds, ¬d.InStep source)
    (hg : ∃ flaw, g t = .error flaw) (k : α → Reader γ) (l : β → Reader δ) :
    Agrees source S ((f >>= k) s) ((g >>= l) t) := by
  intro c u ds hc
  obtain ⟨a, v, before, after, hfs, -, rfl⟩ := bind_eq_ok hc
  obtain ⟨d, hd, hout⟩ := hf a v before hfs
  obtain ⟨flaw, hflaw⟩ := hg
  refine .astray ⟨d, List.mem_append_left after hd, hout⟩ fun b w es hb => ?_
  rw [bind_of_error hflaw] at hb
  cases hb

theorem outOfStep_of_setToken {s : State} (hhere : Replaces source (s.position - 1)) {a : Meaning}
    {u : State} {ds : List Dollar} (h : setToken (.plain '$') s = .ok ((a, u), ds)) :
    ∃ d ∈ ds, ¬d.InStep source := by
  rw [setToken_dollar] at h
  cases h
  exact ⟨_, List.mem_singleton_self _, fun h => absurd (h.mp hhere) nofun⟩

theorem follows_setItems (ascii : Bool) (start start' : Nat) {fuel fuel' : Nat}
    (hfuel : fuel ≤ fuel') (items : List SetItem) :
    Follows source Eq (setItems ascii start fuel items) (setItems ascii start' fuel' items) := by
  induction fuel generalizing fuel' items with
  | zero => exact follows_throw _ _
  | succ fuel ih =>
    obtain ⟨fuel', rfl⟩ : ∃ k, fuel' = k + 1 := Nat.exists_eq_succ_of_ne_zero (by omega)
    intro s t hst
    unfold setItems
    refine agrees_next hst (follows_failAt _ _ _ s t hst) (fun u p q hpq _ hkept => ?_)
      fun p q hpq hhere => ?_
    · dsimp only
      split
      · exact follows_pure rfl p q hpq
      · refine (agrees_setToken hpq hkept).after fun low p q hpq => ?_
        refine (follows_accept (by decide) p q hpq).after fun found p q hpq => ?_
        split
        · refine agrees_next hpq (follows_failAt _ _ _ p q hpq) (fun v p q hpq _ hkept => ?_)
            fun p q hpq hhere => ?_
          · dsimp only
            split
            · exact follows_pure rfl p q hpq
            · refine (agrees_setToken hpq hkept).after fun high p q hpq => ?_
              split
              · split
                · exact follows_failBack _ _ _ p q hpq
                · exact ih (by omega) _ p q hpq
              · exact follows_failBack _ _ _ p q hpq
          · dsimp only
            rw [if_neg (by decide), if_neg (by decide)]
            exact agrees_bind_of_refused (fun _ _ _ h => outOfStep_of_setToken hhere h)
              (setEscape_error q) _ _
        · exact ih (by omega) _ p q hpq
    · dsimp only
      rw [if_neg (by simp), if_neg (by simp)]
      exact agrees_bind_of_refused (fun _ _ _ h => outOfStep_of_setToken hhere h)
        (setEscape_error q) _ _

theorem follows_charSet (flags : List Flag) :
    Follows source Eq (charSet flags) (charSet flags) := by
  unfold charSet
  refine follows_bind follows_tell fun start start' _ => ?_
  refine follows_after (follows_accept (by decide)) fun negated => ?_
  refine follows_bind follows_get fun s t hst => ?_
  have hlength := hst.rest.length_le
  refine follows_after (follows_setItems _ _ _ (by omega) _) fun items => ?_
  exact follows_pure rfl

theorem follows_refuseFlag {α β : Type} {R : α → β → Prop} (u : Token) (missing : Problem)
    (g : Reader β) : Follows source R (refuseFlag u missing) g := follows_failBack _ _ g

/-- A flag is a letter, and the multiline flag is the letter m. -/
theorem letter_of_flag {u : Token} {flag : Flag} (h : u.flag = some flag) :
    ∃ c, u = .plain c ∧ EndAnchor.isLetter c = true ∧ (flag = .multiline → c = 'm') := by
  cases u with
  | escape c => cases h
  | plain c =>
    refine ⟨c, rfl, ?_⟩
    change Flag.ofChar c = some flag at h
    unfold Flag.ofChar at h
    split at h <;> cases h <;> decide

/-- The flags of a group, whose letters so far stand right after its opening. -/
theorem follows_flagsOn {fuel fuel' : Nat} (hfuel : fuel ≤ fuel') {flag : Flag}
    {before : List Flag} {letters : List Char}
    (hletters : ∀ c ∈ letters, EndAnchor.isLetter c = true)
    (hm : .multiline ∈ before ++ [flag] → 'm' ∈ letters) :
    FollowsOpened source ('(' :: '?' :: letters) (fun a b => b = a ∧ Announced source a.1)
      (flagsOn fuel flag before) (flagsOn fuel' flag before) := by
  induction fuel generalizing fuel' flag before letters with
  | zero => exact fun s t hst _ => follows_throw _ _ s t hst
  | succ fuel ih =>
    obtain ⟨fuel', rfl⟩ : ∃ k, fuel' = k + 1 := Nat.exists_eq_succ_of_ne_zero (by omega)
    intro s t hst hopen
    unfold flagsOn
    dsimp only
    split
    · exact follows_failBack _ _ _ s t hst
    · split
      · exact follows_failBack _ _ _ s t hst
      · refine agrees_next hst (follows_failBack _ _ _ s t hst) (fun u p q hpq hread _ => ?_)
          fun p q hpq _ => ?_
        · dsimp only
          split
          · refine follows_pure ⟨rfl, fun hon => ?_⟩ p q hpq
            exact EndAnchor.setsMultiline_of_suffix hopen hletters (hm hon)
          · cases hflag : u.flag with
            | none => exact follows_refuseFlag _ _ _ p q hpq
            | some f =>
              obtain ⟨c, rfl, hc, hcm⟩ := letter_of_flag hflag
              have hopen' : '(' :: '?' :: (letters ++ [c]) ++ p.rest <:+ source := by
                rw [hread] at hopen
                simpa [Token.text] using hopen
              refine ih (Nat.le_of_succ_le_succ hfuel) ?_ ?_ p q hpq hopen'
              · intro d hd
                rcases List.mem_append.mp hd with hd | hd
                · exact hletters d hd
                · rwa [List.mem_singleton.mp hd]
              · intro hon
                rcases List.mem_append.mp hon with hon | hon
                · exact List.mem_append_left _ (hm hon)
                · rw [hcm (List.mem_singleton.mp hon).symm]
                  exact List.mem_append_right _ (List.mem_singleton_self 'm')
        · exact follows_refuseFlag _ _ _ p q hpq

theorem follows_flagsOff {fuel fuel' : Nat} (hfuel : fuel ≤ fuel') (flag : Flag)
    (before : List Flag) :
    Follows source Eq (flagsOff fuel flag before) (flagsOff fuel' flag before) := by
  induction fuel generalizing fuel' flag before with
  | zero => exact follows_throw _ _
  | succ fuel ih =>
    obtain ⟨fuel', rfl⟩ : ∃ k, fuel' = k + 1 := Nat.exists_eq_succ_of_ne_zero (by omega)
    unfold flagsOff
    split
    · exact follows_failBack _ _ _
    · refine follows_next (follows_failBack _ _ _) (fun u => ?_) ?_
      · dsimp only
        split
        · exact follows_pure rfl
        · split
          · exact ih (by omega) _ _
          · exact follows_refuseFlag _ _ _
      · exact follows_refuseFlag _ _ _

/-- The flags that a group turns on. -/
def flagsOf : FlagGroup → List Flag
  | .whole on => on
  | .body on _ => on

theorem follows_flagBody {fuel fuel' : Nat} (hfuel : fuel ≤ fuel') {on : List Flag}
    (hon : Announced source on) (u : Token) :
    Follows source (fun a b => b = a ∧ Announced source (flagsOf a)) (flagBody fuel on u)
      (flagBody fuel' on u) := by
  unfold flagBody
  split
  · exact follows_failBack _ _ _
  · split
    · refine follows_next (follows_failBack _ _ _) (fun v => ?_) ?_
      · dsimp only
        split
        · exact follows_refuseFlag _ _ _
        · refine follows_after (follows_flagsOff hfuel _ _) fun off => ?_
          split
          · exact follows_failBack _ _ _
          · split
            · exact follows_failBack _ _ _
            · exact follows_pure ⟨rfl, hon⟩
      · exact follows_refuseFlag _ _ _
    · exact follows_pure ⟨rfl, hon⟩

theorem follows_flagGroup (u : Token) :
    FollowsOpened source ('(' :: '?' :: u.text) (fun a b => b = a ∧ Announced source (flagsOf a))
      (flagGroup u) (flagGroup u) := by
  intro s t hst hopen
  have hlength := hst.rest.length_le
  unfold flagGroup
  rw [get_bind, get_bind]
  dsimp only
  cases hflag : u.flag with
  | none => exact follows_flagBody (by omega) (fun hon => absurd hon List.not_mem_nil) u s t hst
  | some flag =>
    obtain ⟨c, rfl, hc, hcm⟩ := letter_of_flag hflag
    have hletters (d : Char) (hd : d ∈ [c]) : EndAnchor.isLetter d = true := by
      rwa [List.mem_singleton.mp hd]
    have hm (hon : .multiline ∈ [flag]) : 'm' ∈ [c] := by
      rw [hcm (List.mem_singleton.mp hon).symm]
      exact List.mem_singleton_self 'm'
    refine (follows_flagsOn (by omega) hletters hm s t hst hopen).bind fun found _ p q h hpq => ?_
    obtain ⟨rfl, hon⟩ := h
    split
    · exact follows_pure ⟨rfl, hon⟩ p q hpq
    · exact follows_flagBody (by omega) hon _ p q hpq

end Reader

end FirstMatch.Regex
