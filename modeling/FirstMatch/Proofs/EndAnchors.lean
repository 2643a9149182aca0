import FirstMatch.EndAnchor
import FirstMatch.Regex.Reader

/-!
Which dollars of a source are replaced, and how the source and the one that is compiled in its place
correspond, character by character.
-/

namespace FirstMatch

namespace EndAnchor

/-- The positions of the dollars that are replaced, where the source begins at a position. -/
def replacedFrom : Region → Nat → List Char → List Nat
  | _, _, [] => []
  | _, _, ['\\'] => []
  | r, n, '\\' :: _ :: cs => replacedFrom r.afterEscape (n + 2) cs
  | .outside, n, '[' :: '^' :: cs => replacedFrom .first (n + 2) cs
  | .outside, n, '[' :: cs => replacedFrom .first (n + 1) cs
  | .outside, n, '$' :: cs => n :: replacedFrom .outside (n + 1) cs
  | .outside, n, _ :: cs => replacedFrom .outside (n + 1) cs
  | .first, n, _ :: cs => replacedFrom .inside (n + 1) cs
  | .inside, n, ']' :: cs => replacedFrom .outside (n + 1) cs
  | .inside, n, _ :: cs => replacedFrom .inside (n + 1) cs

/-- The positions of the dollars that are replaced in a declared pattern. -/
def replaced (source : List Char) : List Nat :=
  if setsMultiline source then [] else replacedFrom .outside 0 source

abbrev Replaces (source : List Char) (n : Nat) : Prop := n ∈ replaced source

theorem not_replaces {source : List Char} (h : setsMultiline source = true) (n : Nat) :
    ¬Replaces source n := by
  unfold Replaces replaced
  rw [if_pos h]
  exact List.not_mem_nil

theorem setsMultiline_cons (c : Char) {cs : List Char} (h : setsMultiline cs = true) :
    setsMultiline (c :: cs) = true := by
  unfold setsMultiline
  split
  · next heq => cases heq
  · next ds heq =>
    cases heq
    have hds : setsMultiline ds = true := h
    rw [hds, Bool.or_true]
  · next heq =>
    cases heq
    exact h

/-- Letters right after an opening parenthesis and a question mark are seen wherever they stand. -/
theorem setsMultiline_of_suffix {source letters rest : List Char}
    (h : '(' :: '?' :: (letters ++ rest) <:+ source) (hletters : ∀ c ∈ letters, isLetter c = true)
    (hm : 'm' ∈ letters) : setsMultiline source = true := by
  obtain ⟨before, rfl⟩ := h
  induction before with
  | nil =>
    have htaken : 'm' ∈ (letters ++ rest).takeWhile isLetter := by
      rw [List.takeWhile_append_of_pos hletters]
      exact List.mem_append_left _ hm
    rw [List.nil_append, setsMultiline, List.contains_iff_mem.mpr htaken, Bool.true_or]
  | cons c before ih => exact setsMultiline_cons c ih

theorem le_of_mem_replacedFrom {r : Region} {n m : Nat} {cs : List Char}
    (h : m ∈ replacedFrom r n cs) : n ≤ m := by
  fun_induction replacedFrom r n cs with
  | case1 => cases h
  | case2 => cases h
  | case3 _ _ _ _ ih => exact Nat.le_of_add_right_le (ih h)
  | case4 _ _ ih => exact Nat.le_of_add_right_le (ih h)
  | case6 _ _ ih =>
    rcases List.mem_cons.mp h with rfl | h
    · exact Nat.le_refl _
    · exact Nat.le_of_succ_le (ih h)
  | _ => rename_i ih; exact Nat.le_of_succ_le (ih h)

end EndAnchor

/-- The source on the left becomes the one on the right if just the dollars at certain positions, none
of them escaped, are replaced. -/
inductive Rewritten (replaced : Nat → Prop) : Nat → List Char → List Char → Prop
  | nil {n : Nat} : Rewritten replaced n [] []
  | lone {n : Nat} : Rewritten replaced n ['\\'] ['\\']
  | escape {n : Nat} {cs ds : List Char} (c : Char) (tail : Rewritten replaced (n + 2) cs ds) :
      Rewritten replaced n ('\\' :: c :: cs) ('\\' :: c :: ds)
  | plain {n : Nat} {cs ds : List Char} {c : Char} (ne : c ≠ '\\') (kept : c = '$' → ¬replaced n)
      (tail : Rewritten replaced (n + 1) cs ds) : Rewritten replaced n (c :: cs) (c :: ds)
  | dollar {n : Nat} {cs ds : List Char} (here : replaced n)
      (tail : Rewritten replaced (n + 1) cs ds) : Rewritten replaced n ('$' :: cs) ('\\' :: 'Z' :: ds)

namespace Rewritten

variable {replaced : Nat → Prop} {n : Nat} {cs ds : List Char}

theorem nil_iff (h : Rewritten replaced n cs ds) : ds = [] ↔ cs = [] := by
  cases h <;> simp

theorem lone_iff (h : Rewritten replaced n cs ds) : ds = ['\\'] ↔ cs = ['\\'] := by
  cases h with
  | plain ne kept tail => simp [tail.nil_iff]
  | _ => simp

theorem length_le (h : Rewritten replaced n cs ds) : cs.length ≤ ds.length := by
  induction h with
  | nil => exact Nat.le_refl _
  | lone => exact Nat.le_refl _
  | escape c _ ih => exact Nat.succ_le_succ (Nat.succ_le_succ ih)
  | plain _ _ _ ih => exact Nat.succ_le_succ ih
  | dollar _ _ ih => exact Nat.succ_le_succ (Nat.le_succ_of_le ih)

/-- A run of characters that are neither dollars nor backslashes is the same on both sides. -/
theorem takeWhile (h : Rewritten replaced n cs ds) {test : Char → Bool} (hdollar : test '$' = false)
    (hback : test '\\' = false) (limit : Nat) :
    (ds.take limit).takeWhile test = (cs.take limit).takeWhile test ∧
      Rewritten replaced (n + ((cs.take limit).takeWhile test).length)
        (cs.drop ((cs.take limit).takeWhile test).length)
        (ds.drop ((cs.take limit).takeWhile test).length) := by
  induction h generalizing limit with
  | nil => simpa using Rewritten.nil
  | lone => cases limit <;> simpa [hback] using Rewritten.lone
  | escape c tail _ => cases limit <;> simpa [hback] using Rewritten.escape c tail
  | dollar here tail _ => cases limit <;> simpa [hback, hdollar] using Rewritten.dollar here tail
  | @plain n cs ds c ne kept tail ih =>
    cases limit with
    | zero => simpa using Rewritten.plain ne kept tail
    | succ limit =>
      obtain ⟨hrun, hrest⟩ := ih limit
      cases hc : test c with
      | false => simpa [hc] using Rewritten.plain ne kept tail
      | true =>
        simp only [List.take_succ_cons, List.takeWhile_cons, hc, ↓reduceIte, hrun,
          List.length_cons, List.drop_succ_cons, true_and]
        rwa [Nat.add_assoc, Nat.add_comm 1] at hrest

/-- What comes next on both sides, for a test that neither dollars nor backslashes pass. -/
theorem head (h : Rewritten replaced n cs ds) (test : Char → Bool) (hdollar : test '$' = false)
    (hback : test '\\' = false) :
    (∃ d cs' ds', cs = d :: cs' ∧ ds = d :: ds' ∧ test d = true ∧
      Rewritten replaced (n + 1) cs' ds') ∨ (cs = [] ∧ ds = []) ∨
    ∃ d cs' e ds', cs = d :: cs' ∧ ds = e :: ds' ∧ test d = false ∧ test e = false := by
  cases h with
  | nil => exact .inr (.inl ⟨rfl, rfl⟩)
  | lone => exact .inr (.inr ⟨_, _, _, _, rfl, rfl, hback, hback⟩)
  | escape c tail => exact .inr (.inr ⟨_, _, _, _, rfl, rfl, hback, hback⟩)
  | dollar here tail => exact .inr (.inr ⟨_, _, _, _, rfl, rfl, hdollar, hback⟩)
  | @plain _ cs ds c ne kept tail =>
    cases hc : test c with
    | true => exact .inl ⟨c, cs, ds, rfl, rfl, hc, tail⟩
    | false => exact .inr (.inr ⟨_, _, _, _, rfl, rfl, hc, hc⟩)

/-- Where nothing is replaced the source stays as it is. -/
theorem refl (h : ∀ m, ¬replaced m) (n : Nat) : ∀ cs : List Char, Rewritten replaced n cs cs
  | [] => .nil
  | ['\\'] => .lone
  | c :: d :: cs => by
    by_cases hc : c = '\\'
    · subst hc
      exact .escape d (refl h (n + 2) cs)
    · exact .plain hc (fun _ => h n) (refl h (n + 1) (d :: cs))
  | [c] => by
    by_cases hc : c = '\\'
    · subst hc
      exact .lone
    · exact .plain hc (fun _ => h n) .nil

end Rewritten

namespace EndAnchor

/-- From a position on, just the given dollars are replaced. -/
def Tells (replaced : Nat → Prop) (n : Nat) (positions : List Nat) : Prop :=
  ∀ m, n ≤ m → (replaced m ↔ m ∈ positions)

theorem Tells.later {replaced : Nat → Prop} {n k : Nat} {positions : List Nat}
    (h : Tells replaced n positions) (hk : n ≤ k) : Tells replaced k positions :=
  fun m hm => h m (Nat.le_trans hk hm)

theorem Tells.kept {replaced : Nat → Prop} {n k : Nat} {r : Region} {cs : List Char}
    (h : Tells replaced n (replacedFrom r k cs)) (hk : n < k) : ¬replaced n := by
  rw [h n (Nat.le_refl n)]
  intro hn
  exact absurd (le_of_mem_replacedFrom hn) (Nat.not_le_of_lt hk)

theorem ne_backslash {c : Char} {cs : List Char} (last : c = '\\' → cs = [] → False)
    (more : ∀ d ds, c = '\\' → cs = d :: ds → False) : c ≠ '\\' := by
  intro hc
  cases cs with
  | nil => exact last hc rfl
  | cons d ds => exact more d ds hc rfl

theorem rewritten_replaceFrom {replaced : Nat → Prop} (r : Region) (n : Nat) (cs : List Char)
    (h : Tells replaced n (replacedFrom r n cs)) : Rewritten replaced n cs (replaceFrom r cs) := by
  fun_induction replacedFrom r n cs with
  | case1 => exact .nil
  | case2 => exact .lone
  | case3 r n c cs ih => exact .escape c (ih (h.later (by omega)))
  | case4 n cs ih =>
    exact .plain (by decide) nofun (.plain (by decide) nofun (ih (h.later (by omega))))
  | case5 n cs hne ih =>
    rw [replaceFrom]
    · exact .plain (by decide) nofun (ih (h.later (by omega)))
    · exact hne
  | case6 n cs ih =>
    rw [replaceFrom]
    have hn : replaced n := (h n (Nat.le_refl n)).mpr List.mem_cons_self
    refine .dollar hn (ih fun m hm => ?_)
    rw [h m (by omega), List.mem_cons]
    exact or_iff_right (by omega)
  | case7 n c cs last more bracket set dollar ih =>
    rw [replaceFrom]
    · exact .plain (ne_backslash last more) (fun hc => (dollar hc).elim) (ih (h.later (by omega)))
    all_goals assumption
  | case8 n c cs last more ih =>
    rw [replaceFrom]
    · exact .plain (ne_backslash last more) (fun _ => h.kept (by omega)) (ih (h.later (by omega)))
    all_goals assumption
  | case9 n cs ih =>
    rw [replaceFrom]
    exact .plain (by decide) nofun (ih (h.later (by omega)))
  | case10 n c cs last more close ih =>
    rw [replaceFrom]
    · exact .plain (ne_backslash last more) (fun _ => h.kept (by omega)) (ih (h.later (by omega)))
    all_goals assumption

/-- The pattern that is compiled for a source is the source with its replaced dollars rewritten. -/
theorem rewritten_replace (source : List Char) :
    Rewritten (Replaces source) 0 source (replace source) := by
  unfold Replaces replaced replace
  split
  · exact Rewritten.refl (fun _ => List.not_mem_nil) 0 source
  · exact rewritten_replaceFrom .outside 0 source fun _ _ => Iff.rfl

end EndAnchor

end FirstMatch
