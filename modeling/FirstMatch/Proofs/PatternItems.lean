import FirstMatch.Proofs.EndAnchors
import Mathlib.Data.List.TakeWhile
import Mathlib.Tactic.Common

/-!
The items of a pattern: escapes, sets, and other characters, as they follow from left to right. Of a pattern
that does not set the multiline flag, just those items are replaced that are a dollar and nothing else.
-/

namespace FirstMatch.EndAnchor

/-- What stands in a set: an escape, which at the end of a pattern may be a lone backslash, or a character. -/
inductive Member
  | escape (escaped : Option Char)
  | plain (c : Char)
deriving DecidableEq

/-- A set: an opening bracket, maybe a caret, maybe a bracket that is a member, further members, and a
closing bracket unless the pattern ends first. -/
structure SetItem where
  caret : Bool
  bracket : Bool
  members : List Member
  closed : Bool
deriving DecidableEq

inductive Item
  | escape (escaped : Option Char)
  | set (s : SetItem)
  | other (c : Char)
deriving DecidableEq

/-- Takes a character if it comes next. -/
def takeOne (c : Char) : List Char → Bool × List Char
  | [] => (false, [])
  | d :: cs => if d = c then (true, cs) else (false, d :: cs)

/-- The members up to the bracket that closes the set, whether there is one, and what comes after it. -/
def takeMembers : List Char → List Member × Bool × List Char
  | [] => ([], false, [])
  | ['\\'] => ([.escape none], false, [])
  | '\\' :: c :: cs => (takeMembers cs).map (.escape (some c) :: ·) id
  | ']' :: cs => ([], true, cs)
  | c :: cs => (takeMembers cs).map (.plain c :: ·) id

/-- The set whose opening bracket comes before the source, and what comes after the set. -/
def takeSet (cs : List Char) : SetItem × List Char :=
  let caret := takeOne '^' cs
  let bracket := takeOne ']' caret.2
  let inner := takeMembers bracket.2
  (⟨caret.1, bracket.1, inner.1, inner.2.1⟩, inner.2.2)

theorem length_takeOne_le (c : Char) (cs : List Char) : (takeOne c cs).2.length ≤ cs.length := by
  unfold takeOne
  split
  · exact Nat.le_refl _
  · split
    · exact Nat.le_succ _
    · exact Nat.le_refl _

theorem length_takeMembers_le (cs : List Char) : (takeMembers cs).2.2.length ≤ cs.length := by
  fun_induction takeMembers cs with
  | case1 => exact Nat.le_refl _
  | case2 => exact Nat.zero_le _
  | case3 c cs ih => exact Nat.le_succ_of_le (Nat.le_succ_of_le ih)
  | case4 cs => exact Nat.le_succ _
  | case5 c cs _ _ _ ih => exact Nat.le_succ_of_le ih

theorem length_takeSet_le (cs : List Char) : (takeSet cs).2.length ≤ cs.length :=
  Nat.le_trans (length_takeMembers_le _) (Nat.le_trans (length_takeOne_le _ _) (length_takeOne_le _ _))

/-- The items of a pattern from left to right. -/
def items : List Char → List Item
  | [] => []
  | ['\\'] => [.escape none]
  | '\\' :: c :: cs => .escape (some c) :: items cs
  | '[' :: cs => .set (takeSet cs).1 :: items (takeSet cs).2
  | c :: cs => .other c :: items cs
termination_by source => source.length
decreasing_by
  · exact Nat.lt_add_of_pos_right Nat.two_pos
  · exact Nat.lt_succ_of_le (length_takeSet_le cs)
  · exact Nat.lt_succ_self _

def Member.text : Member → List Char
  | escape none => ['\\']
  | escape (some c) => ['\\', c]
  | plain c => [c]

/-- A character, or nothing. -/
def onlyIf (present : Bool) (c : Char) : List Char := if present then [c] else []

/-- What comes after the opening bracket of a set. -/
def SetItem.body (s : SetItem) : List Char :=
  onlyIf s.caret '^' ++ onlyIf s.bracket ']' ++ s.members.flatMap Member.text ++ onlyIf s.closed ']'

def Item.text : Item → List Char
  | escape none => ['\\']
  | escape (some c) => ['\\', c]
  | set s => '[' :: s.body
  | other c => [c]

/-- The item in place of a dollar outside of sets; all others stay. -/
def Item.anchored : Item → Item
  | other c => if c = '$' then escape (some 'Z') else other c
  | item => item

theorem Item.anchored_ne_dollar (item : Item) : item.anchored ≠ other '$' := by
  cases item with
  | escape c => exact nofun
  | set s => exact nofun
  | other c =>
    by_cases hc : c = '$'
    · rw [anchored, if_pos hc]
      exact nofun
    · rw [anchored, if_neg hc]
      exact fun h => hc (other.inj h)

theorem text_takeOne (c : Char) (cs : List Char) :
    onlyIf (takeOne c cs).1 c ++ (takeOne c cs).2 = cs := by
  unfold takeOne
  split
  · rfl
  · split
    · next h => exact h ▸ rfl
    · rfl

theorem text_takeMembers (cs : List Char) : (takeMembers cs).1.flatMap Member.text ++
    (onlyIf (takeMembers cs).2.1 ']' ++ (takeMembers cs).2.2) = cs := by
  fun_induction takeMembers cs with
  | case1 => rfl
  | case2 => rfl
  | case3 c cs ih => exact congrArg ('\\' :: c :: ·) ih
  | case4 cs => rfl
  | case5 c cs _ _ _ ih => exact congrArg (c :: ·) ih

theorem text_takeSet (cs : List Char) : (takeSet cs).1.body ++ (takeSet cs).2 = cs := by
  have inner := text_takeMembers (takeOne ']' (takeOne '^' cs).2).2
  calc (takeSet cs).1.body ++ (takeSet cs).2
      = onlyIf (takeOne '^' cs).1 '^' ++ (onlyIf (takeOne ']' (takeOne '^' cs).2).1 ']' ++
          (takeOne ']' (takeOne '^' cs).2).2) := by
        conv_rhs => rw [← inner]
        simp only [takeSet, SetItem.body, List.append_assoc]
    _ = cs := by rw [text_takeOne, text_takeOne]

/-- The items of a pattern make up the pattern. -/
theorem text_items (cs : List Char) : (items cs).flatMap Item.text = cs := by
  fun_induction items cs with
  | case1 => rfl
  | case2 => rfl
  | case3 c cs ih => exact congrArg ('\\' :: c :: ·) ih
  | case4 cs ih =>
    rw [List.flatMap_cons, ih]
    exact congrArg ('[' :: ·) (text_takeSet cs)
  | case5 c cs _ _ _ ih => exact congrArg (c :: ·) ih

theorem items_other {c : Char} (hback : c ≠ '\\') (hopen : c ≠ '[') (cs : List Char) :
    items (c :: cs) = .other c :: items cs := by
  rw [items]
  · exact fun h _ => hback h
  · exact fun _ _ h _ => hback h
  · exact hopen

theorem takeMembers_plain {c : Char} (hback : c ≠ '\\') (hclose : c ≠ ']') (cs : List Char) :
    takeMembers (c :: cs) = (.plain c :: (takeMembers cs).1, (takeMembers cs).2) := by
  rw [takeMembers]
  · rfl
  · exact fun h _ => hback h
  · exact fun _ _ h _ => hback h
  · exact hclose

/-- Members up to a closing bracket are read the same whatever comes after it. -/
theorem takeMembers_text_append {cs : List Char} (h : (takeMembers cs).2.1 = true) (rest : List Char) :
    takeMembers ((takeMembers cs).1.flatMap Member.text ++ ']' :: rest) =
      ((takeMembers cs).1, true, rest) := by
  fun_induction takeMembers cs with
  | case1 => cases h
  | case2 => cases h
  | case3 c cs ih => exact congrArg (Prod.map (.escape (some c) :: ·) id) (ih h)
  | case4 cs => rfl
  | case5 c cs last more close ih =>
    have htext : (Prod.map (.plain c :: ·) id (takeMembers cs)).1.flatMap Member.text ++ ']' :: rest =
        c :: ((takeMembers cs).1.flatMap Member.text ++ ']' :: rest) := rfl
    rw [htext, takeMembers_plain (ne_backslash last more) close, ih h]
    rfl

theorem takeMembers_of_open {cs : List Char} (h : (takeMembers cs).2.1 = false) :
    (takeMembers cs).2.2 = [] := by
  fun_induction takeMembers cs with
  | case1 => rfl
  | case2 => rfl
  | case3 c cs ih => exact ih h
  | case4 cs => cases h
  | case5 c cs _ _ _ ih => exact ih h

theorem replaceFrom_first_cons {c : Char} (hback : c ≠ '\\') (cs : List Char) :
    replaceFrom .first (c :: cs) = c :: replaceFrom .inside cs := by
  rw [replaceFrom]
  · exact fun h _ => hback h
  · exact fun _ _ h _ => hback h

theorem replaceFrom_inside_cons {c : Char} (hback : c ≠ '\\') (hclose : c ≠ ']') (cs : List Char) :
    replaceFrom .inside (c :: cs) = c :: replaceFrom .inside cs := by
  rw [replaceFrom]
  · exact fun h _ => hback h
  · exact fun _ _ h _ => hback h
  · exact hclose

/-- First in a set a closing bracket is a member, and all else is as further in. -/
theorem replaceFrom_first (cs : List Char) : replaceFrom .first cs =
    onlyIf (takeOne ']' cs).1 ']' ++ replaceFrom .inside (takeOne ']' cs).2 := by
  cases cs with
  | nil => rfl
  | cons c cs =>
    by_cases hback : c = '\\'
    · subst hback
      cases cs <;> rfl
    rw [replaceFrom_first_cons hback]
    by_cases hclose : c = ']'
    · subst hclose
      rfl
    · rw [takeOne, if_neg hclose]
      exact (replaceFrom_inside_cons hback hclose cs).symm

theorem replaceFrom_inside (cs : List Char) : replaceFrom .inside cs =
    (takeMembers cs).1.flatMap Member.text ++ (onlyIf (takeMembers cs).2.1 ']' ++
      replaceFrom .outside (takeMembers cs).2.2) := by
  fun_induction takeMembers cs with
  | case1 => rfl
  | case2 => rfl
  | case3 c cs ih => exact congrArg ('\\' :: c :: ·) ih
  | case4 cs => rfl
  | case5 c cs last more close ih =>
    rw [replaceFrom_inside_cons (ne_backslash last more) close]
    exact congrArg (c :: ·) ih

theorem replaceFrom_open (cs : List Char) : replaceFrom .outside ('[' :: cs) =
    '[' :: (onlyIf (takeOne '^' cs).1 '^' ++ replaceFrom .first (takeOne '^' cs).2) := by
  cases cs with
  | nil => rfl
  | cons c cs =>
    by_cases hcaret : c = '^'
    · subst hcaret
      rfl
    · rw [takeOne, if_neg hcaret, replaceFrom]
      · rfl
      · exact fun _ h => hcaret (List.cons.inj h).1

/-- A set is kept as it is. -/
theorem replaceFrom_set (cs : List Char) : replaceFrom .outside ('[' :: cs) =
    '[' :: ((takeSet cs).1.body ++ replaceFrom .outside (takeSet cs).2) := by
  rw [replaceFrom_open, replaceFrom_first, replaceFrom_inside]
  simp only [takeSet, SetItem.body, List.append_assoc]

theorem replaceFrom_other {c : Char} (hback : c ≠ '\\') (hopen : c ≠ '[') (cs : List Char) :
    replaceFrom .outside (c :: cs) = (Item.other c).anchored.text ++ replaceFrom .outside cs := by
  by_cases hdollar : c = '$'
  · subst hdollar
    rfl
  · rw [replaceFrom, Item.anchored, if_neg hdollar]
    · rfl
    · exact fun h _ => hback h
    · exact fun _ _ h _ => hback h
    · exact fun _ h _ => hopen h
    · exact hopen
    · exact hdollar

/-- A character is taken or left as before if what comes after it begins as before. -/
theorem takeOne_again {c : Char} {taken : Bool} {cs after ds : List Char}
    (h : takeOne c cs = (taken, after)) (hne : ds ≠ []) (head : ds.head? = after.head?) :
    takeOne c (onlyIf taken c ++ ds) = (taken, ds) := by
  obtain ⟨d, ds, rfl⟩ := List.exists_cons_of_ne_nil hne
  unfold takeOne at h
  split at h
  · cases h
    cases head
  · split at h
    · cases h
      simp [onlyIf, takeOne]
    · next he =>
      cases h
      simp only [List.head?_cons, Option.some.injEq] at head
      simp [onlyIf, takeOne, head, he]

theorem takeSet_of_parts {cs after within rest : List Char} {caret bracket closed : Bool}
    {ms : List Member} (hcaret : takeOne '^' cs = (caret, after))
    (hbracket : takeOne ']' after = (bracket, within)) (hmembers : takeMembers within = (ms, closed, rest)) :
    takeSet cs = (⟨caret, bracket, ms, closed⟩, rest) := by
  simp only [takeSet, hcaret, hbracket, hmembers]

/-- A set that is closed is read the same whatever comes after it. -/
theorem takeSet_body_append {cs : List Char} (h : (takeSet cs).1.closed = true) (rest : List Char) :
    takeSet ((takeSet cs).1.body ++ rest) = ((takeSet cs).1, rest) := by
  rcases hcaret : takeOne '^' cs with ⟨caret, after⟩
  rcases hbracket : takeOne ']' after with ⟨bracket, within⟩
  rcases hmembers : takeMembers within with ⟨ms, closed, tail⟩
  rw [takeSet_of_parts hcaret hbracket hmembers] at h ⊢
  obtain rfl : closed = true := h
  -- What comes after the caret, and what comes after the bracket, begins as before.
  have hwithin : ms.flatMap Member.text ++ ']' :: tail = within := by
    have htext := text_takeMembers within
    rw [hmembers] at htext
    exact htext
  have hafter : onlyIf bracket ']' ++ within = after := by
    simpa only [hbracket] using text_takeOne ']' after
  have hinner : (ms.flatMap Member.text ++ ']' :: rest).head? = within.head? := by
    rw [← hwithin, List.head?_append, List.head?_append]
    rfl
  have houter : (onlyIf bracket ']' ++ (ms.flatMap Member.text ++ ']' :: rest)).head? = after.head? := by
    rw [← hafter, List.head?_append, hinner, List.head?_append]
  have hagain : takeMembers (ms.flatMap Member.text ++ ']' :: rest) = (ms, true, rest) := by
    have hclosed : (takeMembers within).2.1 = true := by rw [hmembers]
    simpa only [hmembers] using takeMembers_text_append hclosed rest
  have hbody : SetItem.body ⟨caret, bracket, ms, true⟩ ++ rest =
      onlyIf caret '^' ++ (onlyIf bracket ']' ++ (ms.flatMap Member.text ++ ']' :: rest)) := by
    simp only [SetItem.body, List.append_assoc]
    rfl
  have hne : ms.flatMap Member.text ++ ']' :: rest ≠ [] :=
    List.append_ne_nil_of_right_ne_nil _ (List.cons_ne_nil _ _)
  rw [hbody]
  exact takeSet_of_parts (takeOne_again hcaret (List.append_ne_nil_of_right_ne_nil _ hne) houter)
    (takeOne_again hbracket hne hinner) hagain

/-- Reading the pattern that is compiled gives the same items, but for the dollars. -/
theorem items_replaceFrom (cs : List Char) :
    items (replaceFrom .outside cs) = (items cs).map Item.anchored := by
  fun_induction items cs with
  | case1 =>
    rw [replaceFrom, items]
    rfl
  | case2 =>
    rw [replaceFrom, items]
    rfl
  | case3 c cs ih =>
    rw [replaceFrom, items]
    exact congrArg (Item.escape (some c) :: ·) ih
  | case4 cs ih =>
    rw [replaceFrom_set, items]
    cases hclosed : (takeSet cs).1.closed with
    | true =>
      rw [takeSet_body_append hclosed, ih]
      rfl
    | false =>
      -- The pattern ends within the set.
      have hend : (takeSet cs).2 = [] := takeMembers_of_open hclosed
      have hbody : (takeSet cs).1.body = cs := by simpa [hend] using text_takeSet cs
      rw [hend, replaceFrom, List.append_nil, hbody, hend, items]
      rfl
  | case5 c cs last more bracket ih =>
    rw [replaceFrom_other (ne_backslash last more) bracket]
    by_cases hdollar : c = '$'
    · subst hdollar
      change items ('\\' :: 'Z' :: _) = _
      rw [items]
      exact congrArg (Item.escape (some 'Z') :: ·) ih
    · rw [List.map_cons, Item.anchored, if_neg hdollar, ← ih]
      exact items_other (ne_backslash last more) bracket _

/-- The multiline flag is set by letters up to it, right after an opening parenthesis and a question mark,
wherever they stand. -/
theorem setsMultiline_iff {source : List Char} : setsMultiline source = true ↔
    ∃ letters : List Char, (∀ c ∈ letters, c.isAlpha = true) ∧
      '(' :: '?' :: (letters ++ ['m']) <:+: source := by
  constructor
  · intro h
    fun_induction setsMultiline source with
    | case1 => cases h
    | case2 cs ih =>
      rcases (Bool.or_eq_true _ _).mp h with here | later
      · obtain ⟨letters, more, hrun⟩ := List.append_of_mem (List.contains_iff_mem.mp here)
        obtain ⟨tail, htail⟩ : cs.takeWhile isLetter <+: cs := List.takeWhile_prefix isLetter
        refine ⟨letters, fun c hc => ?_, [], more ++ tail, ?_⟩
        · have hmem : c ∈ cs.takeWhile isLetter := hrun ▸ List.mem_append_left _ hc
          exact List.mem_takeWhile_imp hmem
        · rw [← htail, hrun]
          simp
      · obtain ⟨letters, hletters, hinfix⟩ := ih later
        exact ⟨letters, hletters, List.infix_cons (List.infix_cons hinfix)⟩
    | case3 c cs _ ih =>
      obtain ⟨letters, hletters, hinfix⟩ := ih h
      exact ⟨letters, hletters, List.infix_cons hinfix⟩
  · rintro ⟨letters, hletters, before, after, rfl⟩
    have hsuffix : '(' :: '?' :: ((letters ++ ['m']) ++ after) <:+
        before ++ '(' :: '?' :: (letters ++ ['m']) ++ after := ⟨before, by simp⟩
    refine setsMultiline_of_suffix hsuffix (fun c hc => ?_)
      (List.mem_append_right _ List.mem_cons_self)
    rcases List.mem_append.mp hc with hc | hc
    · exact hletters c hc
    · rw [List.mem_singleton.mp hc]
      rfl

/-- Of a pattern in which no letters up to an `m` come right after an opening parenthesis and a question
mark, the items that are just a dollar are replaced by the escape for the very end, and all other items are
kept. The pattern that is compiled reads as these items in the same order, so no dollar is left outside of
escapes and sets. -/
theorem outer_dollars_replaced {source : List Char}
    (h : ∀ letters : List Char, (∀ c ∈ letters, c.isAlpha = true) →
      ¬ '(' :: '?' :: (letters ++ ['m']) <:+: source) :
    (items source).flatMap Item.text = source ∧
    replace source = ((items source).map Item.anchored).flatMap Item.text ∧
    items (replace source) = (items source).map Item.anchored ∧
    .other '$' ∉ items (replace source) := by
  have hflag : setsMultiline source = false := by
    rw [Bool.eq_false_iff]
    intro hsets
    obtain ⟨letters, hletters, hinfix⟩ := setsMultiline_iff.mp hsets
    exact h letters hletters hinfix
  have hreplace : replace source = replaceFrom .outside source := by
    rw [replace, hflag]
    rfl
  have hitems := items_replaceFrom source
  rw [hreplace]
  refine ⟨text_items source, ?_, hitems, ?_⟩
  · rw [← hitems, text_items]
  · rw [hitems, List.mem_map]
    exact fun ⟨item, _, hitem⟩ => item.anchored_ne_dollar hitem

/-- A dollar on its own, one in a set and one after a backslash. -/
theorem outer_dollars_replaced_alternatives :
    (∀ letters : List Char, (∀ c ∈ letters, c.isAlpha = true) →
      ¬ '(' :: '?' :: (letters ++ ['m']) <:+: "a$|[]$]\\$".toList) ∧
    items (replace "a$|[]$]\\$".toList) =
      [.other 'a', .escape (some 'Z'), .other '|', .set ⟨false, true, [.plain '$'], true⟩,
        .escape (some '$')] ∧
    replace "a$|[]$]\\$".toList = "a\\Z|[]$]\\$".toList := by
  have hflag : ∀ letters : List Char, (∀ c ∈ letters, c.isAlpha = true) →
      ¬ '(' :: '?' :: (letters ++ ['m']) <:+: "a$|[]$]\\$".toList := by
    intro letters hletters hinfix
    exact absurd (setsMultiline_iff.mpr ⟨letters, hletters, hinfix⟩) (by decide)
  have hitems : items "a$|[]$]\\$".toList =
      [.other 'a', .other '$', .other '|', .set ⟨false, true, [.plain '$'], true⟩,
        .escape (some '$')] := by
    simp [items, takeSet, takeOne, takeMembers]
  obtain ⟨-, htext, hread, -⟩ := outer_dollars_replaced hflag
  rw [hread, htext, hitems]
  exact ⟨hflag, rfl, rfl⟩

end FirstMatch.EndAnchor
