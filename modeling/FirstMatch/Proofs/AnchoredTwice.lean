import FirstMatch.Proofs.PatternItems

/-!
Patterns that are anchored twice. Replacing dollars neither sets the multiline flag of a pattern nor takes
it away, and it leaves no dollar that would be replaced. So a pattern that has been anchored stays as it is.
-/

namespace FirstMatch

namespace EndAnchor

/-- Whether a question mark comes next and the letters right after it include the multiline flag. -/
def flagNext : List Char → Bool
  | [] => false
  | c :: cs => c == '?' && (cs.takeWhile isLetter).contains 'm'

theorem setsMultiline_open (cs : List Char) :
    setsMultiline ('(' :: cs) = (flagNext cs || setsMultiline cs) := by
  cases cs with
  | nil => rfl
  | cons c cs =>
    by_cases hc : c = '?'
    · subst hc
      rfl
    · rw [setsMultiline]
      · simp [flagNext, hc]
      · simp [hc]

theorem setsMultiline_of_ne {c : Char} (hc : c ≠ '(') (cs : List Char) :
    setsMultiline (c :: cs) = setsMultiline cs := by
  rw [setsMultiline]
  simp [hc]

end EndAnchor

namespace Rewritten

open EndAnchor

variable {replaced : Nat → Prop} {n : Nat} {cs ds : List Char}

/-- The escape in place of a dollar cuts off a run of letters just where the dollar did. -/
theorem flagNext_eq (h : Rewritten replaced n cs ds) : flagNext ds = flagNext cs := by
  cases h with
  | nil => rfl
  | lone => rfl
  | escape c tail => rfl
  | dollar here tail => rfl
  | @plain _ cs ds c ne kept tail =>
    have hdollar : isLetter '$' = false := rfl
    have hrun := (tail.takeWhile hdollar rfl ds.length).1
    rw [List.take_length, List.take_of_length_le tail.length_le] at hrun
    simp only [flagNext, hrun]

theorem setsMultiline_cons_eq (h : Rewritten replaced n cs ds)
    (hflag : setsMultiline ds = setsMultiline cs) (c : Char) :
    setsMultiline (c :: ds) = setsMultiline (c :: cs) := by
  by_cases hc : c = '('
  · subst hc
    simp only [setsMultiline_open, h.flagNext_eq, hflag]
  · simp only [setsMultiline_of_ne hc, hflag]

theorem setsMultiline_eq (h : Rewritten replaced n cs ds) : setsMultiline ds = setsMultiline cs := by
  induction h with
  | nil => rfl
  | lone => rfl
  | escape c tail ih =>
    have hnext := tail.setsMultiline_cons_eq ih c
    simpa only [setsMultiline_of_ne (show '\\' ≠ '(' by decide)] using hnext
  | plain ne kept tail ih => exact tail.setsMultiline_cons_eq ih _
  | dollar here tail ih =>
    simpa only [setsMultiline_of_ne (show '\\' ≠ '(' by decide),
      setsMultiline_of_ne (show 'Z' ≠ '(' by decide),
      setsMultiline_of_ne (show '$' ≠ '(' by decide)] using ih

end Rewritten

namespace EndAnchor

theorem setsMultiline_replace (source : List Char) :
    setsMultiline (replace source) = setsMultiline source :=
  (rewritten_replace source).setsMultiline_eq

theorem replace_of_flag {source : List Char} (h : setsMultiline source = true) :
    replace source = source := by
  simp [replace, h]

theorem replace_of_no_flag {source : List Char} (h : setsMultiline source = false) :
    replace source = replaceFrom .outside source := by
  simp [replace, h]

theorem Item.anchored_of_ne {item : Item} (h : item ≠ other '$') : item.anchored = item := by
  cases item with
  | escape c => rfl
  | set s => rfl
  | other c =>
    have hc : c ≠ '$' := fun hc => h (congrArg other hc)
    simp [anchored, hc]

/-- The items that are replaced are none after the replacement. -/
theorem dollar_notMem_items_replaceFrom (source : List Char) :
    .other '$' ∉ items (replaceFrom .outside source) := by
  rw [items_replaceFrom]
  intro hmem
  obtain ⟨item, -, hitem⟩ := List.mem_map.mp hmem
  exact item.anchored_ne_dollar hitem

theorem replaceFrom_eq_self {source : List Char} (h : .other '$' ∉ items source) :
    replaceFrom .outside source = source := by
  have hsame : (items source).map Item.anchored = items source := by
    calc (items source).map Item.anchored
        = (items source).map id :=
          List.map_congr_left fun item hitem =>
            Item.anchored_of_ne fun heq => h (heq ▸ hitem)
      _ = items source := List.map_id _
  calc replaceFrom .outside source
      = (items (replaceFrom .outside source)).flatMap Item.text := (text_items _).symm
    _ = (items source).flatMap Item.text := by rw [items_replaceFrom, hsame]
    _ = source := text_items source

/-- The patterns that are compiled as they were declared. -/
theorem replace_eq_self_iff (source : List Char) :
    replace source = source ↔ setsMultiline source = true ∨ .other '$' ∉ items source := by
  cases hflag : setsMultiline source with
  | true => simp [replace_of_flag hflag]
  | false =>
    rw [replace_of_no_flag hflag]
    constructor
    · intro hself
      right
      rw [← hself]
      exact dollar_notMem_items_replaceFrom source
    · intro h
      apply replaceFrom_eq_self
      simpa using h

/-- A pattern that has been anchored stays the same when it is anchored again, whatever it is: it sets the
multiline flag just if it did before, and otherwise none of its items is a dollar any more. These are the
patterns that anchoring leaves as they are. -/
theorem anchored_for_good (source : List Char) :
    replace (replace source) = replace source ∧
    setsMultiline (replace source) = setsMultiline source ∧
    (replace source = source ↔ setsMultiline source = true ∨ .other '$' ∉ items source) := by
  refine ⟨?_, setsMultiline_replace source, replace_eq_self_iff source⟩
  rw [replace_eq_self_iff, setsMultiline_replace]
  cases hflag : setsMultiline source with
  | true => simp
  | false =>
    right
    rw [replace_of_no_flag hflag]
    exact dollar_notMem_items_replaceFrom source

/-- The escape stands between a group's question mark and the letter of the flag, as the dollar did. -/
example : replace "(?$m)[]$".toList = "(?\\Zm)[]$".toList := by decide

end EndAnchor

end FirstMatch
