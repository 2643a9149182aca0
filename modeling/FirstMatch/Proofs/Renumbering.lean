import FirstMatch.Outcome
import FirstMatch.Proofs.BuildReports

/-!
Rules under other numbers. A rule is compiled the same wherever it stands in a table, but for its number,
and a table of two lists of declarations has the rules of the one before those of the other. So where
rules are inserted, those behind them are moved on, and nothing else about the others changes.
-/

namespace FirstMatch

/-- A rule under another number. -/
def CompiledRule.renumbered (number : Int → Int) (r : CompiledRule) : CompiledRule :=
  { r with priority := number r.priority }

theorem CompiledRule.trigger_renumbered (number : Int → Int) (r : CompiledRule) :
    (r.renumbered number).trigger = r.trigger := rfl

/-- An error with another number of the rule whose action failed. Its cause may be an error of another
table, and is left alone. -/
def Fault.renumbered (number : Int → Int) : Fault → Fault
  | action n cause location rule caused => action n cause location (number rule) caused
  | f => f

def Outcome.renumbered (number : Int → Int) : Outcome → Outcome
  | failed f => failed (f.renumbered number)
  | o => o

/-- The number of a rule after `added` rules have been inserted before the one with the number `place`. -/
def movedNumber (place added : Nat) (number : Int) : Int :=
  if (place : Int) ≤ number then number + added else number

theorem Outcome.renumbered_id (o : Outcome) : o.renumbered id = o := by
  cases o with
  | failed f => cases f <;> rfl
  | _ => rfl

theorem Outcome.renumbered_ofResult (number : Int → Int) (v : Value) (span : Span) :
    (ofResult v span).renumbered number = ofResult v span := by
  cases v <;> rfl

theorem Rule.renumbers_compile (dialect : Regex.Dialect) (number : Int → Int) (n : Int) (r : Rule) :
    Build.Renumbers number (CompiledRule.renumbered number) (r.compile n dialect)
      (r.compile (number n) dialect) := by
  apply Build.Renumbers.bind
  · exact Build.renumbers_ofFlaw fun flaw => renumbered_of_callShape number
  · rintro ⟨action, shape⟩
    exact (Rule.renumbers_trigger dialect number n r.pattern).bind fun t => Build.renumbers_pure _

/-- Compiles a declaration: first its rule is made out. -/
def Declaration.compile (dialect : Regex.Dialect) (number : Int) (d : Declaration) :
    Build CompiledRule := do
  let rule ← Build.ofFlaw d.rule?
  rule.compile number dialect

theorem Declaration.renumbers_compile (dialect : Regex.Dialect) (number : Int → Int) (n : Int)
    (d : Declaration) : Build.Renumbers number (CompiledRule.renumbered number) (d.compile dialect n)
      (d.compile dialect (number n)) := by
  apply Build.Renumbers.bind
  · exact Build.renumbers_ofFlaw fun flaw => renumbered_of_rule? number
  · exact fun rule => Rule.renumbers_compile dialect number n rule

namespace RuleTable

variable {dialect : Regex.Dialect} {ds es fs : List Declaration} {n : Nat}
  {before after : List EmptyMatch} {rules : List CompiledRule}

theorem compileFrom_cons (dialect : Regex.Dialect) (n : Nat) (d : Declaration) (ds : List Declaration) :
    compileFrom dialect n (d :: ds) = (d.compile dialect n >>= fun c =>
      compileFrom dialect (n + 1) ds >>= fun rest => pure (c :: rest)) := by
  simp only [compileFrom, Declaration.compile, bind_assoc]

/-- Declarations in two parts are compiled one part after the other. -/
theorem compileFrom_append (dialect : Regex.Dialect) (n : Nat) (ds es : List Declaration) :
    compileFrom dialect n (ds ++ es) = (compileFrom dialect n ds >>= fun first =>
      compileFrom dialect (n + ds.length) es >>= fun second => pure (first ++ second)) := by
  induction ds generalizing n with
  | nil => simp [compileFrom]
  | cons d ds ih =>
    have hlength : n + 1 + ds.length = n + (d :: ds).length := by
      rw [List.length_cons]
      omega
    simp only [List.cons_append, compileFrom_cons, ih, hlength, bind_assoc, pure_bind]

theorem renumbers_compileFrom (dialect : Regex.Dialect) (n k : Nat) (ds : List Declaration) :
    Build.Renumbers (· + (k : Int)) (List.map (CompiledRule.renumbered (· + (k : Int))))
      (compileFrom dialect n ds) (compileFrom dialect (n + k) ds) := by
  induction ds generalizing n with
  | nil => exact Build.renumbers_pure []
  | cons d ds ih =>
    rw [compileFrom_cons, compileFrom_cons, Nat.add_right_comm n k 1]
    apply (d.renumbers_compile dialect (· + (k : Int)) n).bind
    intro c
    exact (ih (n + 1)).bind fun _ => Build.renumbers_pure _

theorem length_of_compileFrom (h : (compileFrom dialect n ds).run.run before = (.ok rules, after)) :
    rules.length = ds.length := by
  induction ds generalizing n before rules with
  | nil =>
    cases h
    rfl
  | cons d ds ih =>
    obtain ⟨rule, -, h⟩ := Build.ofFlaw_bind_eq_ok h
    obtain ⟨c, between, -, h⟩ := Build.bind_eq_ok h
    obtain ⟨rest, between', hrest, h⟩ := Build.bind_eq_ok h
    cases h
    exact congrArg Nat.succ (ih hrest)

theorem compileFrom_append_eq_ok
    (h : (compileFrom dialect n (ds ++ es)).run.run before = (.ok rules, after)) :
    ∃ first second between, (compileFrom dialect n ds).run.run before = (.ok first, between) ∧
      (compileFrom dialect (n + ds.length) es).run.run between = (.ok second, after) ∧
      rules = first ++ second := by
  rw [compileFrom_append] at h
  obtain ⟨first, between, hfirst, h⟩ := Build.bind_eq_ok h
  obtain ⟨second, between', hsecond, h⟩ := Build.bind_eq_ok h
  cases h
  exact ⟨first, second, between, hfirst, hsecond, rfl⟩

/-- The same declarations under numbers that are greater by `k`. -/
theorem compileFrom_add {k : Nat} {rules' : List CompiledRule} {before' after' : List EmptyMatch}
    (h : (compileFrom dialect n ds).run.run before = (.ok rules, after))
    (h' : (compileFrom dialect (n + k) ds).run.run before' = (.ok rules', after')) :
    rules' = rules.map fun r => { r with priority := r.priority + k } := by
  obtain ⟨after'', hmoved⟩ := (renumbers_compileFrom dialect n k ds).ok_at h before'
  exact Except.ok.inj (Prod.mk.inj (h'.symm.trans hmoved)).1

/-- Two tables, where the second has further rules in the midst of those of the first. -/
structure Inserted (a b : RuleTable) (first between second : List CompiledRule) : Prop where
  whole : a.rules = first ++ second
  extended : b.rules = first.map (CompiledRule.renumbered (movedNumber first.length between.length)) ++ between ++
    second.map (CompiledRule.renumbered (movedNumber first.length between.length))

/-- Rules that were compiled for places before the one where others are inserted keep their numbers. -/
theorem map_moved_of_before {place added : Nat}
    (h : (compileFrom dialect n ds).run.run before = (.ok rules, after)) (hplace : n + rules.length ≤ place) :
    rules.map (CompiledRule.renumbered (movedNumber place added)) = rules := by
  refine (List.map_congr_left fun r hr => ?_).trans (List.map_id rules)
  obtain ⟨i, hi⟩ := List.getElem?_of_mem hr
  obtain ⟨hlt, -⟩ := List.getElem?_eq_some_iff.mp hi
  have hnumber : movedNumber place added r.priority = r.priority := by
    rw [movedNumber, (of_compileFrom h i r hi).1]
    exact if_neg (by omega)
  rw [CompiledRule.renumbered, hnumber]
  rfl

/-- Rules that were compiled for places behind it have greater numbers. -/
theorem map_moved_of_behind {place added : Nat}
    (h : (compileFrom dialect n ds).run.run before = (.ok rules, after)) (hplace : place ≤ n) :
    rules.map (CompiledRule.renumbered (movedNumber place added)) =
      rules.map fun r => { r with priority := r.priority + added } := by
  refine List.map_congr_left fun r hr => ?_
  obtain ⟨i, hi⟩ := List.getElem?_of_mem hr
  have hnumber : movedNumber place added r.priority = r.priority + added := by
    rw [movedNumber, (of_compileFrom h i r hi).1]
    exact if_pos (by omega)
  rw [CompiledRule.renumbered, hnumber]

theorem compileFrom_of_ofSource {t : RuleTable} {warnings : List EmptyMatch}
    (h : (ofSource (.declarations ds) dialect).result = (.ok t, warnings)) :
    (compileFrom dialect 0 ds).run.run [] = (.ok t.rules, warnings) := by
  obtain ⟨rules, between, hrules, h⟩ := Build.bind_eq_ok h
  cases h
  exact hrules

/-- Inserting declarations inserts rules. -/
theorem inserted_of_declarations {a b : RuleTable} {wa wb : List EmptyMatch}
    (ha : (ofSource (.declarations (ds ++ es)) dialect).result = (.ok a, wa))
    (hb : (ofSource (.declarations (ds ++ fs ++ es)) dialect).result = (.ok b, wb)) :
    ∃ first between second, a.Inserted b first between second ∧ first.length = ds.length ∧
      between.length = fs.length ∧ second.length = es.length := by
  obtain ⟨first, second, _, hfirst, hsecond, hwhole⟩ :=
    compileFrom_append_eq_ok (compileFrom_of_ofSource ha)
  obtain ⟨front, second', _, hfront, hsecond', hextended⟩ :=
    compileFrom_append_eq_ok (compileFrom_of_ofSource hb)
  obtain ⟨first', between, _, hfirst', hbetween, rfl⟩ := compileFrom_append_eq_ok hfront
  obtain rfl : first = first' := Except.ok.inj (Prod.mk.inj (hfirst.symm.trans hfirst')).1
  have hplace : first.length = ds.length := length_of_compileFrom hfirst
  have hadded : between.length = fs.length := length_of_compileFrom hbetween
  refine ⟨first, between, second, ⟨hwhole, ?_⟩, hplace, hadded, length_of_compileFrom hsecond⟩
  rw [List.length_append, ← Nat.add_assoc, ← hadded] at hsecond'
  rw [hextended, map_moved_of_before hfirst (by omega),
    map_moved_of_behind hsecond (by omega), compileFrom_add hsecond hsecond']

end RuleTable

end FirstMatch
