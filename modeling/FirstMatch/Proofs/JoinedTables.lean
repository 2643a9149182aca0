import FirstMatch.Proofs.CallBinding
import FirstMatch.Proofs.Renumbering
import Mathlib.Data.List.Perm.Basic
import Mathlib.Data.List.Sort

/-!
Tables of two lists of declarations, one after the other. Such a table is what becomes of the first list, with
what becomes of the second behind it under greater numbers, up to the first error. The lexer arguments that it
takes are those of either part, and do not depend on the order of the rules.
-/

namespace FirstMatch

/-- A rule without its number. -/
def CompiledRule.unnumbered (r : CompiledRule) : CompiledRule := r.renumbered fun _ => 0

@[simp] theorem CompiledRule.kind_unnumbered (r : CompiledRule) : r.unnumbered.kind = r.kind := rfl

@[simp] theorem CompiledRule.shape_unnumbered (r : CompiledRule) : r.unnumbered.shape = r.shape := rfl

@[simp] theorem CompiledRule.unnumbered_renumbered (number : Int → Int) (r : CompiledRule) :
    (r.renumbered number).unnumbered = r.unnumbered := rfl

namespace BuildReport

variable {α β : Type}

theorem followed_eq_ok_iff {r : BuildReport α} {next : α → BuildReport β} {b : β} :
    (followed r next).1 = .ok b ↔ ∃ a, r.1 = .ok a ∧ (next a).1 = .ok b := by
  obtain ⟨result, ws⟩ := r
  cases result <;> simp

theorem renumbered_eq_ok_iff {number : Int → Int} {g : α → β} {r : BuildReport α} {b : β} :
    (renumbered number g r).1 = .ok b ↔ ∃ a, r.1 = .ok a ∧ g a = b := by
  obtain ⟨result, ws⟩ := r
  cases result <;> simp

end BuildReport

/-- A declaration makes a rule, as it is under the number 0. -/
def Declaration.Makes (dialect : Regex.Dialect) (d : Declaration) (c : CompiledRule) : Prop :=
  (d.compile dialect 0).result.1 = .ok c

/-- The rule of a declaration is the same under any number, but for that number. -/
theorem Declaration.makes_iff {dialect : Regex.Dialect} {d : Declaration} {c : CompiledRule}
    (n : Int) : d.Makes dialect c ↔ ∃ c', (d.compile dialect n).result.1 = .ok c' ∧ c'.unnumbered = c := by
  rw [Makes, (d.renumbers_compile dialect (fun _ => 0) n).result_eq, BuildReport.renumbered_eq_ok_iff]
  rfl

namespace RuleTable

variable {dialect : Regex.Dialect} {ds es fs : List Declaration} {t u v w : RuleTable}

theorem emits_compileFrom (dialect : Regex.Dialect) (n : Nat) (ds : List Declaration) : (compileFrom dialect n ds).Emits :=
  (renumbers_compileFrom dialect n 0 ds).left

theorem result_declarations (dialect : Regex.Dialect) (ds : List Declaration) : (ofSource (.declarations ds) dialect).result =
    BuildReport.followed (compileFrom dialect 0 ds).result fun rules => (.ok ⟨rules⟩, []) :=
  Build.result_bind_pure _ RuleTable.mk

theorem result_compileFrom_append (dialect : Regex.Dialect) (ds es : List Declaration) : (compileFrom dialect 0 (ds ++ es)).result =
    BuildReport.followed (compileFrom dialect 0 ds).result fun first =>
      BuildReport.renumbered (· + (ds.length : Int))
        (fun second => first ++ second.map (CompiledRule.renumbered (· + (ds.length : Int))))
        (compileFrom dialect 0 es).result := by
  rw [compileFrom_append, Build.result_bind _ fun first _ => (emits_compileFrom _ _ es).bind_pure _]
  congr 1
  funext first
  rw [Build.result_bind_pure, (renumbers_compileFrom dialect 0 ds.length es).result_eq]
  cases (compileFrom dialect 0 es).result with
  | mk r ws =>
    cases r with
    | ok second => simp
    | error f => rfl

/-- The rules of a table, and behind them those of another one, with numbers that are greater by the size of
the first. -/
def joined (t u : RuleTable) : RuleTable :=
  ⟨t.rules ++ u.rules.map (CompiledRule.renumbered (· + (t.size : Int)))⟩

/-- What becomes of two lists of declarations is what becomes of the first, followed by what becomes of the
second under other numbers. -/
theorem result_append (dialect : Regex.Dialect) (ds es : List Declaration) : (ofSource (.declarations (ds ++ es)) dialect).result =
    BuildReport.followed (ofSource (.declarations ds) dialect).result fun t =>
      BuildReport.renumbered (· + (ds.length : Int)) t.joined
        (ofSource (.declarations es) dialect).result := by
  rw [result_declarations, result_declarations, result_declarations, result_compileFrom_append]
  cases hfirst : (compileFrom dialect 0 ds).result with
  | mk r ws =>
    cases r with
    | ok first =>
      have hlength : first.length = ds.length := length_of_compileFrom hfirst
      cases (compileFrom dialect 0 es).result with
      | mk r' vs =>
        cases r' with
        | ok second => simp [joined, size, hlength]
        | error f => simp
    | error f => rfl

theorem compileFrom_cons_eq_ok_iff {n : Nat} {d : Declaration} {rules : List CompiledRule} :
    (compileFrom dialect n (d :: ds)).result.1 = .ok rules ↔ ∃ c, (d.compile dialect n).result.1 = .ok c ∧
      ∃ rest, (compileFrom dialect (n + 1) ds).result.1 = .ok rest ∧ c :: rest = rules := by
  rw [compileFrom_cons, Build.result_bind _ fun c _ => (emits_compileFrom _ _ ds).bind_pure _]
  simp only [Build.result_bind_pure, BuildReport.followed_eq_ok_iff, Except.ok.injEq]

/-- Declarations are compiled just if each of them makes a rule. -/
theorem compileFrom_eq_ok_iff {n : Nat} {cs : List CompiledRule} :
    (∃ rules, (compileFrom dialect n ds).result.1 = .ok rules ∧ rules.map CompiledRule.unnumbered = cs) ↔
      List.Forall₂ (Declaration.Makes dialect) ds cs := by
  induction ds generalizing n cs with
  | nil =>
    constructor
    · rintro ⟨rules, h, rfl⟩
      cases h
      exact .nil
    · rintro ⟨⟩
      exact ⟨[], rfl, rfl⟩
  | cons d ds ih =>
    constructor
    · rintro ⟨rules, h, rfl⟩
      obtain ⟨c, hc, rest, hrest, rfl⟩ := compileFrom_cons_eq_ok_iff.mp h
      apply List.Forall₂.cons
      · exact (Declaration.makes_iff n).mpr ⟨c, hc, rfl⟩
      · exact ih.mp ⟨rest, hrest, rfl⟩
    · rintro (_ | ⟨hd, hds⟩)
      obtain ⟨c, hc, rfl⟩ := (Declaration.makes_iff n).mp hd
      obtain ⟨rest, hrest, rfl⟩ := (ih (n := n + 1)).mpr hds
      exact ⟨c :: rest, compileFrom_cons_eq_ok_iff.mpr ⟨c, hc, rest, hrest, rfl⟩, rfl⟩

/-- Tables with the same rules, but for their order and their numbers. -/
def SameRules (t u : RuleTable) : Prop :=
  (t.rules.map CompiledRule.unnumbered).Perm (u.rules.map CompiledRule.unnumbered)

/-- Declarations in another order make the same rules in another order. -/
theorem exists_sameRules_of_perm {ws : List EmptyMatch} (h : fs.Perm ds)
    (ht : (ofSource (.declarations ds) dialect).result = (.ok t, ws)) :
    ∃ v us, (ofSource (.declarations fs) dialect).result = (.ok v, us) ∧ v.SameRules t := by
  have hrules : (compileFrom dialect 0 ds).result.1 = .ok t.rules :=
    congrArg Prod.fst (compileFrom_of_ofSource ht)
  obtain ⟨cs, hmakes, hperm⟩ :=
    List.perm_comp_forall₂ h (compileFrom_eq_ok_iff.mp ⟨t.rules, hrules, rfl⟩)
  obtain ⟨rules, hfs, rfl⟩ := (compileFrom_eq_ok_iff (n := 0)).mpr hmakes
  refine ⟨⟨rules⟩, (compileFrom dialect 0 fs).result.2, ?_, hperm⟩
  rw [result_declarations]
  cases hresult : (compileFrom dialect 0 fs).result with
  | mk r us =>
    obtain rfl : r = .ok rules := by rwa [hresult] at hfs
    simp

theorem hasEof_iff : t.hasEof = true ↔ ∃ r ∈ t.rules, r.kind = .eof := by
  simp [hasEof]

theorem acceptsAnyArgument_iff :
    t.acceptsAnyArgument = true ↔ ∃ r ∈ t.rules, r.shape.anyKeyword = true := by
  simp [acceptsAnyArgument]

theorem mem_argumentNames {name : String} :
    name ∈ t.argumentNames ↔ ∃ r ∈ t.rules, name ∈ r.shape.keywords := by
  simp [argumentNames, Names.mem_ofList]

theorem mem_requiredArguments {name : String} :
    name ∈ t.requiredArguments ↔ ∃ r ∈ t.rules, name ∈ r.shape.required := by
  simp [requiredArguments, Names.mem_ofList]

/-- What a table tells of its rules, if they are those of two tables in some order. -/
structure Combines (t u w : RuleTable) : Prop where
  hasEof : w.hasEof = (t.hasEof || u.hasEof)
  acceptsAny : w.acceptsAnyArgument = (t.acceptsAnyArgument || u.acceptsAnyArgument)
  names : ∀ name, name ∈ w.argumentNames ↔ name ∈ t.argumentNames ∨ name ∈ u.argumentNames
  required : ∀ name,
    name ∈ w.requiredArguments ↔ name ∈ t.requiredArguments ∨ name ∈ u.requiredArguments
  accepts : ∀ given, w.checkArguments given = .ok () ↔
    (∀ name, name ∈ t.requiredArguments ∨ name ∈ u.requiredArguments → name ∈ given) ∧
      (t.acceptsAnyArgument = true ∨ u.acceptsAnyArgument = true ∨
        ∀ name ∈ given, name ∈ t.argumentNames ∨ name ∈ u.argumentNames)

/-- A property of rules that their numbers have nothing to do with is that of some rule of a joined table, in
whichever order, if it is that of one in either part. -/
theorem SameRules.exists_iff (h : w.SameRules (t.joined u)) {P : CompiledRule → Prop}
    (hP : ∀ r, P r.unnumbered ↔ P r) :
    (∃ r ∈ w.rules, P r) ↔ (∃ r ∈ t.rules, P r) ∨ ∃ r ∈ u.rules, P r := by
  have hunnumbered (v : RuleTable) :
      (∃ r ∈ v.rules, P r) ↔ ∃ r ∈ v.rules.map CompiledRule.unnumbered, P r := by
    simp [hP]
  have hnumber (r : CompiledRule) : P (r.renumbered (· + (t.size : Int))) ↔ P r := by
    rw [← hP, CompiledRule.unnumbered_renumbered, hP]
  have hjoined : (∃ r ∈ (t.joined u).rules, P r) ↔
      (∃ r ∈ t.rules, P r) ∨ ∃ r ∈ u.rules, P r := by
    simp [joined, or_and_right, exists_or, hnumber]
  rw [← hjoined, hunnumbered w, hunnumbered (t.joined u)]
  simp only [h.mem_iff]

theorem SameRules.combines (h : w.SameRules (t.joined u)) : t.Combines u w := by
  have hany : w.acceptsAnyArgument = (t.acceptsAnyArgument || u.acceptsAnyArgument) := by
    rw [Bool.eq_iff_iff, Bool.or_eq_true]
    simpa only [acceptsAnyArgument_iff] using h.exists_iff (by simp)
  have hnames (name : String) :
      name ∈ w.argumentNames ↔ name ∈ t.argumentNames ∨ name ∈ u.argumentNames := by
    simpa only [mem_argumentNames] using h.exists_iff (by simp)
  have hrequired (name : String) :
      name ∈ w.requiredArguments ↔ name ∈ t.requiredArguments ∨ name ∈ u.requiredArguments := by
    simpa only [mem_requiredArguments] using h.exists_iff (by simp)
  constructor
  · rw [Bool.eq_iff_iff, Bool.or_eq_true]
    simpa only [hasEof_iff] using h.exists_iff (by simp)
  · exact hany
  · exact hnames
  · exact hrequired
  · intro given
    rw [checkArguments_eq_ok_iff, hany, Bool.or_eq_true, or_assoc]
    simp only [hnames, hrequired]

/-- Lexer arguments are refused for the same reason, whatever the order of the rules. -/
theorem Combines.checkArguments_eq (hv : t.Combines u v) (hw : t.Combines u w) :
    v.checkArguments = w.checkArguments := by
  have hnames : v.argumentNames = w.argumentNames :=
    (Names.pairwise_ofList _).eq_of_mem_iff (Names.pairwise_ofList _) fun name =>
      (hv.names name).trans (hw.names name).symm
  have hrequired : v.requiredArguments = w.requiredArguments :=
    (Names.pairwise_ofList _).eq_of_mem_iff (Names.pairwise_ofList _) fun name =>
      (hv.required name).trans (hw.required name).symm
  funext given
  simp only [checkArguments, hnames, hrequired, hv.acceptsAny, hw.acceptsAny]

/-- Two lists of declarations, one after the other. An error of the first list is reported, with the warnings
before it, whatever the second one is. Else the warnings of the first come before those of the second, and
what is reported of the second list, its error or its rules, is the same as without the first, but that the
numbers of rules are greater by the length of the first. In any order, the declarations make a table that
takes the lexer arguments of both parts. -/
theorem declarations_in_two_parts (dialect : Regex.Dialect) (ds es : List Declaration) :
    (∀ f ws, (ofSource (.declarations ds) dialect).result = (.error f, ws) →
      (ofSource (.declarations (ds ++ es)) dialect).result = (.error f, ws)) ∧
    ∀ t ws, (ofSource (.declarations ds) dialect).result = (.ok t, ws) → t.size = ds.length ∧
      (∀ f vs, (ofSource (.declarations es) dialect).result = (.error f, vs) →
        (ofSource (.declarations (ds ++ es)) dialect).result =
          (.error (f.declaredAs (· + (ds.length : Int))),
            ws ++ vs.map (EmptyMatch.renumbered (· + (ds.length : Int))))) ∧
      ∀ u vs, (ofSource (.declarations es) dialect).result = (.ok u, vs) →
        (ofSource (.declarations (ds ++ es)) dialect).result =
          (.ok (t.joined u), ws ++ vs.map (EmptyMatch.renumbered (· + (ds.length : Int)))) ∧
        (∀ (i : Nat) (r : CompiledRule), (t.joined u).rules[i]? = some r → r.priority = i) ∧
        t.Combines u (t.joined u) ∧
        ∀ fs, fs.Perm (ds ++ es) → ∃ v us, (ofSource (.declarations fs) dialect).result = (.ok v, us) ∧
          t.Combines u v ∧ v.checkArguments = (t.joined u).checkArguments := by
  constructor
  · intro f ws hds
    rw [result_append, hds, BuildReport.followed_error]
  · intro t ws hds
    refine ⟨length_of_compileFrom (compileFrom_of_ofSource hds), fun f vs hes => ?_, fun u vs hes => ?_⟩
    · rw [result_append, hds, hes, BuildReport.followed_ok, BuildReport.renumbered_error]
    · have hjoined : (ofSource (.declarations (ds ++ es)) dialect).result =
          (.ok (t.joined u), ws ++ vs.map (EmptyMatch.renumbered (· + (ds.length : Int)))) := by
        rw [result_append, hds, hes, BuildReport.followed_ok, BuildReport.renumbered_ok]
      have hbuilt : (t.joined u).Built := ⟨_, _, _, hjoined⟩
      have hcombines : t.Combines u (t.joined u) := SameRules.combines (List.Perm.refl _)
      refine ⟨hjoined, fun i r => hbuilt.priority, hcombines, fun fs hperm => ?_⟩
      obtain ⟨v, us, hfs, hsame⟩ := exists_sameRules_of_perm hperm hjoined
      exact ⟨v, us, hfs, hsame.combines, hsame.combines.checkArguments_eq hcombines⟩

end RuleTable

def optionalLetter : List Declaration := [.rule (.text ['a', '|']) (.action labelled)]

/-- A rule for the empty text, and one for the end of the input. -/
def emptyAndEnd : List Declaration :=
  [.rule (.text []) (.action scaled), .rule (.kind .eof) (.action scaled)]

/-- The second pattern is malformed. -/
def unclosed : List Declaration :=
  [.rule (.text ['a', '|']) (.action labelled), .rule (.text ['(']) (.action labelled)]

def optionalLetterRule (number : Int) : CompiledRule :=
  ⟨number, .regex .pattern ['a', '|'] ⟨.alt (.char 97 .exact) (.alt .empty .never), 0⟩, labelled,
    ⟨1, [], [], true⟩⟩

def emptyAndEndRules (number : Int) : List CompiledRule :=
  [⟨number, .regex .pattern [] ⟨.empty, 0⟩, scaled, ⟨1, ["scale", "unit"], ["scale"], false⟩⟩,
    ⟨number + 1, .eof, scaled, ⟨1, ["scale", "unit"], ["scale"], false⟩⟩]

def unclosedFault (number : Int) : Fault :=
  .definition (.badPattern ['('] number (.located .unterminatedGroup 0) ['('])

/-- The malformed pattern is the second one where its list comes first, and the third one behind another rule.
Two lists without errors make a table of three rules, and the lexer arguments that it takes are those of the
table of the lists in the opposite order. -/
theorem declarations_in_two_parts_unclosed :
    (RuleTable.ofSource (.declarations (unclosed ++ emptyAndEnd))).result =
      (.error (unclosedFault 1), [⟨['a', '|'], 0⟩]) ∧
    (RuleTable.ofSource (.declarations (optionalLetter ++ unclosed))).result =
      (.error (unclosedFault 2), [⟨['a', '|'], 0⟩, ⟨['a', '|'], 1⟩]) ∧
    (RuleTable.ofSource (.declarations (optionalLetter ++ emptyAndEnd))).result =
      (.ok ⟨optionalLetterRule 0 :: emptyAndEndRules 1⟩, [⟨['a', '|'], 0⟩, ⟨[], 1⟩]) ∧
    ∃ v us, (RuleTable.ofSource (.declarations (emptyAndEnd ++ optionalLetter))).result = (.ok v, us) ∧
      v.hasEof = true ∧ v.checkArguments ["scale", "color"] = .ok () ∧
      v.checkArguments ["color"] = .error (.missingArguments ["scale"]) := by
  have hunclosed : (RuleTable.ofSource (.declarations unclosed)).result =
      (.error (unclosedFault 1), [⟨['a', '|'], 0⟩]) := rfl
  have hletter : (RuleTable.ofSource (.declarations optionalLetter)).result =
      (.ok ⟨[optionalLetterRule 0]⟩, [⟨['a', '|'], 0⟩]) := rfl
  have hends : (RuleTable.ofSource (.declarations emptyAndEnd)).result =
      (.ok ⟨emptyAndEndRules 0⟩, [⟨[], 0⟩]) := rfl
  obtain ⟨-, herror, -⟩ :=
    (RuleTable.declarations_in_two_parts .bare optionalLetter unclosed).2 _ _ hletter
  obtain ⟨-, -, hjoined⟩ :=
    (RuleTable.declarations_in_two_parts .bare optionalLetter emptyAndEnd).2 _ _ hletter
  obtain ⟨htable, -, -, horders⟩ := hjoined _ _ hends
  obtain ⟨v, us, hv, hcombines, hchecks⟩ := horders (emptyAndEnd ++ optionalLetter) List.perm_append_comm
  refine ⟨(RuleTable.declarations_in_two_parts .bare unclosed emptyAndEnd).1 _ _ hunclosed,
    herror _ _ hunclosed, htable, v, us, hv, ?_, ?_, ?_⟩
  · rw [hcombines.hasEof]
    rfl
  · rw [hchecks]
    decide
  · rw [hchecks]
    decide

end FirstMatch
