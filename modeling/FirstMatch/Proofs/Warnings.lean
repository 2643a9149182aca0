import FirstMatch.Proofs.EmptyMatches
import FirstMatch.Proofs.Tokenizing

/-!
The warnings about patterns that match the empty text: which rules they are about, and what a table
without any warning is spared. Only the empty text is tried, so a pattern that takes no character just
in front of certain ones is not warned about.
-/

namespace FirstMatch

namespace CompiledRule

/-- Whether a rule is a pattern that matches the empty text. -/
def matchesEmpty (r : CompiledRule) : Bool :=
  r.kind == .pattern && r.trigger.matchAt false [] == some (.length 0)

/-- Whether the tree of a pattern tells if it can match without a character. -/
def settled (r : CompiledRule) : Bool :=
  match r.trigger with
  | .regex .pattern _ program => program.tree.settled
  | _ => true

/-- What a warning tells about a rule: the source as it was compiled, and the number. -/
def notice (r : CompiledRule) : Option (List Char) × Int := (r.trigger.source?, r.priority)

theorem trigger_of_kind {r : CompiledRule} (h : r.kind = .pattern) :
    ∃ source program, r.trigger = .regex .pattern source program := by
  unfold kind at h
  cases htrigger : r.trigger with
  | eof =>
    rw [htrigger] at h
    cases h
  | regex kind source program =>
    rw [htrigger] at h
    obtain rfl : kind = .pattern := h
    exact ⟨source, program, rfl⟩

theorem matchesEmpty_of_trigger {r : CompiledRule} {source : List Char} {program : Program}
    (h : r.trigger = .regex .pattern source program) :
    r.matchesEmpty = true ↔ program.run [] = some (.length 0) := by
  unfold matchesEmpty kind
  rw [h]
  change (program.run [] == some (.length 0)) = true ↔ _
  exact beq_iff_eq

end CompiledRule

def EmptyMatch.notice (w : EmptyMatch) : Option (List Char) × Int :=
  (some (EndAnchor.replace w.source), w.rule)

theorem Build.ofFlaw_eq_ok {α : Type} {e : Except DefinitionFlaw α} {a : α}
    {before after : List EmptyMatch} (h : (ofFlaw e).run.run before = (.ok a, after)) :
    after = before := by
  cases e with
  | ok b =>
    cases h
    rfl
  | error flaw => cases h

namespace Rule

variable {dialect : Regex.Dialect} {before after : List EmptyMatch} {priority : Int} {t : Trigger}

/-- A pattern rule has the program of its source, and is warned about if that matches the empty text. -/
theorem warnings_of_patternTrigger {pattern : Value}
    (h : (patternTrigger dialect priority pattern).run.run before = (.ok t, after)) :
    ∃ source program, t = .regex .pattern (EndAnchor.replace source) program ∧
      Regex.ofSource dialect (EndAnchor.replace source) = .ok program ∧
      after = before ++ if program.run [] = some (.length 0) then [⟨source, priority⟩] else [] := by
  obtain ⟨source, between, hsource, hrest⟩ := Build.bind_eq_ok h
  obtain rfl := Build.ofFlaw_eq_ok hsource
  dsimp only at hrest
  split at hrest
  · split at hrest
    · cases hrest
    · cases hrest
  · next program hread =>
    refine ⟨source, program, ?_⟩
    rcases program.run_nil_eq_none_or with hrun | hrun
    · rw [hrun] at hrest ⊢
      cases hrest
      exact ⟨rfl, hread, by simp⟩
    · rw [hrun] at hrest ⊢
      cases hrest
      exact ⟨rfl, hread, by simp⟩

/-- A compiled rule is warned about if it is a pattern that matches the empty text, and a pattern has the
program of its source. -/
theorem warnings_of_compile {r : Rule} {c : CompiledRule}
    (h : (r.compile priority dialect).run.run before = (.ok c, after)) :
    after.map (·.notice) =
        before.map (·.notice) ++ ([c].filter (·.matchesEmpty)).map (·.notice) ∧
      ∀ source program, c.trigger = .regex .pattern source program →
        Regex.ofSource dialect source = .ok program := by
  obtain ⟨⟨action, shape⟩, between, hshape, hrest⟩ := Build.bind_eq_ok h
  obtain rfl := Build.ofFlaw_eq_ok hshape
  obtain ⟨t, between', ht, hdone⟩ := Build.bind_eq_ok hrest
  cases hdone
  unfold trigger at ht
  split at ht
  · cases ht
    exact ⟨(List.append_nil _).symm, nofun⟩
  · cases ht
    exact ⟨(List.append_nil _).symm, nofun⟩
  · cases ht
    exact ⟨(List.append_nil _).symm, nofun⟩
  · obtain ⟨source, program, rfl, hread, rfl⟩ := warnings_of_patternTrigger ht
    refine ⟨?_, fun _ _ heq => ?_⟩
    · have hmatches : CompiledRule.matchesEmpty
          ⟨priority, .regex .pattern (EndAnchor.replace source) program, action, shape⟩ = true ↔
            program.run [] = some (.length 0) := CompiledRule.matchesEmpty_of_trigger rfl
      rw [List.map_append, List.filter_singleton]
      split
      · next hrun =>
        rw [hmatches.mpr hrun]
        rfl
      · next hrun =>
        rw [Bool.eq_false_iff.mpr (mt hmatches.mp hrun)]
        rfl
    · cases heq
      exact hread

end Rule

namespace RuleTable

/-- The warnings of a table are about its patterns that match the empty text, in order. -/
theorem warnings_of_compileFrom {dialect : Regex.Dialect} {ds : List Declaration} {n : Nat}
    {rules : List CompiledRule} {before after : List EmptyMatch}
    (h : (compileFrom dialect n ds).run.run before = (.ok rules, after)) :
    after.map (·.notice) =
        before.map (·.notice) ++ (rules.filter (·.matchesEmpty)).map (·.notice) ∧
      ∀ r ∈ rules, ∀ source program, r.trigger = .regex .pattern source program →
        Regex.ofSource dialect source = .ok program := by
  induction ds generalizing n rules before with
  | nil =>
    cases h
    exact ⟨(List.append_nil _).symm, nofun⟩
  | cons d ds ih =>
    obtain ⟨rule, between, hrule, hcompile⟩ := Build.bind_eq_ok h
    obtain rfl := Build.ofFlaw_eq_ok hrule
    obtain ⟨c, between', hc, htail⟩ := Build.bind_eq_ok hcompile
    obtain ⟨rest, between'', hrest, hdone⟩ := Build.bind_eq_ok htail
    cases hdone
    obtain ⟨hwarned, hread⟩ := Rule.warnings_of_compile hc
    obtain ⟨hwarnings, hreads⟩ := ih hrest
    constructor
    · rw [hwarnings, hwarned, List.append_assoc, ← List.map_append, ← List.filter_append]
      rfl
    · intro r hr
      rcases List.mem_cons.mp hr with rfl | hr
      · exact hread
      · exact hreads r hr

variable {dialect : Regex.Dialect} {source : RuleSource} {t : RuleTable} {ws : List EmptyMatch}

theorem warnings_of_ofSource (h : (ofSource source dialect).result = (.ok t, ws)) :
    ws.map (·.notice) = (t.rules.filter (·.matchesEmpty)).map (·.notice) ∧
      ∀ r ∈ t.rules, ∀ source program, r.trigger = .regex .pattern source program →
        Regex.ofSource dialect source = .ok program := by
  unfold ofSource at h
  split at h
  · cases h
  · obtain ⟨rules, between, hrules, hdone⟩ := Build.bind_eq_ok h
    cases hdone
    exact warnings_of_compileFrom hrules

/-- A rule is warned about just if it is a pattern that matches the empty text. -/
theorem warned_iff (h : (ofSource source dialect).result = (.ok t, ws)) {k : Nat} {r : CompiledRule}
    (hr : t.rules[k]? = some r) : (∃ w ∈ ws, w.rule = k) ↔ r.matchesEmpty = true := by
  have hbuilt : t.Built := ⟨dialect, source, ws, h⟩
  obtain ⟨hnotices, -⟩ := warnings_of_ofSource h
  have hpriority := hbuilt.priority hr
  constructor
  · rintro ⟨w, hw, hrule⟩
    have hmem := List.mem_map_of_mem (f := EmptyMatch.notice) hw
    rw [hnotices] at hmem
    obtain ⟨r', hr', hnotice⟩ := List.mem_map.mp hmem
    obtain ⟨hr', hmatches⟩ := List.mem_filter.mp hr'
    obtain ⟨j, hj⟩ := List.getElem?_of_mem hr'
    have hsame : (j : Int) = k := by
      rw [← hbuilt.priority hj, ← hrule]
      exact congrArg Prod.snd hnotice
    obtain rfl : j = k := by omega
    rw [hj] at hr
    cases hr
    exact hmatches
  · intro hmatches
    have hmem : r ∈ t.rules.filter (·.matchesEmpty) :=
      List.mem_filter.mpr ⟨List.mem_of_getElem? hr, hmatches⟩
    have hnotice := List.mem_map_of_mem (f := CompiledRule.notice) hmem
    rw [← hnotices] at hnotice
    obtain ⟨w, hw, heq⟩ := List.mem_map.mp hnotice
    refine ⟨w, hw, ?_⟩
    rw [← hpriority]
    exact congrArg Prod.snd heq

/-- A settled pattern that takes no character somewhere takes none of the empty text. -/
theorem matchesEmpty_iff (h : (ofSource source dialect).result = (.ok t, ws)) {r : CompiledRule}
    (hr : r ∈ t.rules) (hsettled : r.settled = true) :
    r.matchesEmpty = true ↔
      r.kind = .pattern ∧ ∃ c remaining, r.matchAt c remaining = some (.length 0) := by
  obtain ⟨-, hreads⟩ := warnings_of_ofSource h
  constructor
  · intro hmatches
    have hkind : r.kind = .pattern := beq_iff_eq.mp (Bool.and_eq_true_iff.mp hmatches).1
    obtain ⟨source, program, htrigger⟩ := r.trigger_of_kind hkind
    refine ⟨hkind, .ofText [], some [], ?_⟩
    unfold CompiledRule.matchAt
    rw [htrigger]
    exact (CompiledRule.matchesEmpty_of_trigger htrigger).mp hmatches
  · rintro ⟨hkind, c, remaining, hmatch⟩
    obtain ⟨source, program, htrigger⟩ := r.trigger_of_kind hkind
    unfold CompiledRule.settled at hsettled
    unfold CompiledRule.matchAt at hmatch
    rw [htrigger] at hsettled hmatch
    rw [CompiledRule.matchesEmpty_of_trigger htrigger]
    exact Program.run_nil_of_settled (hreads r hr source program htrigger) hsettled hmatch

end RuleTable

/-- A rule is warned about just if it is a pattern that matches the empty text. Where the tree of the
pattern tells if it can match without a character, these are the patterns that do so in front of some
text; in a table without warnings no such pattern fires without taking a character. -/
theorem empty_match_warnings {dialect : Regex.Dialect} {source : RuleSource} {t : RuleTable}
    {ws : List EmptyMatch} (h : (RuleTable.ofSource source dialect).result = (.ok t, ws)) :
    (∀ (k : Nat) (r : CompiledRule), t.rules[k]? = some r →
      ((∃ w ∈ ws, w.rule = k) ↔ r.matchesEmpty = true) ∧
      (r.settled = true → ((∃ w ∈ ws, w.rule = k) ↔
        r.kind = .pattern ∧ ∃ c remaining, r.matchAt c remaining = some (.length 0)))) ∧
    (ws = [] → ∀ r ∈ t.rules, r.kind = .pattern → r.settled = true →
      ∀ c remaining, r.matchAt c remaining ≠ some (.length 0)) := by
  constructor
  · intro k r hr
    have hwarned := RuleTable.warned_iff h hr
    have hmem := List.mem_of_getElem? hr
    exact ⟨hwarned, fun hsettled => hwarned.trans (RuleTable.matchesEmpty_iff h hmem hsettled)⟩
  · rintro rfl r hr hkind hsettled c remaining hmatch
    obtain ⟨k, hk⟩ := List.getElem?_of_mem hr
    have hmatches := (RuleTable.matchesEmpty_iff h hr hsettled).mpr ⟨hkind, c, remaining, hmatch⟩
    obtain ⟨w, hw, -⟩ := (RuleTable.warned_iff h hk).mpr hmatches
    cases hw

/-- The first pattern only looks at a letter, and the second takes it or nothing. -/
def guards : List Declaration := [
  .rule (.text "(?=a)".toList) (.action (plainAction "peek" fun _ => .done .skip)),
  .rule (.text "a|".toList) (.action (plainAction "letter" fun text => .done (.text text)))]

def peekRule : CompiledRule :=
  ⟨0, .regex .pattern "(?=a)".toList ⟨.ahead false (.char 97 .exact), 0⟩,
    plainAction "peek" fun _ => .done .skip, ⟨1, [], [], false⟩⟩

def letterRule : CompiledRule :=
  ⟨1, .regex .pattern "a|".toList
      ⟨.alt (.char 97 .exact) (.alt .empty .never), 0⟩,
    plainAction "letter" fun text => .done (.text text), ⟨1, [], [], false⟩⟩

/-- Just the second pattern is warned about. The first one is not settled: in front of its letter it
fires over and over, since the cursor stays. -/
theorem empty_match_warnings_guards :
    (RuleTable.ofSource (.declarations guards)).result =
      (.ok ⟨[peekRule, letterRule]⟩, [⟨"a|".toList, 1⟩]) ∧
    (letterRule.settled = true ∧ letterRule.kind = .pattern ∧
      ∃ c remaining, letterRule.matchAt c remaining = some (.length 0)) ∧
    (peekRule.settled = false ∧ peekRule.kind = .pattern ∧
      peekRule.matchAt (.ofText ['a']) none = some (.length 0)) ∧
    (∃ span, RuleTable.attempt ⟨[peekRule, letterRule]⟩ (.ofText ['a']) =
      (.fired peekRule [] span, .ofText ['a'])) := by
  have hbuilt : (RuleTable.ofSource (.declarations guards)).result =
      (.ok ⟨[peekRule, letterRule]⟩, [⟨"a|".toList, 1⟩]) := rfl
  obtain ⟨hrules, -⟩ := empty_match_warnings hbuilt
  have hwarned : ∃ w ∈ [(⟨"a|".toList, 1⟩ : EmptyMatch)], w.rule = (1 : Nat) :=
    ⟨_, List.mem_singleton_self _, rfl⟩
  have hmatch := ((hrules 1 letterRule rfl).2 rfl).mp hwarned
  exact ⟨hbuilt, ⟨rfl, hmatch⟩, ⟨rfl, rfl, rfl⟩, _, rfl⟩

end FirstMatch
