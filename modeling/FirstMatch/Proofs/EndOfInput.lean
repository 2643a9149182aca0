import FirstMatch.Proofs.Compilation
import FirstMatch.Proofs.PairedSources
import FirstMatch.Proofs.ParallelReading

/-!
When a dollar in a declared pattern means the very end of the input. It does if just the dollars that are
read so are replaced. Otherwise the pattern is refused, or a dollar is left that also holds before a
newline at the end.
-/

namespace FirstMatch

/-- The dollars that are read in a source, if it can be read. -/
def Regex.dollars (dialect : Regex.Dialect) (source : List Char) : List Regex.Dollar :=
  match (Regex.Reader.pattern .finalLine source).run (.start dialect source) with
  | .ok (_, ds) => ds
  | .error _ => []

/-- Just those dollars of a source are replaced that are read as the end of the input. -/
def EndAnchor.Faithful (dialect : Regex.Dialect) (source : List Char) : Prop :=
  ∀ d ∈ Regex.dollars dialect source, d.InStep source

instance (dialect : Regex.Dialect) (source : List Char) :
    Decidable (EndAnchor.Faithful dialect source) :=
  inferInstanceAs (Decidable (∀ d ∈ Regex.dollars dialect source,
    EndAnchor.Replaces source d.position ↔ d.role = .ending))

namespace Regex

variable {dialect : Dialect} {dollar : Anchor} {source : List Char}

theorem ofSourceAs_eq_ok {program : Program} (h : ofSourceAs dialect dollar source = .ok program) :
    ∃ r s ds, Reader.pattern dollar source (.start dialect source) = .ok ((r, s), ds) ∧
      r.program s = .ok program := by
  unfold ofSourceAs at h
  split at h
  · cases h
  · next r s ds hread => exact ⟨r, s, ds, hread, h⟩

theorem ofSourceAs_of_pattern {r : Regex} {s : State} {ds : List Dollar}
    (h : Reader.pattern dollar source (.start dialect source) = .ok ((r, s), ds)) :
    ofSourceAs dialect dollar source = r.program s := by
  unfold ofSourceAs StateT.run
  rw [h]

theorem dollars_of_pattern {r : Regex} {s : State} {ds : List Dollar}
    (h : Reader.pattern .finalLine source (.start dialect source) = .ok ((r, s), ds)) :
    dollars dialect source = ds := by
  unfold dollars StateT.run
  rw [h]

/-- A source that can be read can also be read where a dollar means the end of the text: the same
dollars are met. -/
theorem strict_reading {program : Program} (h : ofSource dialect source = .ok program) :
    ∃ r s strict,
      Reader.pattern .textEnd source (.start dialect source) =
        .ok ((r, s), dollars dialect source) ∧
      r.program s = .ok strict := by
  obtain ⟨r, s, ds, hread, hprogram⟩ := ofSourceAs_eq_ok h
  have htogether := Reader.together_pattern .finalLine .textEnd source (.start dialect source)
  rw [hread] at htogether
  generalize Reader.pattern .textEnd source (.start dialect source) = x at htogether
  cases htogether with
  | @read _ r' related =>
    refine ⟨r', s, { program with tree := r' }, ?_, ?_⟩
    · rw [dollars_of_pattern hread]
    · rw [related.program, hprogram]
      rfl

/-- The source that is compiled reads as if each dollar meant the end of the text, or else it is refused
or has a dollar left. -/
theorem compiled_reading {program : Program} (h : ofSource dialect source = .ok program) :
    ∃ strict, ofSourceAs dialect .textEnd source = .ok strict ∧
      ((EndAnchor.Faithful dialect source ∧
          ofSource dialect (EndAnchor.replace source) = .ok strict ∧
          ∀ d ∈ dollars dialect (EndAnchor.replace source), d.role ≠ .ending) ∨
        (¬EndAnchor.Faithful dialect source ∧
          ∀ compiled, ofSource dialect (EndAnchor.replace source) = .ok compiled →
            ∃ d ∈ dollars dialect (EndAnchor.replace source), d.role = .ending)) := by
  obtain ⟨r, s, strict, hread, hprogram⟩ := strict_reading h
  refine ⟨strict, (ofSourceAs_of_pattern hread).trans hprogram, ?_⟩
  cases Reader.agrees_pattern dialect (EndAnchor.rewritten_replace source) r s _ hread with
  | @alike r' t es inStep result none_left related paired =>
    subst related
    refine .inl ⟨inStep, ?_, ?_⟩
    · exact (ofSourceAs_of_pattern result).trans ((paired.program r).trans hprogram)
    · rwa [dollars_of_pattern result]
  | astray outOfStep left =>
    obtain ⟨d, hd, hout⟩ := outOfStep
    refine .inr ⟨fun hfaithful => hout (hfaithful d hd), fun compiled hcompiled => ?_⟩
    obtain ⟨r', t, es, hread', -⟩ := ofSourceAs_eq_ok hcompiled
    rw [dollars_of_pattern hread']
    exact left r' t es hread'

end Regex

/-- In a pattern whose dollars are replaced faithfully each dollar outside of lines means the very end of
the input: the rule compiles and matches every text so. In any other pattern compiling fails or leaves
a dollar that holds before a newline at the end too. -/
theorem dollar_ends_input {dialect : Regex.Dialect} {r : Rule} {source : List Char}
    {program : Program} {action : Action} {shape : CallShape}
    (hsource : patternSource r.pattern = .ok source)
    (hread : Regex.ofSource dialect source = .ok program)
    (hshape : r.handler.callShape = .ok (action, shape)) (priority : Int)
    (before : List EmptyMatch) :
    ∃ strict, Regex.ofSourceAs dialect .textEnd source = .ok strict ∧
      (EndAnchor.Faithful dialect source →
        (∀ d ∈ Regex.dollars dialect (EndAnchor.replace source), d.role ≠ .ending) ∧
        ∃ rule after, (r.compile priority dialect).run.run before = (.ok rule, after) ∧
          ∀ c remaining, rule.matchAt c remaining = strict.run (remaining.getD c.ahead)) ∧
      (¬EndAnchor.Faithful dialect source →
        (∃ fault after, (r.compile priority dialect).run.run before = (.error fault, after)) ∨
        ∃ d ∈ Regex.dollars dialect (EndAnchor.replace source), d.role = .ending) := by
  obtain ⟨strict, hstrict, hcases⟩ := Regex.compiled_reading hread
  refine ⟨strict, hstrict, fun hfaithful => ?_, fun hfaithful => ?_⟩
  · rcases hcases with ⟨-, hcompiled, hnone⟩ | ⟨hnot, -⟩
    · obtain ⟨after, htrigger⟩ := Rule.patternTrigger_of_program hsource hcompiled before
      refine ⟨hnone, ⟨priority, .regex .pattern (EndAnchor.replace source) strict, action, shape⟩,
        after, ?_, fun c remaining => rfl⟩
      rw [Rule.run_compile hshape hsource, htrigger]
    · exact absurd hfaithful hnot
  · rcases hcases with ⟨hin, -⟩ | ⟨-, hleft⟩
    · exact absurd hin hfaithful
    · cases hcompiled : Regex.ofSource dialect (EndAnchor.replace source) with
      | ok compiled => exact .inr (hleft compiled hcompiled)
      | error flaw =>
        obtain ⟨fault, htrigger⟩ :=
          @Rule.patternTrigger_of_flaw dialect priority _ _ _ hsource hcompiled before
        refine .inl ⟨fault, before, ?_⟩
        rw [Rule.run_compile hshape hsource, htrigger]

/-- A rule with the given pattern whose matches are skipped. -/
def skipping (source : List Char) : Rule :=
  ⟨.text source, .action ⟨"skip", [⟨.positionalOnly, "text", none⟩], fun _ => .done .skip⟩⟩

/-- The dollar in the set is kept, the one at the end is replaced. -/
def dollarRun : List Char := "[]$]+$".toList

/-- The bracket in the comment counts as the start of a set, and the dollar is kept. -/
def commentedEnd : List Char := "(?#[)a$".toList

/-- The first of the two patterns means what it says, the second also matches before a newline. -/
theorem dollar_ends_input_comment :
    (∃ strict rule after, Regex.ofSourceAs .bare .textEnd dollarRun = .ok strict ∧
      ((skipping dollarRun).compile 0).run.run [] = (.ok rule, after) ∧
      ∀ c remaining, rule.matchAt c remaining = strict.run (remaining.getD c.ahead)) ∧
    ((∃ fault after, ((skipping commentedEnd).compile 0).run.run [] = (.error fault, after)) ∨
      ∃ d ∈ Regex.dollars .bare (EndAnchor.replace commentedEnd), d.role = .ending) ∧
    (Regex.ofSource .bare (EndAnchor.replace commentedEnd)).toOption.bind (·.run ['a', '\n']) =
      some (.length 1) ∧
    (Regex.ofSourceAs .bare .textEnd commentedEnd).toOption.bind (·.run ['a', '\n']) = none := by
  have readable (source : List Char) (h : (Regex.ofSource .bare source).toOption.isSome) :
      ∃ program, Regex.ofSource .bare source = .ok program := by
    cases hread : Regex.ofSource .bare source with
    | ok program => exact ⟨program, rfl⟩
    | error flaw =>
      rw [hread] at h
      cases h
  obtain ⟨first, hfirst⟩ := readable dollarRun (by decide +kernel)
  obtain ⟨second, hsecond⟩ := readable commentedEnd (by decide +kernel)
  obtain ⟨strict, hstrict, hmeans, -⟩ :=
    dollar_ends_input (r := skipping dollarRun) rfl hfirst rfl 0 []
  obtain ⟨-, rule, after, hrule, hmatch⟩ := hmeans (by decide +kernel)
  obtain ⟨-, -, -, hleft⟩ := dollar_ends_input (r := skipping commentedEnd) rfl hsecond rfl 0 []
  refine ⟨⟨strict, rule, after, hstrict, hrule, hmatch⟩, hleft (by decide +kernel), ?_, ?_⟩
  · decide +kernel
  · decide +kernel

end FirstMatch
