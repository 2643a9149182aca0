import FirstMatch.Fault
import FirstMatch.RuleKind

/-!
The names under which the parts of this library are known to those who use it, in ascending order. Whoever
knows them can tell every error of the library from the errors of actions.
-/

namespace FirstMatch.Vocabulary

def names : List String :=
  ["ActionError", "EOF", "Emitted", "EmptyMatchWarning", "Exhausted", "Failed", "LexError", "Lexer",
   "LexerEngine", "Rule", "RuleDefinitionError", "RuleTable", "SKIP", "Skipped", "SourceCursor",
   "SrcLoc", "TokenStream", "UnmatchedInputError", "WHITESPACE", "WILDCARD", "skip"]

/-- The names of the rules that stand in place of a pattern. -/
def sentinelNames : List String := RuleKind.sentinels.map RuleKind.name

theorem pairwise_names : names.Pairwise (· < ·) := by decide +kernel

theorem sentinelNames_subset_names : sentinelNames ⊆ names := by decide

/-- A class with known ancestors is known by its name, and is the nearest of them. -/
theorem mem_names_of_lineage {kind : String} {classes : List String}
    (h : Fault.lineage kind = some classes) : kind ∈ names ∧ classes.head? = some kind := by
  unfold Fault.lineage at h
  split at h <;> cases h <;> exact ⟨by decide, rfl⟩

/-- An error of the engine can be caught as an error of this library. -/
theorem lexError_of_serial {f : Fault} (h : f.serial?.isSome) :
    ∃ classes, Fault.lineage f.kind = some classes ∧ "LexError" ∈ classes := by
  cases f with
  | unmatched n character location => exact ⟨_, rfl, by decide⟩
  | action n cause location rule caused => exact ⟨_, rfl, by decide⟩
  | _ => cases h

/-- So can an error of a definition, and it counts as an error of the value that was given too. -/
theorem lexError_of_definition (flaw : DefinitionFlaw) :
    ∃ classes, Fault.lineage (Fault.definition flaw).kind = some classes ∧
      "LexError" ∈ classes ∧ "ValueError" ∈ classes := ⟨_, rfl, by decide, by decide⟩

end FirstMatch.Vocabulary
