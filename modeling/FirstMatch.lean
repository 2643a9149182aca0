import FirstMatch.Lexer
import FirstMatch.Recipe
import FirstMatch.Vocabulary
import FirstMatch.Proofs.Effects
import FirstMatch.Proofs.Coordinates
import FirstMatch.Proofs.History
import FirstMatch.Proofs.Tiling
import FirstMatch.Proofs.Location
import FirstMatch.Proofs.Compilation
import FirstMatch.Proofs.Reading
import FirstMatch.Proofs.Tokenizing
import FirstMatch.Proofs.Deeds
import FirstMatch.Proofs.EndAnchors
import FirstMatch.Proofs.PairedReaders
import FirstMatch.Proofs.PairedTokens
import FirstMatch.Proofs.PairedNotation
import FirstMatch.Proofs.PairedSources
import FirstMatch.Proofs.AlikeTrees
import FirstMatch.Proofs.ParallelReading
import FirstMatch.Proofs.EndOfInput
import FirstMatch.Proofs.EndFiring
import FirstMatch.Proofs.EndOfStream
import FirstMatch.Proofs.EndShared
import FirstMatch.Proofs.Depth
import FirstMatch.Proofs.MatchCount
import FirstMatch.Proofs.TameScripts
import FirstMatch.Proofs.Termination
import FirstMatch.Proofs.TakenCharacters
import FirstMatch.Proofs.EmptyMatches
import FirstMatch.Proofs.Warnings
import FirstMatch.Proofs.CallBinding
import FirstMatch.Proofs.FinalReports
import FirstMatch.Proofs.RemainingText
import FirstMatch.Proofs.SharedStreams
import FirstMatch.Proofs.InsertedRules
import FirstMatch.Proofs.Cuts
import FirstMatch.Proofs.NestedFailures
import FirstMatch.Proofs.NestedComments
import FirstMatch.Proofs.CursorLaws
import FirstMatch.Proofs.PatternItems
import FirstMatch.Proofs.UnmatchedSteps
import FirstMatch.Proofs.RenamedRecipes
import FirstMatch.Proofs.AnchoredTwice
import FirstMatch.Proofs.ArgumentCounts
import FirstMatch.Proofs.JoinedTables
import FirstMatch.Proofs.ReadingOrder
