import DerivedTags.Decimal.Arithmetic
import DerivedTags.Decimal.Binary64
import DerivedTags.Decimal.Fixed
import DerivedTags.Decimal.Numeral
import DerivedTags.Decimal.Range
import DerivedTags.Decimal.Shortest
import DerivedTags.Feature.Access
import DerivedTags.Feature.Basic
import DerivedTags.Feature.Properties
import DerivedTags.Feature.Reading
import DerivedTags.Geo.Box
import DerivedTags.Geo.Geometry
import DerivedTags.Geo.Measure
import DerivedTags.Journal.Event
import DerivedTags.Journal.Failures
import DerivedTags.Journal.Session
import DerivedTags.Json.Basic
import DerivedTags.Json.Depth
import DerivedTags.Json.Fields
import DerivedTags.Json.Parser
import DerivedTags.Json.Printer
import DerivedTags.Layer.Basic
import DerivedTags.Layer.Definition
import DerivedTags.Layer.Settings
import DerivedTags.Proofs.Decimal.Digits
import DerivedTags.Proofs.Decimal.NegativeZero
import DerivedTags.Proofs.Decimal.SmallIntegers
import DerivedTags.Proofs.Decimal.TotalOrder
import DerivedTags.Proofs.Feature.Asking
import DerivedTags.Proofs.Feature.BulkForcing
import DerivedTags.Proofs.Feature.Calm
import DerivedTags.Proofs.Feature.Encoding
import DerivedTags.Proofs.Feature.Forcing
import DerivedTags.Proofs.Feature.Nesting
import DerivedTags.Proofs.Feature.Outside
import DerivedTags.Proofs.Feature.Shown
import DerivedTags.Proofs.Feature.Twins
import DerivedTags.Proofs.Feature.UnderComputation
import DerivedTags.Proofs.Journal.Heedless
import DerivedTags.Proofs.Journal.Limits
import DerivedTags.Proofs.Journal.Lockstep
import DerivedTags.Proofs.Journal.Orderly
import DerivedTags.Proofs.Journal.Quiet
import DerivedTags.Proofs.Journal.Running
import DerivedTags.Proofs.Journal.Tally
import DerivedTags.Proofs.Json.DepthLimit
import DerivedTags.Proofs.Json.Members
import DerivedTags.Proofs.Json.RoundTrip
import DerivedTags.Proofs.Layer.WrittenForms
import DerivedTags.Proofs.Snippet.Acceptance
import DerivedTags.Proofs.Snippet.Arithmetic
import DerivedTags.Proofs.Snippet.Chains
import DerivedTags.Proofs.Snippet.Congruence
import DerivedTags.Proofs.Snippet.ConstantFolding
import DerivedTags.Proofs.Snippet.Conversion
import DerivedTags.Proofs.Snippet.Dependence
import DerivedTags.Proofs.Snippet.Encoders
import DerivedTags.Proofs.Snippet.EqualityKinds
import DerivedTags.Proofs.Snippet.ExactIntegers
import DerivedTags.Proofs.Snippet.FoldedConstants
import DerivedTags.Proofs.Snippet.FoldedSums
import DerivedTags.Proofs.Snippet.Grammar
import DerivedTags.Proofs.Snippet.JsonText
import DerivedTags.Proofs.Snippet.Levels
import DerivedTags.Proofs.Snippet.NamedBindings
import DerivedTags.Proofs.Snippet.Nodes
import DerivedTags.Proofs.Snippet.Overflow
import DerivedTags.Proofs.Snippet.ReaderComplete
import DerivedTags.Proofs.Snippet.ReaderSound
import DerivedTags.Proofs.Snippet.SmallSums
import DerivedTags.Proofs.Snippet.SplitAndJoin
import DerivedTags.Proofs.Snippet.TextPositions
import DerivedTags.Proofs.Snippet.WithinRange
import DerivedTags.Proofs.Snippet.WrittenTokens
import DerivedTags.Proofs.Tagging.AnyOrder
import DerivedTags.Proofs.Tagging.Batches
import DerivedTags.Proofs.Tagging.Changes
import DerivedTags.Proofs.Tagging.ClosestFeature
import DerivedTags.Proofs.Tagging.Containment
import DerivedTags.Proofs.Tagging.Discipline
import DerivedTags.Proofs.Tagging.EditsInAnyOrder
import DerivedTags.Proofs.Tagging.FirstDefinitions
import DerivedTags.Proofs.Tagging.ForcedReads
import DerivedTags.Proofs.Tagging.Idempotence
import DerivedTags.Proofs.Tagging.Leftovers
import DerivedTags.Proofs.Tagging.LocalFaults
import DerivedTags.Proofs.Tagging.Mending
import DerivedTags.Proofs.Tagging.NamedReads
import DerivedTags.Proofs.Tagging.Operations
import DerivedTags.Proofs.Tagging.OrderlyRuns
import DerivedTags.Proofs.Tagging.ReadBack
import DerivedTags.Proofs.Tagging.Rerunning
import DerivedTags.Proofs.Tagging.Runs
import DerivedTags.Proofs.Tagging.Settling
import DerivedTags.Proofs.Tagging.SideBySide
import DerivedTags.Proofs.Tagging.SourceTags
import DerivedTags.Proofs.Tagging.StandardSteps
import DerivedTags.Proofs.Tagging.SteadyTags
import DerivedTags.Proofs.Tagging.StrictAndLazy
import DerivedTags.Proofs.Tagging.StrictRuns
import DerivedTags.Proofs.Tagging.TagSteps
import DerivedTags.Proofs.Tagging.Telling
import DerivedTags.Proofs.Tagging.TextTags
import DerivedTags.Proofs.Tagging.Timeless
import DerivedTags.Proofs.Tagging.Turns
import DerivedTags.Proofs.Tagging.TwinReads
import DerivedTags.Proofs.Tagging.TwinRuns
import DerivedTags.Proofs.Tagging.Unforced
import DerivedTags.Proofs.Tagging.Upkeep
import DerivedTags.Proofs.Tagging.Visits
import DerivedTags.Proofs.Tagging.WholeFeature
import DerivedTags.Proofs.Tagging.Wishes
import DerivedTags.Snippet.Compiled
import DerivedTags.Snippet.Cut
import DerivedTags.Snippet.Equality
import DerivedTags.Snippet.Eval
import DerivedTags.Snippet.Expr
import DerivedTags.Snippet.Failure
import DerivedTags.Snippet.Fold
import DerivedTags.Snippet.FunctionTable
import DerivedTags.Snippet.Lexer
import DerivedTags.Snippet.Methods
import DerivedTags.Snippet.Scope
import DerivedTags.Snippet.Token
import DerivedTags.Snippet.Tree
import DerivedTags.Snippet.Value
import DerivedTags.Snippet.Whole
import DerivedTags.TagError
import DerivedTags.Tagging.Derivation
import DerivedTags.Tagging.FeatureMethods
import DerivedTags.Tagging.FeatureValue
import DerivedTags.Tagging.LayerTags
import DerivedTags.Tagging.Pass
import DerivedTags.Tagging.Standard
import DerivedTags.Tagging.Surroundings
import DerivedTags.Tagging.Tagger
import DerivedTags.Text.Blank
import DerivedTags.Text.Bytes
import DerivedTags.Text.Case
import DerivedTags.Text.CaseTable
import DerivedTags.Text.Letter
import DerivedTags.Text.LetterTable
import DerivedTags.Text.Quoted
import DerivedTags.Text.QuotedTable
import DerivedTags.Text.Search
import DerivedTags.Text.Units
