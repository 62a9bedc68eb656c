import Formulae.Text.Blank
import Formulae.Text.Search
import Formulae.Text.Letter
import Formulae.Text.CaseTable
import Formulae.Text.Case
import Formulae.Number.Double
import Formulae.Number.Decimal
import Formulae.Number.RoundingMode
import Formulae.Number.Reading
import Formulae.Number.Shortest
import Formulae.Number.Layout
import Formulae.Number.Tolerance
import Formulae.Number.Rounding
import Formulae.Calendar.Date
import Formulae.Calendar.Instant
import Formulae.Calendar.Moment
import Formulae.Calendar.Pattern
import Formulae.Error
import Formulae.Grammar.Token
import Formulae.Grammar.Cursor
import Formulae.Grammar.Arguments
import Formulae.Function.Builtin
import Formulae.Function.Named
import Formulae.Grammar.Outline
import Formulae.Grammar.Numeric
import Formulae.Grammar.Textual
import Formulae.Range
import Formulae.Provider
import Formulae.Evaluation.Run
import Formulae.Evaluation.Program
import Formulae.Evaluation.Call
import Formulae.Evaluation.Logic
import Formulae.Evaluation.Texts
import Formulae.Evaluation.Aggregate
import Formulae.Evaluation.Dates
import Formulae.Evaluation.Dispatch
import Formulae.Evaluation.Tree
import Formulae.Evaluation.Engine
import Formulae.Evaluation.Calculate
import Formulae.Session
import Formulae.Proofs.Grammar.Stream
import Formulae.Proofs.Grammar.Derivation
import Formulae.Proofs.Grammar.Locality
import Formulae.Proofs.Grammar.Acceptance
import Formulae.Proofs.Grammar.Confinement
import Formulae.Proofs.Grammar.Extent
import Formulae.Proofs.Grammar.Progress
import Formulae.Proofs.Evaluation.Settling
import Formulae.Proofs.Evaluation.NumericGrammar
import Formulae.Proofs.Evaluation.Steps
import Formulae.Proofs.Evaluation.Strictness
import Formulae.Proofs.Evaluation.Registration
import Formulae.Proofs.Evaluation.Raising
import Formulae.Proofs.Number.Whole
import Formulae.Proofs.Calendar.Days
import Formulae.Proofs.Calendar.Moments
import Formulae.Proofs.Calendar.Hours
import Formulae.Proofs.Grammar.Splitting
import Formulae.Proofs.Grammar.Reading
import Formulae.Proofs.Grammar.WellFormed
import Formulae.Proofs.Grammar.Agreement
import Formulae.Proofs.Evaluation.Cleaning
import Formulae.Proofs.Grammar.Written
import Formulae.Proofs.Evaluation.WrittenCalls
import Formulae.Proofs.Evaluation.Placement
import Formulae.Proofs.Evaluation.Composition
import Formulae.Proofs.Evaluation.InPlace
import Formulae.Proofs.Evaluation.Untaken
import Formulae.Proofs.Evaluation.Duality
import Formulae.Proofs.Evaluation.ReadingBack
import Formulae.Proofs.Evaluation.Containment
import Formulae.Proofs.Evaluation.Alone
import Formulae.Proofs.Evaluation.Declining
import Formulae.Proofs.Grammar.Likeness
import Formulae.Proofs.Grammar.Sequencing
import Formulae.Proofs.Evaluation.Succession
import Formulae.Proofs.Grammar.TextDerivation
import Formulae.Proofs.Evaluation.TextGrammar
import Formulae.Proofs.Number.Digits
import Formulae.Proofs.Calendar.WrittenDates
import Formulae.Proofs.Calendar.Moving
import Formulae.Proofs.Number.RoundingLimits
import Formulae.Proofs.Evaluation.Overflow
import Formulae.Proofs.Number.Bits
import Formulae.Proofs.Number.Covering
import Formulae.Proofs.Number.NearestDouble
import Formulae.Proofs.Number.ShortestDigits
import Formulae.Proofs.Number.RoundingModes
import Formulae.Proofs.Number.ExactRounding
import Formulae.Proofs.Number.WrittenDecimals
import Formulae.Proofs.Evaluation.ThroughText
import Formulae.Proofs.Evaluation.Joining
import Formulae.Proofs.Evaluation.Unasked
import Formulae.Proofs.Evaluation.Quoting
import Formulae.Proofs.Grammar.Matching
import Formulae.Proofs.Grammar.Summands
import Formulae.Proofs.Evaluation.Concatenations
import Formulae.Proofs.Text.LetterCase
import Formulae.Proofs.Grammar.CaseFolding
import Formulae.Proofs.Grammar.FoldedTrees
import Formulae.Proofs.Evaluation.AnyCase
import Formulae.Proofs.Grammar.Occurrence
import Formulae.Proofs.Evaluation.Precision
import Formulae.Proofs.Evaluation.Ranges
import Formulae.Proofs.Calendar.CivilTime
import Formulae.Proofs.Calendar.Navigation
import Formulae.Proofs.Grammar.Words
import Formulae.Proofs.Grammar.Rendering
import Formulae.Proofs.Grammar.Spacing
import Formulae.Proofs.Grammar.Pieces
import Formulae.Proofs.Evaluation.UserFunctions
import Formulae.Proofs.Number.Signs
import Formulae.Proofs.Text.Order
import Formulae.Proofs.Evaluation.Comparisons
import Formulae.Proofs.Evaluation.Slices
import Formulae.Proofs.Calendar.Directives
import Formulae.Proofs.Evaluation.Replication
import Formulae.Proofs.Text.FirstOccurrence
import Formulae.Proofs.Evaluation.Positions
import Formulae.Proofs.Number.Order
import Formulae.Proofs.Number.Tolerances
import Formulae.Proofs.Number.TolerantOrder
import Formulae.Proofs.Evaluation.Extremes
import Formulae.Proofs.Text.Boundaries
import Formulae.Proofs.Grammar.Offsets
import Formulae.Proofs.Grammar.Cutting
import Formulae.Proofs.Evaluation.Offsets
import Formulae.Proofs.Grammar.Tiling
import Formulae.Proofs.Evaluation.Arities
import Formulae.Proofs.Evaluation.Keywords
