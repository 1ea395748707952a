import Licensing.BundleHeader
import Licensing.Bundled.Entry
import Licensing.Bundled.Exceptions
import Licensing.Bundled.Licenses
import Licensing.Bundled.Versions
import Licensing.Classification
import Licensing.CommandLine.Arguments
import Licensing.CommandLine.Grid
import Licensing.CommandLine.Request
import Licensing.CommandLine.Screen
import Licensing.CommandLine.Session
import Licensing.Compatibility
import Licensing.Decimal.Binary
import Licensing.Decimal.Fixed
import Licensing.Decimal.Shortest
import Licensing.Document.Datum
import Licensing.Document.Json
import Licensing.Document.Toml
import Licensing.Document.Toml.Editor
import Licensing.Document.Toml.Sections
import Licensing.Engine
import Licensing.Equivalence.Expand
import Licensing.Equivalence.Table
import Licensing.Equivalence.Versions
import Licensing.Equivalence.Walk
import Licensing.Event
import Licensing.Expression.Basic
import Licensing.Expression.Build
import Licensing.Expression.Order
import Licensing.Failure
import Licensing.Files.Basic
import Licensing.Files.Path
import Licensing.Grammar.Fault
import Licensing.Grammar.Parse
import Licensing.Grammar.Postfix
import Licensing.Grammar.Token
import Licensing.Main
import Licensing.Named
import Licensing.Normalization.Guess
import Licensing.Normalization.Structural
import Licensing.Policy.Basic
import Licensing.Policy.Rule
import Licensing.Policy.Verdict
import Licensing.Proofs.Descent
import Licensing.Proofs.Expression.Algebra
import Licensing.Proofs.Expression.Nodes
import Licensing.Proofs.Grammar.Derivation
import Licensing.Registry.Basic
import Licensing.Registry.Defect
import Licensing.Registry.Load
import Licensing.Reporting
import Licensing.Settings.Basic
import Licensing.Settings.Defect
import Licensing.Settings.Edit
import Licensing.Similarity.Corpus
import Licensing.Similarity.Model
import Licensing.Similarity.Ranking
import Licensing.Similarity.Scalar
import Licensing.Similarity.Stored
import Licensing.SortedSet
import Licensing.Terms.Spelling
import Licensing.Terms.Words
import Licensing.Text.Alphanumeric
import Licensing.Text.Blank
import Licensing.Text.CodePoints
import Licensing.Text.Integer
import Licensing.Text.Lowercase
import Licensing.Text.Printable
import Licensing.Text.Quoted
import Licensing.Text.Raw
import Licensing.Text.Width
import Licensing.Uri
import Licensing.Proofs.Grammar.Scanning
import Licensing.Proofs.Grammar.Printing
import Licensing.Proofs.Grammar.RoundTrip
import Licensing.Proofs.Grammar.Lexeme
import Licensing.Proofs.Equivalence.Run
import Licensing.Proofs.Equivalence.Nesting
import Licensing.Proofs.Equivalence.Bounds
import Licensing.Proofs.Equivalence.Termination
import Licensing.Proofs.Equivalence.Closure
import Licensing.Proofs.Equivalence.Idempotence
import Licensing.Proofs.Equivalence.SimpleTables
import Licensing.Proofs.Equivalence.Distribution
import Licensing.Proofs.Equivalence.Locality
import Licensing.Proofs.Compatibility.Evaluation
import Licensing.Proofs.Compatibility.Monotonicity
import Licensing.Proofs.Compatibility.Coverage
import Licensing.Proofs.Compatibility.Lattice
import Licensing.Proofs.Compatibility.Justification
import Licensing.Proofs.Compatibility.Conclusion
import Licensing.Proofs.Compatibility.Termination
import Licensing.Proofs.Grammar.Phrase
import Licensing.Proofs.Grammar.Sentence
import Licensing.Proofs.Grammar.Runs
import Licensing.Proofs.Grammar.Acceptance
import Licensing.Proofs.Equivalence.VersionTable
import Licensing.Proofs.Equivalence.VersionRanges
import Licensing.Proofs.Expression.Enumeration
import Licensing.Proofs.Compatibility.Enumeration
import Licensing.Proofs.Compatibility.Expansion
import Licensing.Proofs.Compatibility.Extension
import Licensing.Proofs.Equivalence.Overlay
import Licensing.Proofs.Equivalence.Union
import Licensing.Proofs.Engine.EquivalenceRules
import Licensing.Proofs.Similarity.Corpus
import Licensing.Proofs.Similarity.Numbers
import Licensing.Proofs.Similarity.Training
import Licensing.Proofs.Engine.Bundled
import Licensing.Proofs.Lookup
import Licensing.Proofs.Expression.Semilattice
import Licensing.Proofs.Compatibility.Partition
import Licensing.Proofs.Registry.Identifiers
import Licensing.Proofs.Normalization.Structural
import Licensing.Proofs.Normalization.Guessing
import Licensing.Proofs.Normalization.Joining
import Licensing.Proofs.Normalization.Remainder
import Licensing.Proofs.Normalization.Strictness
import Licensing.Proofs.Document.Written
import Licensing.Proofs.Document.Lines
import Licensing.Proofs.Document.Appending
import Licensing.Proofs.Files.Writing
import Licensing.Proofs.Settings.Extending
import Licensing.Proofs.Engine.Checking
import Licensing.Proofs.Engine.Rewriting
import Licensing.Proofs.CommandLine.Runs
import Licensing.Proofs.CommandLine.Adding
import Licensing.Proofs.Grammar.Layout
import Licensing.Proofs.Grammar.Safety
import Licensing.Proofs.Grammar.Composition
import Licensing.Proofs.Compatibility.Reasons
import Licensing.Proofs.Normalization.Monotonicity
import Licensing.Proofs.Uri.Likeness
import Licensing.Proofs.Uri.Variants
import Licensing.Proofs.Document.Keys
import Licensing.Proofs.Registry.Entries
import Licensing.Proofs.Registry.Merging
import Licensing.Proofs.Registry.Loading
import Licensing.Proofs.Policy.Registering
import Licensing.Proofs.Similarity.Vectors
import Licensing.Proofs.Similarity.Weighing
import Licensing.Proofs.Similarity.Scores
import Licensing.Proofs.Document.Kinds
import Licensing.Proofs.Pairing
import Licensing.Proofs.Settings.Entries
import Licensing.Proofs.Settings.Defects
import Licensing.Proofs.Text.Blank
import Licensing.Proofs.Text.Raw
import Licensing.Proofs.Terms.Spacing
import Licensing.Proofs.Terms.Respelling
import Licensing.Proofs.Terms.Phrases
import Licensing.Proofs.Sorting
import Licensing.Proofs.Similarity.Selection
import Licensing.Proofs.Similarity.Storing
import Licensing.Proofs.Classification
import Licensing.Proofs.Grammar.Arrangement
