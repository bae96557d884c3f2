import TreeExtraction.Definition.Basic
import TreeExtraction.Definition.Builtin
import TreeExtraction.Definition.Library
import TreeExtraction.Definition.Selector
import TreeExtraction.Definition.Serialized
import TreeExtraction.Extraction.Pipeline
import TreeExtraction.Extraction.Run
import TreeExtraction.Extraction.Serialized
import TreeExtraction.Extraction.Spec
import TreeExtraction.Extraction.Stage
import TreeExtraction.Failure.Basic
import TreeExtraction.Failure.Cause
import TreeExtraction.Failure.Context
import TreeExtraction.Filter.Evaluation
import TreeExtraction.Filter.Operator
import TreeExtraction.Filter.Predicate
import TreeExtraction.Filter.Serialized
import TreeExtraction.Format.Rendering
import TreeExtraction.Format.Specifier
import TreeExtraction.Glob
import TreeExtraction.Icon.Baseline
import TreeExtraction.Icon.Pack
import TreeExtraction.Icon.Resolution
import TreeExtraction.Node.Basic
import TreeExtraction.Node.Conversion
import TreeExtraction.Node.FieldName
import TreeExtraction.Number.Arithmetic
import TreeExtraction.Number.Basic
import TreeExtraction.Number.Decimal
import TreeExtraction.Number.Notation
import TreeExtraction.Number.Power
import TreeExtraction.Number.Rounding
import TreeExtraction.Path.Evaluation
import TreeExtraction.Path.Reader
import TreeExtraction.Path.Step
import TreeExtraction.Pattern.Basic
import TreeExtraction.Pattern.Escape
import TreeExtraction.Pattern.Folding
import TreeExtraction.Pattern.GroupName
import TreeExtraction.Pattern.Matching
import TreeExtraction.Pattern.Modes
import TreeExtraction.Pattern.Reader
import TreeExtraction.Proofs.Definition.Builtin
import TreeExtraction.Proofs.Definition.Changes
import TreeExtraction.Proofs.Definition.FieldSet
import TreeExtraction.Proofs.Definition.Library
import TreeExtraction.Proofs.Definition.Merging
import TreeExtraction.Proofs.Definition.Reachable
import TreeExtraction.Proofs.Definition.RoundTrip
import TreeExtraction.Proofs.Extraction.Descent
import TreeExtraction.Proofs.Extraction.Factoring
import TreeExtraction.Proofs.Extraction.Failing
import TreeExtraction.Proofs.Extraction.RoundTrip
import TreeExtraction.Proofs.Extraction.Texts
import TreeExtraction.Proofs.Filter.Filtering
import TreeExtraction.Proofs.Filter.NormalForm
import TreeExtraction.Proofs.Filter.Ordering
import TreeExtraction.Proofs.Filter.Reading
import TreeExtraction.Proofs.Filter.RoundTrip
import TreeExtraction.Proofs.Filter.Safety
import TreeExtraction.Proofs.Format.General
import TreeExtraction.Proofs.Format.Grouping
import TreeExtraction.Proofs.Format.IntegerPart
import TreeExtraction.Proofs.Format.Layout
import TreeExtraction.Proofs.Format.Notations
import TreeExtraction.Proofs.Format.Padding
import TreeExtraction.Proofs.Format.Spelling
import TreeExtraction.Proofs.Glob.Expression
import TreeExtraction.Proofs.Glob.Language
import TreeExtraction.Proofs.Glob.Matching
import TreeExtraction.Proofs.Glob.Translation
import TreeExtraction.Proofs.Icon.Resolution
import TreeExtraction.Proofs.Icon.RoundTrip
import TreeExtraction.Proofs.Icon.Totality
import TreeExtraction.Proofs.Node.Agenda
import TreeExtraction.Proofs.Node.LineCounts
import TreeExtraction.Proofs.Node.Locality
import TreeExtraction.Proofs.Node.Output
import TreeExtraction.Proofs.Node.Pruning
import TreeExtraction.Proofs.Node.Reading
import TreeExtraction.Proofs.Node.Selection
import TreeExtraction.Proofs.Node.Termination
import TreeExtraction.Proofs.Number.Exact
import TreeExtraction.Proofs.Number.Nearest
import TreeExtraction.Proofs.Number.Notation
import TreeExtraction.Proofs.Number.Order
import TreeExtraction.Proofs.Number.Overflow
import TreeExtraction.Proofs.Number.Power
import TreeExtraction.Proofs.Number.Whole
import TreeExtraction.Proofs.Number.WholeText
import TreeExtraction.Proofs.Outcome
import TreeExtraction.Proofs.Path.Following
import TreeExtraction.Proofs.Path.Grammar
import TreeExtraction.Proofs.Path.Lookahead
import TreeExtraction.Proofs.Path.Positions
import TreeExtraction.Proofs.Path.Reading
import TreeExtraction.Proofs.Path.Writing
import TreeExtraction.Proofs.Schema.Reading
import TreeExtraction.Proofs.Schema.Standard
import TreeExtraction.Proofs.Template.Segments
import TreeExtraction.Proofs.Template.Substitution
import TreeExtraction.Proofs.Text.CodePoints
import TreeExtraction.Proofs.Text.LetterCase
import TreeExtraction.Proofs.Text.Lookup
import TreeExtraction.Proofs.Text.Numeral
import TreeExtraction.Proofs.Text.Order
import TreeExtraction.Proofs.Text.ReadingOrder
import TreeExtraction.Proofs.Text.Splitting
import TreeExtraction.Proofs.Text.Table
import TreeExtraction.Proofs.Transform.Conversion
import TreeExtraction.Proofs.Transform.Depth
import TreeExtraction.Proofs.Transform.Flattening
import TreeExtraction.Proofs.Transform.Numerals
import TreeExtraction.Proofs.Transform.Places
import TreeExtraction.Proofs.Transform.RoundTrip
import TreeExtraction.Proofs.Transform.Rounding
import TreeExtraction.Proofs.Transform.Tens
import TreeExtraction.Proofs.Transform.Truncation
import TreeExtraction.Proofs.Value.Access
import TreeExtraction.Proofs.Value.Copies
import TreeExtraction.Proofs.Value.Data
import TreeExtraction.Proofs.Value.Entries
import TreeExtraction.Proofs.Value.Equality
import TreeExtraction.Proofs.Value.Host
import TreeExtraction.Proofs.Value.Parts
import TreeExtraction.Proofs.Value.Rendering
import TreeExtraction.Proofs.Value.Texts
import TreeExtraction.Proofs.Value.WellFormed
import TreeExtraction.Sample
import TreeExtraction.Schema.Issue
import TreeExtraction.Schema.Lawful
import TreeExtraction.Schema.Standard
import TreeExtraction.Schema.Validator
import TreeExtraction.Template
import TreeExtraction.Text.Basic
import TreeExtraction.Text.Casing
import TreeExtraction.Text.CasingTable
import TreeExtraction.Text.Digits
import TreeExtraction.Text.Identifier
import TreeExtraction.Text.IdentifierTable
import TreeExtraction.Text.Quoted
import TreeExtraction.Text.Span
import TreeExtraction.Text.Table
import TreeExtraction.Transform.Application
import TreeExtraction.Transform.Basic
import TreeExtraction.Transform.Collection
import TreeExtraction.Transform.Conversion
import TreeExtraction.Transform.Name
import TreeExtraction.Transform.Rounding
import TreeExtraction.Transform.Serialized
import TreeExtraction.Transform.Text
import TreeExtraction.Value.Access
import TreeExtraction.Value.Basic
import TreeExtraction.Value.Date
import TreeExtraction.Value.Depth
import TreeExtraction.Value.Equality
import TreeExtraction.Value.Host
import TreeExtraction.Value.Inherited
import TreeExtraction.Value.Json
import TreeExtraction.Value.Rendering
import TreeExtraction.Value.SampleHost
