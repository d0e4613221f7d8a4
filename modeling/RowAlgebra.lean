import RowAlgebra.Float64.Basic
import RowAlgebra.Float64.Rounding
import RowAlgebra.Float64.Arithmetic
import RowAlgebra.Float64.Decimal
import RowAlgebra.Value.Basic
import RowAlgebra.Value.Order
import RowAlgebra.Value.FieldType
import RowAlgebra.Like.Match
import RowAlgebra.Like.Escaper
import RowAlgebra.Row.Basic
import RowAlgebra.Row.Lemmas
import RowAlgebra.Event
import RowAlgebra.Filter.Basic
import RowAlgebra.Filter.Evaluation
import RowAlgebra.Update.Basic
import RowAlgebra.Update.Evaluation
import RowAlgebra.Select.Basic
import RowAlgebra.Select.Evaluation
import RowAlgebra.Text.Unprintable
import RowAlgebra.Text.Quoted
import RowAlgebra.Field
import RowAlgebra.Value.Widening
import RowAlgebra.Json.Error
import RowAlgebra.Json.Number
import RowAlgebra.Json.Text
import RowAlgebra.Json.Scalar
import RowAlgebra.Json.Reader
import RowAlgebra.Json.Writer
import RowAlgebra.Json.Typed
import RowAlgebra.Value.Wire
import RowAlgebra.Toml.Text
import RowAlgebra.Toml.Literal
import RowAlgebra.Toml.Document
import RowAlgebra.Toml.Reader
import RowAlgebra.Config
import RowAlgebra.Json.Codec
import RowAlgebra.Error
import RowAlgebra.Table
import RowAlgebra.Version
import RowAlgebra.Proofs.GreedyMatch
import RowAlgebra.Proofs.MatchTermination
import RowAlgebra.Proofs.UpdateInterpreter
import RowAlgebra.Proofs.ExactValue
import RowAlgebra.Proofs.SortOrder
import RowAlgebra.Proofs.Rounding
import RowAlgebra.Proofs.ShortestDecimal
import RowAlgebra.Proofs.ReaderRun
import RowAlgebra.Proofs.NumberLiteral
import RowAlgebra.Proofs.WrittenNumber
import RowAlgebra.Proofs.PlainValue
import RowAlgebra.Proofs.StringLiteral
import RowAlgebra.Proofs.JsonRoundTrip
import RowAlgebra.Proofs.StableSort
import RowAlgebra.Proofs.OptionFold
import RowAlgebra.Proofs.SelectionSlice
import RowAlgebra.Proofs.FilterBands
import RowAlgebra.Proofs.EscapedText
import RowAlgebra.Proofs.FragmentPatterns
import RowAlgebra.Proofs.EqualValues
import RowAlgebra.Proofs.FieldIndependence
import RowAlgebra.Proofs.SortComposition
import RowAlgebra.Proofs.PageTiling
import RowAlgebra.Proofs.ContentEncoding
import RowAlgebra.Proofs.ReadContents
import RowAlgebra.Proofs.BitPattern
import RowAlgebra.Proofs.SignedArithmetic
import RowAlgebra.Proofs.CanonicalFloat
import RowAlgebra.Proofs.StableDecoding
import RowAlgebra.Proofs.ExactOrder
import RowAlgebra.Proofs.ComparisonLaws
import RowAlgebra.Proofs.MembershipLaws
import RowAlgebra.Proofs.PatternComposition
import RowAlgebra.Proofs.NearestDouble
import RowAlgebra.Proofs.DigitTrace
import RowAlgebra.Proofs.LiteralValue
import RowAlgebra.Proofs.ForeignData
import RowAlgebra.Proofs.OptionReports
import RowAlgebra.Proofs.UpdateStep
import RowAlgebra.Proofs.EscapeLanguage
import RowAlgebra.Proofs.ConfiguredEscaper
import RowAlgebra.Proofs.MapKeys
import RowAlgebra.Proofs.PartialNumber
import RowAlgebra.Proofs.TruncatedText
