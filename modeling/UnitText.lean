import UnitText.Argument.Basic
import UnitText.Argument.Suits
import UnitText.Argument.Text
import UnitText.CodePoint
import UnitText.Command.Arguments
import UnitText.Command.Request
import UnitText.Command.Run
import UnitText.Context
import UnitText.Encoding.Utf16
import UnitText.Encoding.Utf8
import UnitText.Failure
import UnitText.Failure.Problem
import UnitText.Failure.TypeFault
import UnitText.Failure.ValueFault
import UnitText.Format.Field
import UnitText.Format.Float
import UnitText.Format.Integer
import UnitText.Format.Run
import UnitText.Format.Text
import UnitText.Main
import UnitText.Number.BinaryFormat
import UnitText.Number.Bytes
import UnitText.Number.Decimal
import UnitText.Number.Digits
import UnitText.Number.Double
import UnitText.Number.Figures
import UnitText.Number.HexFigures
import UnitText.Number.Shortest
import UnitText.Numeral.Basic
import UnitText.Numeral.DecimalText
import UnitText.Numeral.Digits
import UnitText.Numeral.Literal
import UnitText.Numeral.Parse
import UnitText.Numeral.Styles
import UnitText.Numeral.Word
import UnitText.Quote
import UnitText.Template.Scan
import UnitText.Template.Specifier
import UnitText.Text.Basic
import UnitText.Text.Case
import UnitText.Text.Coding
import UnitText.Text.Search
import UnitText.Text.Split
import UnitText.Unicode
import UnitText.Value.Basic
import UnitText.Value.Calendar
import UnitText.Value.Currency
import UnitText.Value.Domain
import UnitText.Value.Duration
import UnitText.Value.Enumeration
import UnitText.Value.Family
import UnitText.Value.Layout
import UnitText.Value.Machine
import UnitText.Value.Notation
import UnitText.Value.Number
import UnitText.Value.Piece
import UnitText.Value.Quoted
import UnitText.Value.Sequence
import UnitText.Value.Split
import UnitText.Value.Units
import UnitText.Width
import UnitText.Proofs.Command.Ending
import UnitText.Proofs.Encoding.Utf16
import UnitText.Proofs.Encoding.Utf8
import UnitText.Proofs.Encoding.Width
import UnitText.Proofs.Encoding.Truncation
import UnitText.Proofs.Encoding.RoundTrip
import UnitText.Proofs.Format.Fits
import UnitText.Proofs.Format.Place
import UnitText.Proofs.Run.Actions
import UnitText.Proofs.Run.Concatenation
import UnitText.Proofs.Run.Counting
import UnitText.Proofs.Template.Tokens
import UnitText.Proofs.Format.Failures
import UnitText.Proofs.Format.Fill
import UnitText.Proofs.Format.Padding
import UnitText.Proofs.Format.Restate
import UnitText.Proofs.Format.Shape
import UnitText.Proofs.Format.Truncation
import UnitText.Proofs.Value.Machine
import UnitText.Proofs.Run.Encoding
import UnitText.Proofs.Run.Alike
import UnitText.Proofs.Run.Decimals
import UnitText.Proofs.Run.DefaultTexts
import UnitText.Proofs.Run.GeneralForm
import UnitText.Proofs.Run.ReadBack
import UnitText.Proofs.Run.Stars
import UnitText.Proofs.Run.Again
import UnitText.Proofs.Run.Arguments
import UnitText.Proofs.Run.FirstError
import UnitText.Proofs.Run.Refusals
import UnitText.Proofs.Run.Escaped
import UnitText.Proofs.Run.Widths
import UnitText.Proofs.Template.Canonical
import UnitText.Proofs.Numeral.Exact
import UnitText.Proofs.Text.Case
import UnitText.Proofs.Text.Comparison
import UnitText.Proofs.Text.Decoded
import UnitText.Proofs.Text.EmptyItems
import UnitText.Proofs.Text.Search
import UnitText.Proofs.Text.Split
import UnitText.Proofs.Number.Decimal
import UnitText.Proofs.Number.NearestDouble
import UnitText.Proofs.Number.Shortest
import UnitText.Proofs.Numeral.Decimal
import UnitText.Proofs.Numeral.Figures
import UnitText.Proofs.Numeral.HexFigures
import UnitText.Proofs.Numeral.MostSpecific
import UnitText.Proofs.Numeral.Outcome
import UnitText.Proofs.Numeral.Styles
import UnitText.Proofs.Value.Currency
import UnitText.Proofs.Value.DefaultText
import UnitText.Proofs.Value.Duration
