import Tariff.Batch
import Tariff.Catalog.Check
import Tariff.Console.Check
import Tariff.Console.Explain
import Tariff.Console.Price
import Tariff.Console.Serve
import Tariff.Csv.Table
import Tariff.Csv.Writer
import Tariff.Identifier
import Tariff.Json.Reader
import Tariff.Json.Writer
import Tariff.Main
import Tariff.Pricing
import Tariff.Proofs.Dependencies
import Tariff.Proofs.Expression.Acceptance
import Tariff.Proofs.Expression.Composition
import Tariff.Proofs.HiddenAnswers
import Tariff.Proofs.OrderedMap
import Tariff.Proofs.Pricing
import Tariff.Proofs.Tokens
import Tariff.Proofs.Validation
import Tariff.Quote
import Tariff.Service.Respond
import Tariff.Settings
import Tariff.Proofs.Reordering
import Tariff.Proofs.Expression.Exchange
import Tariff.Proofs.Expression.Filling
import Tariff.Proofs.CleanReport
import Tariff.Proofs.PlainPrice
import Tariff.Proofs.Identifier
import Tariff.Proofs.Suggestion
import Tariff.Proofs.Catalog
import Tariff.Proofs.Batch
import Tariff.Proofs.Sharing
import Tariff.Proofs.Quote
import Tariff.Proofs.QuoteOrder
import Tariff.Proofs.HiddenConnections
import Tariff.Proofs.Expression.Renaming
import Tariff.Proofs.Renaming
import Tariff.Proofs.Expression.WholeWords
import Tariff.Proofs.Expression.Binding
import Tariff.Proofs.Expression.NumberBounds
import Tariff.Proofs.Shape
import Tariff.Proofs.Numeral.Binary64
import Tariff.Proofs.Sending
import Tariff.Proofs.Service
import Tariff.Proofs.Choices
import Tariff.Proofs.Operands
import Tariff.Proofs.Numeral.Rational
import Tariff.Proofs.Numeral.Fitting
import Tariff.Proofs.Rounding
import Tariff.Proofs.WholeNumbers
import Tariff.Proofs.Expression.Signals
import Tariff.Proofs.Rearranging
import Tariff.Proofs.Numeral.Exactness
import Tariff.Proofs.Expression.Exactness
import Tariff.Proofs.Numeral.WholeBinary64
import Tariff.Proofs.LoneToken
import Tariff.Proofs.TypedNumbers
import Tariff.Proofs.FiniteContributions
import Tariff.Proofs.Numeral.Shortest
import Tariff.Proofs.Expression.NumberTexts
import Tariff.Proofs.Boxes
import Tariff.Proofs.NumericConditions
import Tariff.Proofs.Causality
import Tariff.Proofs.PriceRange
import Tariff.Proofs.Fallbacks
import Tariff.Proofs.Expression.Scanning
import Tariff.Proofs.Expression.PlainRuns
import Tariff.Proofs.GeneratedIds
import Tariff.Proofs.SuggestedIds
import Tariff.Proofs.Sessions
import Tariff.Proofs.BatchTotal
import Tariff.Proofs.FreshIds
import Tariff.Proofs.OfferedConditions
import Tariff.Proofs.SoundCatalogs
import Tariff.Proofs.JoinedOptions
import Tariff.Proofs.GivenAnswers
