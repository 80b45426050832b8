import ReportQuery.Main
import ReportQuery.Options.Encoding
import ReportQuery.Parameter.Stored
import ReportQuery.Proofs.Query.JoinTree
import ReportQuery.Proofs.Query.JoinResolution
import ReportQuery.Proofs.Text.Quoted
import ReportQuery.Proofs.Query.CompiledNames
import ReportQuery.Proofs.Query.SafeText
import ReportQuery.Proofs.Sql.BlockPass
import ReportQuery.Proofs.Sql.DottedScan
import ReportQuery.Proofs.Sql.Lexer
import ReportQuery.Proofs.Sql.LinePass
import ReportQuery.Proofs.Sql.PassedLiteral
import ReportQuery.Proofs.Sql.QuotePass
import ReportQuery.Proofs.Sql.SchemaBoundary
import ReportQuery.Proofs.Sql.Stages
import ReportQuery.Proofs.Sql.Stripping
import ReportQuery.Proofs.Query.Aliases
import ReportQuery.Proofs.Query.CodeText
import ReportQuery.Proofs.Query.Placeholders
import ReportQuery.Proofs.Parameter.Binding
import ReportQuery.Proofs.Sql.WordPlace
import ReportQuery.Proofs.Query.PlainToken
import ReportQuery.Proofs.Query.Acceptance
import ReportQuery.Proofs.Json.WrittenText
import ReportQuery.Proofs.Json.RoundTrip
import ReportQuery.Proofs.Text.UpperCase
import ReportQuery.Proofs.Query.NormalForm
import ReportQuery.Proofs.Query.StoredForm
import ReportQuery.Proofs.Schema.WellFormed
import ReportQuery.Proofs.Execution.Custody
import ReportQuery.Proofs.Schema.Listing
import ReportQuery.Proofs.Query.MetadataQuery
import ReportQuery.Proofs.Query.JoinOrder
import ReportQuery.Proofs.Query.Renumbering
import ReportQuery.Proofs.Query.SelectionOrder
import ReportQuery.Proofs.Execution.Outcome
import ReportQuery.Proofs.Execution.Batches
import ReportQuery.Proofs.Query.ColumnNames
import ReportQuery.Proofs.Execution.Records
import ReportQuery.Proofs.Schema.SingleFlight
import ReportQuery.Proofs.Sql.Symbol
import ReportQuery.Proofs.Sql.OutsideGroups
import ReportQuery.Proofs.Sql.RowCeiling
import ReportQuery.Proofs.Sql.SingleSelect
import ReportQuery.Proofs.Sql.WordSearch
import ReportQuery.Proofs.Text.Places
import ReportQuery.Proofs.Sql.Edits
import ReportQuery.Proofs.Sql.FoundBinds
import ReportQuery.Proofs.Sql.CodePlaceholders
import ReportQuery.Proofs.Parameter.StoredList
import ReportQuery.Proofs.Schema.ListingOrder
import ReportQuery.Proofs.Sql.FoundWord
import ReportQuery.Proofs.Query.CompiledCeiling
import ReportQuery.Proofs.Json.Grammar
import ReportQuery.Proofs.Json.Complete
import ReportQuery.Proofs.Json.TokenEnd
import ReportQuery.Proofs.Json.Pieces
import ReportQuery.Proofs.Json.LongInteger
import ReportQuery.Proofs.Json.Limits
import ReportQuery.Proofs.Parameter.LenientList
import ReportQuery.Proofs.Sql.SentPlaceholders
import ReportQuery.Proofs.Parameter.Respelling
import ReportQuery.Proofs.Command.DeclaredTypes
import ReportQuery.Proofs.Query.RowGroups
import ReportQuery.Proofs.Execution.Containment
import ReportQuery.Proofs.Text.Digits
import ReportQuery.Proofs.Parameter.DecimalText
import ReportQuery.Proofs.Parameter.DayText
import ReportQuery.Proofs.Parameter.CanonicalText
import ReportQuery.Proofs.Sql.Nesting
import ReportQuery.Proofs.Sql.Restoring
import ReportQuery.Proofs.Sql.QuotedParts
import ReportQuery.Proofs.Sql.RestoredParts
import ReportQuery.Proofs.Sql.QuotedPlaces
import ReportQuery.Proofs.Sql.IndexScan
