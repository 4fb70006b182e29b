import MediaCatalog.CommandLine.Run
import MediaCatalog.Main
import MediaCatalog.Proofs.Outcomes
import MediaCatalog.Proofs.Query.LexerEquations
import MediaCatalog.Proofs.Query.TokenOrder
import MediaCatalog.Proofs.Query.ParserEquations
import MediaCatalog.Proofs.Query.ParserCompleteness
import MediaCatalog.Proofs.Query.ParserSoundness
import MediaCatalog.Proofs.Query.Acceptance
import MediaCatalog.Proofs.Query.Juxtaposition
import MediaCatalog.Proofs.Query.Quoting
import MediaCatalog.Proofs.Query.Written
import MediaCatalog.Proofs.Calendar.WrittenRead
import MediaCatalog.Proofs.Search.Paging
import MediaCatalog.Proofs.Search.StableSort
import MediaCatalog.Proofs.Catalog.Rows
import MediaCatalog.Proofs.Catalog.Reachable
import MediaCatalog.Proofs.Catalog.Listing
import MediaCatalog.Proofs.Search.Scanning
import MediaCatalog.Proofs.Query.Parentheses
import MediaCatalog.Proofs.Catalog.Lookup
import MediaCatalog.Proofs.Catalog.Records
import MediaCatalog.Proofs.Catalog.Refinement
import MediaCatalog.Proofs.Calendar.Years
import MediaCatalog.Proofs.Catalog.Tally
import MediaCatalog.Proofs.Catalog.Interleaving
import MediaCatalog.Proofs.Search.Years
import MediaCatalog.Proofs.Catalog.Transactions
import MediaCatalog.Proofs.Catalog.Integrity
import MediaCatalog.Proofs.Text.Lowercase
import MediaCatalog.Proofs.Search.Tags
import MediaCatalog.Proofs.Calendar.Instants
import MediaCatalog.Proofs.Search.Stored
import MediaCatalog.Proofs.Intake.Keys
import MediaCatalog.Proofs.Intake.Deduplication
import MediaCatalog.Proofs.Query.Spans
import MediaCatalog.Proofs.Query.TokenCount
import MediaCatalog.Proofs.Query.Draining
import MediaCatalog.Proofs.Query.ParserCalls
import MediaCatalog.Proofs.Query.CursorCalls
import MediaCatalog.Proofs.Query.Lookahead
import MediaCatalog.Proofs.Query.Agreement
import MediaCatalog.Proofs.CommandLine.QueryArgument
import MediaCatalog.Proofs.Query.Lexing
import MediaCatalog.Proofs.Query.Concatenation
import MediaCatalog.Proofs.Query.ArgumentValues
import MediaCatalog.Proofs.Query.QuotedArguments
import MediaCatalog.Proofs.Query.Padding
import MediaCatalog.Proofs.Search.Padding
import MediaCatalog.Proofs.Query.UnclosedQuotes
import MediaCatalog.Proofs.Query.OpenGroups
import MediaCatalog.Proofs.Query.ParenthesisErrors
import MediaCatalog.Proofs.Catalog.Atomicity
import MediaCatalog.Proofs.Catalog.ForeignKeys
import MediaCatalog.Proofs.Catalog.Statistics
import MediaCatalog.Proofs.Search.SortCriteria
import MediaCatalog.Proofs.Calendar.WrittenOrder
import MediaCatalog.Proofs.Catalog.StoredDates
import MediaCatalog.Proofs.Search.WrittenDates
import MediaCatalog.Proofs.Text.Pieces
import MediaCatalog.Proofs.Asset.WrittenPlaces
import MediaCatalog.Proofs.Asset.RereadPlaces
import MediaCatalog.Proofs.Files.Listings
import MediaCatalog.Proofs.Files.Ties
import MediaCatalog.Proofs.Intake.Listings
import MediaCatalog.Proofs.Search.Places
import MediaCatalog.Proofs.CommandLine.SkipFile
import MediaCatalog.Proofs.Intake.CaptureDates
import MediaCatalog.Proofs.Text.Csv
