import Stocklist.Files
import Stocklist.Main
import Stocklist.Wire.Decode
import Stocklist.Proofs.Search.Paging
import Stocklist.Proofs.Catalog.Columns
import Stocklist.Proofs.Text.Utf8
import Stocklist.Proofs.Catalog.Rows
import Stocklist.Proofs.Catalog.FirstFailure
import Stocklist.Proofs.Csv.Written
import Stocklist.Proofs.Catalog.RoundTrip
import Stocklist.Proofs.Http.Parameters
import Stocklist.Proofs.Http.SearchAddress
import Stocklist.Proofs.Binary64.Rounding
import Stocklist.Proofs.Decimal.Rounding
import Stocklist.Proofs.Decimal.Shortest
import Stocklist.Proofs.Decimal.Notation
import Stocklist.Proofs.Json.Scale
import Stocklist.Proofs.Json.Number
import Stocklist.Proofs.Json.Text
import Stocklist.Proofs.Json.Value
import Stocklist.Proofs.Json.Float
import Stocklist.Proofs.Wire.RoundTrip
import Stocklist.Proofs.Http.AnyRequest
import Stocklist.Proofs.Settings.Values
import Stocklist.Proofs.Settings.Precedence
import Stocklist.Proofs.Search.Bounds
import Stocklist.Proofs.Search.Matching
import Stocklist.Proofs.Search.Range
import Stocklist.Proofs.Search.Pieces
import Stocklist.Proofs.Catalog.Remarks
import Stocklist.Proofs.Catalog.Header
import Stocklist.Proofs.Wire.Numbers
import Stocklist.Proofs.Catalog.Lines
import Stocklist.Proofs.Search.Case
import Stocklist.Proofs.Wire.Reload
import Stocklist.Proofs.Log.Messages
import Stocklist.Proofs.Settings.CommandLine
import Stocklist.Proofs.Settings.PageSize
import Stocklist.Proofs.Json.Grammar
import Stocklist.Proofs.Json.Token
import Stocklist.Proofs.Json.Reading
import Stocklist.Proofs.Json.Document
import Stocklist.Proofs.Wire.Outcome
import Stocklist.Proofs.Wire.Fields
import Stocklist.Proofs.Wire.Forms
import Stocklist.Proofs.Wire.Presentation
import Stocklist.Proofs.Http.Exchange
import Stocklist.Proofs.Startup
