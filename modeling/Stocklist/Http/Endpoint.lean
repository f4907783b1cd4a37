/-
  Stocklist/Http/Endpoint.lean
  ============================
  **Search over HTTP.**

  Every well-formed request gets the page that its query asks for, as JSON, whatever its
  method and its path.  Front ends of any origin may read the response.  A page that
  cannot be written gets an error response instead.
-/
import Stocklist.Http.Message
import Stocklist.Http.Parameters
import Stocklist.Json.Fault
import Stocklist.Log
import Stocklist.Text.Quoted
import Stocklist.Wire.Encode

namespace Stocklist.Http

def contentType : String := "application/json"

def reporter : String := "catalog_search::search::handlers"

def searchEntry (q : Query) (page : ResultPage) : Log.Entry :=
  ⟨.debug, reporter,
    s!"Query {Text.quoted q.text} page {q.page.toInt}: {page.count.toNat} matches, " ++
      s!"showing {page.rangeLeft.toNat}-{page.rangeRight.toNat}"⟩

def pageResponse (page : ResultPage) : Response :=
  let body := String.ofList (Wire.pageText page)
  { status := 200
    headers := [
      ("access-control-allow-origin", "*"),
      ("content-length", toString body.utf8ByteSize),
      ("content-type", contentType)]
    body }

def Request.query (r : Request) : Query :=
  Query.ofPairs (parameters r.uri.query)

/-- The response to a request, with `size` items to a page, and the report on it. -/
def respond (c : Catalog) (size : UInt64) (r : Request) : Response × Log.Entry :=
  let page := c.search r.query size
  (pageResponse page, searchEntry r.query page)

/-- A request as it is made, in words, with a body that nobody reads. -/
structure Submission where
  method : String
  uri : String
  body : List UInt8
deriving DecidableEq, Repr

/-- The response to a submission and the report on it, unless it is no request. -/
def Submission.answer? (c : Catalog) (size : UInt64) (s : Submission) :
    Option (Response × Log.Entry) :=
  (Request.ofTexts? s.method s.uri).map (respond c size)

/-! ### Failure -/

inductive SearchError where
  /-- The page has no JSON text; a fault is placed in the text that was written. -/
  | unwritable (fault : Json.Fault) (text : List Char)
deriving DecidableEq, Repr

namespace SearchError

def message : SearchError → String
  | unwritable fault text => s!"failed to serialize search results: {fault.message text}"

def response (e : SearchError) : Response :=
  let body := String.ofList (Wire.objectText [("error", Wire.stringText e.message)])
  { status := 500
    headers := [
      ("access-control-allow-origin", "*"),
      ("content-length", toString body.utf8ByteSize),
      ("content-type", contentType)]
    body }

def entry (e : SearchError) : Log.Entry :=
  ⟨.error, reporter, s!"Search request failed: {e.message}"⟩

end SearchError

end Stocklist.Http
