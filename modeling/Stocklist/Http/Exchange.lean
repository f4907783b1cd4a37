/-
  Stocklist/Http/Exchange.lean
  ============================
  **One request and one response on a connection.**

  A connection carries one request.  Its head ends with an empty line; only the first line
  of the head counts, and nothing after the head is read.  The response says that the
  connection closes, and a request for the head alone gets the same head without the body.
-/
import Stocklist.Http.Endpoint

namespace Stocklist.Http

/-! ### Requests -/

/-- The lines of a head, each ended by return and line feed, before the empty one.  Bytes
    that hold no complete head have none. -/
def headLines? (bytes : List UInt8) : Option (List (List UInt8)) :=
  let lines := Text.parts 0x0A bytes
  let ended := lines.dropLast.map fun line =>
    if line.getLast? = some 0x0D then line.dropLast else line
  if ended.any (·.isEmpty) then some (ended.takeWhile (!·.isEmpty)) else none

/-- The versions in which a request may be made. -/
def versions : List String := ["HTTP/1.1", "HTTP/1.0"]

/-- The request that the first line of a head makes. -/
def Request.ofLine? (line : List UInt8) : Option Request := do
  let words := Text.parts ' ' (← Utf8.decode? line)
  match words.map String.ofList with
  | [method, uri, version] =>
    if versions.contains version then Request.ofTexts? method uri else none
  | _ => none

/-! ### Responses -/

namespace Response

def reason (status : Nat) : String :=
  match status with
  | 200 => "OK"
  | 400 => "Bad Request"
  | 500 => "Internal Server Error"
  | _ => ""

def statusLine (r : Response) : String :=
  s!"HTTP/1.1 {r.status} {reason r.status}"

def addHeader (r : Response) (name value : String) : Response :=
  let isBefore := fun (header : String × String) => header.1 < name
  { r with
    headers := r.headers.takeWhile isBefore ++ (name, value) :: r.headers.dropWhile isBefore }

def closing (r : Response) : Response :=
  r.addHeader "connection" "close"

/-- The response to a method; one that asks for the head alone gets no body. -/
def forMethod (r : Response) (method : Method) : Response :=
  if method.name = "HEAD" then { r with body := "" } else r

def text (r : Response) : String :=
  let lines := r.statusLine :: r.headers.map fun (name, value) => s!"{name}: {value}"
  String.join (lines.map (· ++ "\r\n")) ++ "\r\n" ++ r.body

def malformed : Response :=
  ⟨400, [("content-length", "0")], ""⟩

end Response

/-- The response to the bytes of a connection, with reports, or nothing as long as they
    hold no complete head. -/
def answer? (c : Catalog) (size : UInt64) (bytes : List UInt8) :
    Option (Response × List Log.Entry) := do
  match ← headLines? bytes with
  | [] => some (.closing .malformed, [])
  | line :: _ =>
    match Request.ofLine? line with
    | none => some (.closing .malformed, [])
    | some request =>
      let (response, entry) := respond c size request
      some ((response.forMethod request.method).closing, [entry])

end Stocklist.Http
