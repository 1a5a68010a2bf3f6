import Artboard.Bridge
import Artboard.Document.Snapshot
import Artboard.Service.Http
import Artboard.Service.MediaType

/-! # The service

The service puts a document behind the message bridge and answers requests one at a time.

* `Service.respond`: the response to a request and the state after it.
* `Service.decodeBody`: the message in a request, or the response that refuses it.
* `Service.respondAll`: the responses to a sequence of requests. -/

namespace Artboard.Service

open Json (ReadError pathText)

/-- The version that the probe for readiness reports. -/
def version : String := "0.1.0"

/-- The service's state: its document and the number of outcomes since it started. -/
abbrev State := Bridge.State Document Nat

/-- The bridge to the document; its listener counts outcomes. -/
def bridge : Bridge Document Nat := ⟨Document.canvas, fun _ count => count + 1⟩

/-- A service that has just started. -/
def start (document : Document) : State := ⟨document, 0⟩

/-- What the probe for readiness reports. While a drawing is made the document cannot be read. -/
def readiness (lock : Lock) (s : State) : Response :=
  let readable := lock ≠ .write
  let status := if readable then "healthy" else "unhealthy"
  let count := if readable then s.canvas.shapeCount else 0
  let report := Json.object
    [("status", .string status), ("version", .string version),
      ("checks", .object [("document", .bool readable), ("shape_count", .int count),
        ("generations", .int s.listener)])]
  .json (if readable then 200 else 503) report.compact

/-- The refusal of a body that is not announced as JSON. -/
def unsupported : Response := .text 415 "Expected request with `Content-Type: application/json`"

/-- The refusal of a body that is no message: 400 if it is not JSON, else 422. The place in the tree
stands before the reason if something of it is known. -/
def refusal (e : ReadError) : Response :=
  let place := if e.path.all (· = .unnamed) then "" else pathText e.path ++ ": "
  match e.problem with
  | .syntactic _ =>
    .text 400 ("Failed to parse the request body as JSON: " ++ place ++ e.message)
  | .mismatch _ =>
    .text 422 ("Failed to deserialize the JSON body into the target type: " ++ place ++ e.message)

/-- Whether a request announces a JSON body. -/
def announcesJson (r : Request) : Bool :=
  ((r.contentType.bind MediaType.parse?).map MediaType.isJson).getD false

/-- The number of bytes that a body may have. -/
def bodyLimit : Nat := Nat.pow 2 21

/-- The refusal of a body with more bytes. -/
def tooLarge : Response := .text 413 "Failed to buffer the request body: length limit exceeded"

/-- The message in a request. -/
def decodeBody (r : Request) : Except Response Message :=
  if !announcesJson r then .error unsupported
  else if bodyLimit < r.body.size then .error tooLarge
  else match Message.ofText r.body with
    | .ok m => .ok m
    | .error e => .error (refusal e)

/-- Delivers the message in a request to the bridge. -/
def deliver (r : Request) (s : State) : Response × State :=
  match decodeBody r with
  | .error response => (response, s)
  | .ok m =>
    match bridge.receive m s with
    | (some reply, s) => (.json 200 reply.toJson.compact, s)
    | (none, s) => (.empty 204, s)

/-- The response of a route to `GET`. -/
def get (panel : Panel) (lock : Lock) (s : State) : Route → Response
  | .liveness => .empty 200
  | .readiness => readiness lock s
  | .document => .json 200 s.canvas.snapshot.toJson.compact
  | .panel => .json 200 panel.toJson.compact
  | .messages => .empty 405

/-- The response to a request and the state after it. -/
def respond (panel : Panel) (r : Request) (s : State) : Response × State :=
  match Route.of? r.target with
  | none => (.empty 404, s)
  | some route =>
    if r.method ∈ route.methods then
      if r.method = "POST" then deliver r s
      else if r.method = "DELETE" then (.empty 204, { s with canvas := s.canvas.clear })
      else if r.method = "HEAD" then ({ get panel r.lock s route with body := "" }, s)
      else (get panel r.lock s route, s)
    else ({ Response.empty 405 with allow := some (",".intercalate route.methods) }, s)

/-- The responses to requests one after another, each with the state after it. -/
def respondAll (panel : Panel) : List Request → State → List (Response × State)
  | [], _ => []
  | r :: rest, s =>
    let answered := respond panel r s
    answered :: respondAll panel rest answered.2

end Artboard.Service
