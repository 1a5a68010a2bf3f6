import Artboard.Json.Text

/-! # Requests and responses

* `Route.of?`: the route of a target; scheme, authority, query and fragment do not count.
* `Route.methods`: the methods of a route. -/

namespace Artboard.Service

/-- Who else holds the document while a request is answered. -/
inductive Lock
  | free
  | read
  | write
  deriving DecidableEq, Repr

/-- A request. -/
structure Request where
  method : String
  /-- What is asked for: a path, perhaps behind scheme and authority, with a query. -/
  target : String
  contentType : Option String
  body : Json.Text
  lock : Lock

/-- A response with the headers that depend on the request. -/
structure Response where
  status : Nat
  body : String
  contentType : Option String
  allow : Option String
  deriving DecidableEq, Repr

/-- A response of a status alone. -/
def Response.empty (status : Nat) : Response := ⟨status, "", none, none⟩

/-- A response with a JSON text. -/
def Response.json (status : Nat) (body : String) : Response :=
  ⟨status, body, some "application/json", none⟩

/-- A response with a text for people. -/
def Response.text (status : Nat) (body : String) : Response :=
  ⟨status, body, some "text/plain; charset=utf-8", none⟩

/-- What the service can be asked for. -/
inductive Route
  | liveness
  | readiness
  | messages
  | document
  | panel
  deriving DecidableEq, Repr

/-- Whether a character ends the path of a target: queries and fragments follow. -/
def endsPath (c : Char) : Bool := c = '?' || c = '#'

/-- The path of a target, which is a path with a query, perhaps behind scheme and authority. Where
nothing follows the authority the path is the root. -/
def targetPath (target : String) : String :=
  let cs := target.toList
  match cs, cs.dropWhile (· ≠ ':') with
  | '/' :: _, _ => String.ofList (cs.takeWhile fun c => !endsPath c)
  | _, ':' :: '/' :: '/' :: rest =>
    let rest := rest.dropWhile fun c => c ≠ '/' && !endsPath c
    let path := rest.takeWhile fun c => !endsPath c
    if path = [] then "/" else String.ofList path
  | _, _ => String.ofList (cs.takeWhile fun c => !endsPath c)

/-- The route of a target. -/
def Route.of? (target : String) : Option Route :=
  let path := targetPath target
  if path = "/health/live" then some .liveness
  else if path = "/health/ready" ∨ path = "/health" then some .readiness
  else if path = "/api/messages" then some .messages
  else if path = "/api/document" then some .document
  else if path = "/api/panel" then some .panel
  else none

/-- The methods of a route, as its header lists them. -/
def Route.methods : Route → List String
  | .messages => ["POST"]
  | .document => ["GET", "HEAD", "DELETE"]
  | _ => ["GET", "HEAD"]

end Artboard.Service
