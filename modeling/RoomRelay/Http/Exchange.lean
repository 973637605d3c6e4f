import RoomRelay.Failure
import RoomRelay.Json.Printer

/-!
# Requests and responses

## Main definitions

* `HttpRequest`, `HttpRequest.header?` — what a client asks for
* `Body`, `HttpResponse` — what it is answered
* `RequestFailure.response` — the answer to a request that fails
-/

namespace RoomRelay

/-- Headers with their names in lower case, in the order in which they are sent. -/
abbrev Headers := List (String × String)

/-- What a client asks for. -/
structure HttpRequest where
  /-- What is to be done. -/
  method : String := "GET"
  /-- Which resource it is about, with its escapes. -/
  path : String
  /-- What follows the path. -/
  query : String := ""
  /-- The headers. -/
  headers : Headers := []
  /-- The bytes of the body. -/
  body : List UInt8 := []
  /-- The connection can be used for something else afterwards. -/
  upgradable : Bool := false
  deriving DecidableEq

namespace HttpRequest

/-- The path and the query of a target, which `?` parts; what follows `#` is not sent. -/
def parts (target : String) : String × String :=
  let sent := target.toList.takeWhile (· ≠ '#')
  (String.ofList (sent.takeWhile (· ≠ '?')),
    String.ofList ((sent.dropWhile (· ≠ '?')).drop 1))

/-- The first header of a name. -/
def header? (r : HttpRequest) (name : String) : Option String := r.headers.lookup name

end HttpRequest

/-- The character can stand in the text of a header. -/
def isHeaderChar (c : Char) : Bool := (32 ≤ c.toNat && c.toNat < 127) || c = '\t'

/-- The header can be read as text. -/
def isHeaderText (text : String) : Bool := text.toList.all isHeaderChar

/-- The text can be sent as a header: no control character other than a tab is in it. Not every such
header can be read as text. -/
def isHeaderValue (text : String) : Bool :=
  text.toList.all fun c => (32 ≤ c.toNat && c.toNat ≠ 127) || c = '\t'

/-- What a response holds. -/
inductive Body
  /-- Nothing. -/
  | empty
  /-- A document. -/
  | json (document : Json.Value)
  /-- A plain text. -/
  | plain (text : String)
  deriving DecidableEq

namespace Body

/-- The text that is sent. -/
def text : Body → String
  | empty => ""
  | json document => document.render
  | plain text => text

/-- The header that tells the kind of a body. -/
def kind : Body → Headers
  | empty => []
  | json _ => [("content-type", "application/json")]
  | plain _ => [("content-type", "text/plain; charset=utf-8")]

end Body

/-- What a client is answered. -/
structure HttpResponse where
  /-- How it went. -/
  status : Nat
  /-- The headers, without those that tell about the body. -/
  headers : Headers := []
  /-- What it holds. -/
  body : Body := .empty
  /-- The body is left out. -/
  bodiless : Bool := false
  /-- The connection is used for the session of an identity from now on. -/
  upgraded : Option String := none
  deriving DecidableEq

namespace HttpResponse

/-- A document. -/
def json (status : Nat) (document : Json.Value) : HttpResponse := { status, body := .json document }

/-- A plain text. -/
def plain (status : Nat) (text : String) : HttpResponse := { status, body := .plain text }

/-- All headers. -/
def allHeaders (r : HttpResponse) : Headers := r.body.kind ++ r.headers

/-- The text that is sent. -/
def bodyText (r : HttpResponse) : String := if r.bodiless then "" else r.body.text

/-- The response with a header put in, unless it has one of that name. -/
def withHeader (r : HttpResponse) (name value : String) : HttpResponse :=
  if (r.headers.lookup name).isSome then r else { r with headers := r.headers ++ [(name, value)] }

end HttpResponse

/-- The answer to a request that fails. -/
def RequestFailure.response (failure : RequestFailure) : HttpResponse :=
  .json failure.status failure.document

end RoomRelay
