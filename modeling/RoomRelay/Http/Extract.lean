import RoomRelay.Gateway.Routine
import RoomRelay.Http.Exchange
import RoomRelay.Http.MediaType
import RoomRelay.Text.Percent
import RoomRelay.Json.Record
import RoomRelay.Service.Basic
import RoomRelay.Text.Numeral
import RoomRelay.Token

/-!
# What an endpoint takes from a request

An endpoint takes the identity of the caller, parts of the path, the query and the body from a
request, in an order of its own, and fails at the first one that is missing or cannot be read.

## Main definitions

* `Endpoint`, `Rejection` — routines that answer a request or fail
* `HttpRequest.bearer?`, `Endpoint.authenticate` — the identity of the caller
* `Endpoint.part` — a part of the path
* `Pagination.ofQuery`, `tokenOfQuery` — the query
* `readBody`, `Endpoint.body` — the body
-/

namespace RoomRelay

/-- Why an endpoint fails. -/
inductive Rejection
  /-- A failure that is told as a document. -/
  | failure (failure : RequestFailure)
  /-- Something that is told as a plain text. -/
  | plain (status : Nat) (text : String)
  deriving DecidableEq

/-- The answer. -/
def Rejection.response : Rejection → HttpResponse
  | failure f => f.response
  | plain status text => .plain status text

/-- A routine that may fail because of a request. -/
abbrev Endpoint (α : Type) := ExceptT Rejection Routine α

namespace Endpoint

/-- Does something that cannot fail. -/
def perform {α : Type} (routine : Routine α) : Endpoint α := ExceptT.lift routine

/-- Fails because of a request. -/
def refuse {α : Type} (f : RequestFailure) : Endpoint α := throw (.failure f)

/-- Fails if the service does. -/
def serve {α : Type} (service : Service α) : Endpoint α :=
  ExceptT.mk do return (← service.run).mapError fun f => .failure (.service f)

end Endpoint

/-! ## The caller -/

/-- The token after the name of its scheme, which is in any case and followed by a blank. -/
def bearerToken? (cs : List Char) : Option String :=
  if (cs.take 6).map Char.toLower = "bearer".toList ∧ cs[6]? = some ' ' then
    some (String.ofList ((cs.drop 7).dropWhile fun c => c = ' ' || c = '\t'))
  else none

/-- The bearer token of a request. -/
def HttpRequest.bearer? (r : HttpRequest) : Option String :=
  (r.header? "authorization").bind fun text =>
    if isHeaderText text then bearerToken? text.toList else none

namespace Endpoint

/-- The identity that a token vouches for. -/
def verify (tokens : TokenConfig) (token : String) : Endpoint String := do
  let now ← perform (Routine.ask .now)
  match tokens.verify token now.seconds with
  | .ok userId => return userId
  | .error f => refuse (.app f)

/-- The identity of the caller. -/
def authenticate (tokens : TokenConfig) (r : HttpRequest) : Endpoint String :=
  match r.bearer? with
  | some token => verify tokens token
  | none => refuse .noCredentials

/-! ## The path -/

/-- The text of a part of the path. -/
def part (name raw : String) : Endpoint String :=
  match Percent.text? raw with
  | some text => return text
  | none => throw (.plain 400 ("Invalid URL: Invalid UTF-8 in `" ++ name ++ "`"))

/-- The room that a part of the path names. -/
def roomId (text : String) : Endpoint Uuid :=
  match Uuid.parse? text with
  | some id => return id
  | none => refuse (.path "Invalid room_id format")

end Endpoint

/-! ## The query -/

/-- Why a query cannot be read. -/
inductive QueryFault
  /-- A name that is given twice. -/
  | duplicate (name : String)
  /-- A value that is no number. -/
  | numeral (fault : Numeral.Fault)
  deriving DecidableEq

/-- The wording. -/
def QueryFault.message (fault : QueryFault) : String :=
  "Failed to deserialize query string: " ++
    match fault with
    | duplicate name => "duplicate field `" ++ name ++ "`"
    | numeral fault => fault.message

/-- Which part of a history is asked for. -/
structure Pagination where
  /-- How many messages. -/
  limit : Option Int := none
  /-- How many newer ones are left out. -/
  offset : Option Int := none
  deriving DecidableEq

namespace Pagination

/-- A number that has not been given before. -/
def once (name : String) (known : Option Int) (value : String) : Except QueryFault (Option Int) :=
  match known with
  | some _ => .error (.duplicate name)
  | none => some <$> (Numeral.signed value).mapError .numeral

/-- Takes one pair of a query; names that mean nothing are left out. -/
def takePair (p : Pagination) (pair : String × String) : Except QueryFault Pagination :=
  if pair.1 = "limit" then return { p with limit := ← once "limit" p.limit pair.2 }
  else if pair.1 = "offset" then return { p with offset := ← once "offset" p.offset pair.2 }
  else .ok p

/-- The part of a history that a query asks for. -/
def ofQuery (query : String) : Except QueryFault Pagination :=
  (Form.pairs query).foldlM takePair {}

end Pagination

/-- Takes one pair of a query that may hold a token. -/
def takeToken (known : Option String) (pair : String × String) :
    Except QueryFault (Option String) :=
  if pair.1 = "token" then
    match known with
    | some _ => .error (.duplicate "token")
    | none => .ok (some pair.2)
  else .ok known

/-- The token in a query. -/
def tokenOfQuery (query : String) : Except QueryFault (Option String) :=
  (Form.pairs query).foldlM takeToken none

/-- Which part of a history a request asks for. -/
def Endpoint.pagination (r : HttpRequest) : Endpoint Pagination :=
  match Pagination.ofQuery r.query with
  | .ok p => return p
  | .error fault => refuse (.query fault.message)

/-! ## The body -/

/-- How long a body may be, in bytes. -/
def maxBodyLength : Nat := 2 * 1024 * 1024

/-- Why a body is not the document that is wanted. -/
inductive BodyFault
  /-- It is said to be something else. -/
  | kind
  /-- It is too long. -/
  | tooLong
  /-- It cannot be read. -/
  | unreadable (fault : Json.Fault)

/-- The wording. -/
def BodyFault.message : BodyFault → String
  | kind => "Expected request with `Content-Type: application/json`"
  | tooLong => "Failed to buffer the request body: length limit exceeded"
  | unreadable fault =>
    (match fault.category with
      | .mismatched => "Failed to deserialize the JSON body into the target type: "
      | .broken | .truncated => "Failed to parse the request body as JSON: ") ++ fault.located

/-- The request says that its body is JSON. -/
def HttpRequest.sendsJson (r : HttpRequest) : Bool :=
  ((r.header? "content-type").bind MediaType.parse?).any (·.isJson)

/-- The document in a body; what follows it is not looked at. -/
def readBody {α : Type} (reader : Json.Reader α) (r : HttpRequest) : Except BodyFault α :=
  if !r.sendsJson then .error .kind
  else if maxBodyLength < r.body.length then .error .tooLong
  else (reader.run' (Utf8.symbols r.body)).mapError .unreadable

/-- The document in the body of a request, within its limits. -/
def Endpoint.body {δ α : Type} (record : Json.Record δ α)
    (check : α → Except LengthFault Unit) (r : HttpRequest) : Endpoint α :=
  match readBody (record.read Json.depthLimit) r with
  | .error fault => refuse (.body fault.message)
  | .ok document =>
    match check document with
    | .error fault => refuse (.limits fault)
    | .ok () => return document

end RoomRelay
