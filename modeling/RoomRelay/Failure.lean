import RoomRelay.Json.Fault
import RoomRelay.Json.Value

/-!
# What can go wrong

Failures come in layers. A rule of the domain or a store fails first; a service may add that
something is missing or that a request breaks its limits; tokens and configuration have failures of
their own; and the gateway adds what can be wrong with a request. Each layer has a wording, a code,
and the status that answers a request.

## Main definitions

* `DomainFailure`, `ServiceFailure`, `AppFailure`, `RequestFailure`, `CommandFailure`
* `LengthFault` — a field whose text is too short or too long
* `RequestFailure.document` — the document that answers a failed request
-/

namespace RoomRelay

/-- A rule of the domain is broken, or a store fails. -/
inductive DomainFailure
  /-- There is no such room. -/
  | unknownRoom (id : Uuid)
  /-- A message without a visible character. -/
  | emptyContent
  /-- A direct room that would not have two members. -/
  | directMemberCount (count : Nat)
  /-- The store of rooms or messages fails. -/
  | database (reason : String)
  /-- The presence store fails. -/
  | cache (reason : String)
  deriving DecidableEq

namespace DomainFailure

/-- The wording. -/
def message : DomainFailure → String
  | unknownRoom id => "Room not found: " ++ id.toString
  | emptyContent => "Message content is empty"
  | directMemberCount count =>
    "Direct room must have exactly 2 members (you + 1 other person), got " ++ toString count
  | database reason => "Database error: " ++ reason
  | cache reason => "Cache error: " ++ reason

/-- The code. -/
def code : DomainFailure → String
  | unknownRoom _ => "UNKNOWN_ROOM"
  | emptyContent => "EMPTY_CONTENT"
  | directMemberCount _ => "INVALID_DIRECT_ROOM"
  | database _ => "DATABASE_ERROR"
  | cache _ => "CACHE_ERROR"

/-- Something asked for does not exist. -/
def isNotFound : DomainFailure → Bool
  | unknownRoom _ => true
  | _ => false

/-- A request breaks a rule. -/
def isValidation : DomainFailure → Bool
  | emptyContent | directMemberCount _ => true
  | _ => false

/-- A store fails. -/
def isInfrastructure : DomainFailure → Bool
  | database _ | cache _ => true
  | _ => false

/-- The status that answers a request. -/
def status (e : DomainFailure) : Nat :=
  if e.isNotFound then 404 else if e.isValidation then 400 else 500

end DomainFailure

/-- A failure of a service. -/
inductive ServiceFailure
  /-- A failure of the domain. -/
  | domain (failure : DomainFailure)
  /-- Something asked for does not exist. -/
  | notFound (resource id : String)
  /-- A request breaks its limits. -/
  | validation (reason : String)
  deriving DecidableEq

namespace ServiceFailure

instance : Coe DomainFailure ServiceFailure := ⟨domain⟩

/-- The wording. -/
def message : ServiceFailure → String
  | domain failure => failure.message
  | notFound resource id => resource ++ " not found: " ++ id
  | validation reason => "Validation error: " ++ reason

/-- The code. -/
def code : ServiceFailure → String
  | domain failure => failure.code
  | notFound _ _ => "NOT_FOUND"
  | validation _ => "VALIDATION_ERROR"

/-- The status that answers a request. -/
def status : ServiceFailure → Nat
  | domain failure => failure.status
  | notFound _ _ => 404
  | validation _ => 400

/-- The wording of the failure underneath, if there is one. -/
def source : ServiceFailure → Option String
  | domain failure => some failure.message
  | _ => none

end ServiceFailure

/-- A failure of the application. -/
inductive AppFailure
  /-- A token that proves nothing. -/
  | invalidToken
  /-- A token whose time is over. -/
  | tokenExpired
  /-- A request breaks a rule. -/
  | validation (reason : String)
  /-- Something asked for does not exist. -/
  | notFound (what : String)
  /-- The store of rooms or messages fails. -/
  | database (reason : String)
  /-- The presence store fails. -/
  | cache (reason : String)
  /-- Whatever else; the reason is not told. -/
  | internal
  /-- The server cannot be set up. -/
  | config (reason : String)
  /-- A failure of the domain. -/
  | domain (failure : DomainFailure)
  deriving DecidableEq

namespace AppFailure

/-- A failure of a service as one of the application. -/
def ofService : ServiceFailure → AppFailure
  | .domain failure => domain failure
  | .notFound resource id => notFound (resource ++ " " ++ id)
  | .validation reason => validation reason

/-- The wording. -/
def message : AppFailure → String
  | invalidToken => "Invalid token"
  | tokenExpired => "Token expired"
  | validation reason => "Validation error: " ++ reason
  | notFound what => "Resource not found: " ++ what
  | database reason => "Database error: " ++ reason
  | cache reason => "Cache error: " ++ reason
  | internal => "Internal server error"
  | config reason => "Configuration error: " ++ reason
  | domain failure => failure.message

/-- The code. -/
def code : AppFailure → String
  | invalidToken => "INVALID_TOKEN"
  | tokenExpired => "TOKEN_EXPIRED"
  | validation _ => "VALIDATION_ERROR"
  | notFound _ => "NOT_FOUND"
  | database _ => "DATABASE_ERROR"
  | cache _ => "CACHE_ERROR"
  | internal => "INTERNAL_ERROR"
  | config _ => "CONFIG_ERROR"
  | domain failure => failure.code

/-- The status that answers a request. -/
def status : AppFailure → Nat
  | invalidToken | tokenExpired => 401
  | validation _ => 400
  | notFound _ => 404
  | database _ | cache _ | internal | config _ => 500
  | domain failure => failure.status

end AppFailure

/-- A field whose text is too short or too long, counted in characters. -/
structure LengthFault where
  /-- The field. -/
  field : String
  /-- What is wanted, in words. -/
  reason : String
  /-- The least length, if there is one. -/
  least : Option Nat
  /-- The greatest length. -/
  greatest : Nat
  /-- The text. -/
  value : String
  deriving DecidableEq

namespace LengthFault

/-- The wording. -/
def message (fault : LengthFault) : String := fault.field ++ ": " ++ fault.reason

/-- A count as a document. -/
def count (n : Nat) : Json.Value := .number (.int n)

/-- The fault as a document: for each field what is wrong with it, and by which bounds. -/
def details (fault : LengthFault) : Json.Value :=
  let bounds := ("max", count fault.greatest) :: fault.least.toList.map fun n => ("min", count n)
  .object [(fault.field, .array [.object [
    ("code", .string "length"),
    ("message", .string fault.reason),
    ("params", .object (bounds ++ [("value", .string fault.value)]))]])]

end LengthFault

/-- A failure of a request to the gateway. -/
inductive RequestFailure
  /-- A failure of the application. -/
  | app (failure : AppFailure)
  /-- A failure of a service. -/
  | service (failure : ServiceFailure)
  /-- A body that breaks its limits. -/
  | limits (fault : LengthFault)
  /-- Something in the path that cannot be read. -/
  | path (reason : String)
  /-- Something in the query that cannot be read. -/
  | query (reason : String)
  /-- A body that cannot be read. -/
  | body (reason : String)
  /-- No bearer token. -/
  | noCredentials
  deriving DecidableEq

namespace RequestFailure

/-- The wording. -/
def message : RequestFailure → String
  | app failure => failure.message
  | service failure => failure.message
  | limits fault => "Validation error: " ++ fault.message
  | path reason => "Invalid path parameter: " ++ reason
  | query reason => "Invalid query parameter: " ++ reason
  | body reason => "Invalid request body: " ++ reason
  | noCredentials => "Missing authorization"

/-- The code. -/
def code : RequestFailure → String
  | app failure => failure.code
  | service failure => failure.code
  | limits _ => "VALIDATION_ERROR"
  | path _ => "INVALID_PATH_PARAMETER"
  | query _ => "INVALID_QUERY_PARAMETER"
  | body _ => "INVALID_BODY"
  | noCredentials => "MISSING_AUTHORIZATION"

/-- The status of the answer. -/
def status : RequestFailure → Nat
  | app failure => failure.status
  | service failure => failure.status
  | limits _ | path _ | query _ | body _ => 400
  | noCredentials => 401

/-- What the answer tells beyond the wording. -/
def details : RequestFailure → Option Json.Value
  | limits fault => some fault.details
  | _ => none

/-- The document that answers the request. -/
def document (failure : RequestFailure) : Json.Value :=
  .object [("error", .object (
    [("code", .string failure.code), ("message", .string failure.message)] ++
    failure.details.toList.map fun value => ("details", value)))]

end RequestFailure

/-- A failure of a command that came over a connection. -/
inductive CommandFailure
  /-- The command is well formed but not acceptable. -/
  | payload (reason : String)
  /-- The service fails. -/
  | service (failure : ServiceFailure)
  /-- The event that should follow cannot be written. -/
  | serialization (cause : Json.Cause)
  deriving DecidableEq

namespace CommandFailure

/-- The wording. -/
def message : CommandFailure → String
  | payload reason => "Invalid payload: " ++ reason
  | service failure => "Service error: " ++ failure.message
  | serialization cause => "Serialization error: " ++ cause.message

/-- Whether the client caused the failure. -/
def isClientFault : CommandFailure → Bool
  | payload _ => true
  | service failure => 400 ≤ failure.status && failure.status < 500
  | serialization _ => false

end CommandFailure

end RoomRelay
