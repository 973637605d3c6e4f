import RoomRelay.Gateway.Dispatch
import RoomRelay.Http.Cors
import RoomRelay.Http.Extract
import RoomRelay.Http.Resource
import RoomRelay.Http.Upgrade
import RoomRelay.Response
import RoomRelay.Service.Rooms

/-!
# The application

A request names a resource and what is to be done with it. Apart from the question whether the
service is there, everything needs a verified identity, which is looked at before anything else in
the request. An answer that takes too long is given up.

## Main definitions

* `App`, `App.ofConfig?` — what the application needs to know
* `App.endpoint` — what each action does
* `App.answer`, `App.dress` — the answer to a request, and what is put around it
-/

namespace RoomRelay

/-- What the application needs to know. -/
structure App where
  /-- The name of the service. -/
  name : String
  /-- How tokens are signed. -/
  tokens : TokenConfig
  /-- Which origins may use it. -/
  origins : OriginPolicy
  deriving DecidableEq

namespace App

/-- The application of a configuration; `none` if it refuses to start. -/
def ofConfig? (config : Config) : Option App :=
  (OriginPolicy.ofConfig config).map fun origins => ⟨config.name, config.token, origins⟩

open Endpoint

/-- The rooms of the caller, most recently active first. -/
def listRooms (app : App) (r : HttpRequest) : Endpoint HttpResponse := do
  let userId ← authenticate app.tokens r
  let rooms ← serve (RoomRelay.listRooms userId)
  return .json 200 (.array (rooms.map Room.response))

/-- Makes a room. -/
def createRoom (app : App) (r : HttpRequest) : Endpoint HttpResponse := do
  let userId ← authenticate app.tokens r
  let request ← body CreateRoom.record CreateRoom.check r
  let room ← serve (RoomRelay.createRoom userId request)
  return .json 201 room.response

/-- One room. -/
def getRoom (app : App) (raw : String) (r : HttpRequest) : Endpoint HttpResponse := do
  discard (authenticate app.tokens r)
  let id ← roomId (← part "room_id" raw)
  let room ← serve (RoomRelay.getRoom id)
  return .json 200 room.response

/-- A part of a room's history. -/
def listMessages (app : App) (raw : String) (r : HttpRequest) : Endpoint HttpResponse := do
  discard (authenticate app.tokens r)
  let text ← part "room_id" raw
  let window ← pagination r
  let id ← roomId text
  let messages ← serve (RoomRelay.listMessages id window.limit window.offset)
  return .json 200 (.array (messages.map Message.response))

/-- Stores a message and tells its room. -/
def sendMessage (app : App) (r : HttpRequest) : Endpoint HttpResponse := do
  let userId ← authenticate app.tokens r
  let request ← body SendMessage.record SendMessage.check r
  let message ← serve (RoomRelay.sendMessage userId request)
  discard (perform (broadcast (messageEnvelope message)))
  return .json 201 message.response

/-- Who types in a room. -/
def listTyping (app : App) (raw : String) (r : HttpRequest) : Endpoint HttpResponse := do
  discard (authenticate app.tokens r)
  match roomKey (← part "room_id" raw) with
  | none => refuse (.path "Empty room_id")
  | some key =>
    let userIds ← serve (typingUsers key)
    return .json 200 (typingDocument key userIds)

/-- Whether an identity is online. -/
def getPresence (app : App) (raw : String) (r : HttpRequest) : Endpoint HttpResponse := do
  discard (authenticate app.tokens r)
  let userId ← part "user_id" raw
  let online ← serve (isOnline userId)
  return .json 200 (presenceDocument userId online)

/-- Grants a socket; a token in the query goes before one in the headers. -/
def connect (app : App) (r : HttpRequest) : Endpoint HttpResponse := do
  match tokenOfQuery r.query with
  | .error fault => throw (.plain 400 fault.message)
  | .ok token =>
    match r.upgradeKey with
    | .error fault => throw (.plain fault.status fault.message)
    | .ok key =>
      match token.filter (· ≠ "") <|> r.bearer? with
      | none => refuse .noCredentials
      | some token =>
        let userId ← verify app.tokens token
        return upgradeResponse key userId

/-- What an action does. -/
def endpoint (app : App) (r : HttpRequest) : Action → Endpoint HttpResponse
  | .health => return .json 200 (healthDocument app.name)
  | .listRooms => app.listRooms r
  | .createRoom => app.createRoom r
  | .getRoom raw => app.getRoom raw r
  | .listMessages raw => app.listMessages raw r
  | .listTyping raw => app.listTyping raw r
  | .sendMessage => app.sendMessage r
  | .getPresence raw => app.getPresence raw r
  | .connect => app.connect r

/-- The answer of an endpoint. -/
def run (endpoint : Endpoint HttpResponse) : Routine HttpResponse := do
  match ← endpoint.run with
  | .ok response => return response
  | .error rejection => return rejection.response

/-- What is to be done for a request. -/
def action? (r : HttpRequest) : Option Action :=
  (Resource.ofPath? r.path).bind (·.action? r.method)

/-- The answer to a request; a question for the head of an answer gets it without the body. -/
def answer (app : App) (r : HttpRequest) : Routine HttpResponse := do
  match action? r with
  | some action =>
    let response ← run (app.endpoint r action)
    return { response with bodiless := r.method = "HEAD" }
  | none => return { status := if (Resource.ofPath? r.path).isSome then 405 else 404 }

/-- How long an answer may take, in milliseconds. -/
def patience : Nat := 30000

/-- The answer to a request that takes too long. -/
def overdue : HttpResponse where
  status := 503

/-- The header that tells requests apart. -/
def requestIdHeader : String := "x-request-id"

/-- The methods that a resource knows, if the method of a request is none of them. -/
def allowHeader? (r : HttpRequest) : Option String :=
  if (action? r).isSome then none else (Resource.ofPath? r.path).map (·.allowed)

/-- An answer with what is put around it: what pages of other origins are told, the methods that the
resource knows, and the identifier of the request. A question that a page asks in advance is always
answered here. -/
def dress (app : App) (freshId : Uuid) (r : HttpRequest) (response : HttpResponse) : HttpResponse :=
  let origin := r.header? "origin"
  let told :=
    if r.method = "OPTIONS" then app.origins.preflight origin else app.origins.dress origin response
  let known :=
    match allowHeader? r with
    | some methods => told.withHeader "allow" methods
    | none => told
  known.withHeader requestIdHeader ((r.header? requestIdHeader).getD freshId.toString)

end App

end RoomRelay
