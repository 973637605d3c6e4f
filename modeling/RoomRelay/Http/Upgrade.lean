import RoomRelay.Http.Exchange
import RoomRelay.Http.Sha1
import RoomRelay.Text.Utf8
import RoomRelay.Token.Base64Url

/-!
# Asking for a socket

A client that wants to exchange frames says so in four headers. The server proves with a hash of the
client's key that it has understood.

## Main definitions

* `UpgradeFault`, `HttpRequest.upgradeKey` — the key of a request, or what it lacks
* `acceptKey` — the proof
-/

namespace RoomRelay

/-- What a request for a socket lacks. -/
inductive UpgradeFault
  | method
  | connection
  | upgrade
  | version
  | key
  | transport
  deriving DecidableEq

namespace UpgradeFault

/-- The status of the answer. -/
def status : UpgradeFault → Nat
  | method => 405
  | connection | upgrade | version | key => 400
  | transport => 426

/-- The wording. -/
def message : UpgradeFault → String
  | method => "Request method must be `GET`"
  | connection => "Connection header did not include 'upgrade'"
  | upgrade => "`Upgrade` header did not include 'websocket'"
  | version => "`Sec-WebSocket-Version` header did not include '13'"
  | key => "`Sec-WebSocket-Key` header missing"
  | transport => "WebSocket request couldn't be upgraded since no upgrade state was present"

/-- The answer. -/
def response (fault : UpgradeFault) : HttpResponse := .plain fault.status fault.message

end UpgradeFault

/-- The text without upper case. -/
def lowerCase (text : String) : List Char := text.toList.map Char.toLower

/-- A word stands somewhere in a text. -/
def occursIn (word : List Char) : (text : List Char) → Bool
  | [] => word.isEmpty
  | c :: cs => word.isPrefixOf (c :: cs) || occursIn word cs

namespace HttpRequest

/-- The header can be read, and a word stands somewhere in it. -/
def headerHolds (r : HttpRequest) (name word : String) : Bool :=
  match r.header? name with
  | some text => isHeaderText text && occursIn word.toList (lowerCase text)
  | none => false

/-- The header is a word, in any case. -/
def headerIs (r : HttpRequest) (name word : String) : Bool :=
  (r.header? name).map lowerCase = some word.toList

/-- The key of a request for a socket, or the first thing that the request lacks. -/
def upgradeKey (r : HttpRequest) : Except UpgradeFault String :=
  if r.method ≠ "GET" then .error .method
  else if !r.headerHolds "connection" "upgrade" then .error .connection
  else if !r.headerIs "upgrade" "websocket" then .error .upgrade
  else if !r.headerIs "sec-websocket-version" "13" then .error .version
  else
    match r.header? "sec-websocket-key" with
    | none => .error .key
    | some key => if r.upgradable then .ok key else .error .transport

end HttpRequest

/-- What is put behind the key before it is hashed. -/
def keySuffix : String := "258EAFA5-E914-47DA-95CA-C5AB0DC85B11"

/-- The character of the alphabet with `+` and `/`. -/
def plusSlash (c : Char) : Char := if c = '-' then '+' else if c = '_' then '/' else c

/-- Bytes as characters in groups of four, the last one filled up with `=`. -/
def base64 (bytes : List UInt8) : String :=
  let cs := (Base64Url.encode bytes).map plusSlash
  String.ofList (cs ++ List.replicate ((4 - cs.length % 4) % 4) '=')

/-- The proof that the server has understood. -/
def acceptKey (key : String) : String := base64 (Sha1.hash (Utf8.bytes (key ++ keySuffix)))

/-- The answer to a request for a socket that is granted to an identity. -/
def upgradeResponse (key userId : String) : HttpResponse where
  status := 101
  headers := [("connection", "upgrade"), ("upgrade", "websocket"),
    ("sec-websocket-accept", acceptKey key)]
  upgraded := some userId

end RoomRelay
