import RoomRelay.Config
import RoomRelay.Failure
import RoomRelay.Json.Printer
import RoomRelay.Text.Utf8
import RoomRelay.Token.Base64Url
import RoomRelay.Token.Claims
import RoomRelay.Token.Header
import RoomRelay.Token.Mac

/-!
# Tokens

A token is three parts joined by points: a header, a payload and a signature of the first two. Only
one algorithm is accepted, so that a header and a payload have exactly one signature under a secret.

## Main definitions

* `Token.signature`, `Token.compose` — the signature of a text, and a whole token
* `TokenConfig.issue` — the token of an identity
* `TokenConfig.decode`, `TokenConfig.verify` — the claims and the identity of a token
-/

namespace RoomRelay

namespace Token

/-- The bytes of characters. -/
def bytes (cs : List Char) : List UInt8 := Utf8.bytes (String.ofList cs)

/-- The signature of a text under a secret. -/
def signature (secret : String) (message : List Char) : List Char :=
  Base64Url.encode (Mac.code (Utf8.bytes secret) (bytes message))

/-- A document as a part of a token. -/
def part (document : Json.Value) : List Char := Base64Url.encode (bytes document.chars)

/-- The token of a header and a payload. -/
def compose (secret : String) (header payload : List Char) : List Char :=
  header ++ '.' :: payload ++ '.' :: signature secret (header ++ '.' :: payload)

/-- Reads a part of a token. -/
def readPart (reader : Json.Reader α) (part : List Char) : Option α := do
  let bytes ← Base64Url.decode? part
  (Json.parseInput reader (Utf8.symbols bytes)).toOption

/-- The header and the claims of a token whose signature is right. -/
def open? (secret : String) (token : String) : Option (TokenHeader × Claims) :=
  match token.toList.splitOn '.' with
  | [header, payload, mark] => do
    let head ← readPart (TokenHeader.record.read Json.depthLimit) header
    if mark = signature secret (header ++ '.' :: payload) then
      return (head, ← readPart Claims.reader payload)
    else none
  | _ => none

/-- For how many seconds a token is accepted after it has expired. -/
def leeway : Int := 60

/-- The greatest magnitude of a lifetime in seconds. -/
def longestLifetime : Int := 9223372036854775

/-- The seconds from the start of 1970 that have a date, from the year -262143 to 262142. -/
def hasDate (seconds : Int) : Bool := -8334601228800 ≤ seconds && seconds < 8210266876800

end Token

namespace TokenConfig

/-- The claims of a token issued at a time; `none` if it would expire at a time without a date. -/
def claims? (config : TokenConfig) (userId : String) (now : Int) : Option Claims :=
  if config.lifetime.natAbs ≤ Token.longestLifetime ∧ Token.hasDate (now + config.lifetime) then
    some ⟨userId, now, now + config.lifetime, .access, false⟩
  else none

/-- The token of an identity, issued at a time. -/
def issue (config : TokenConfig) (userId : String) (now : Int) : Option String :=
  (config.claims? userId now).map fun claims =>
    String.ofList
      (Token.compose config.secret (Token.part TokenHeader.document) (Token.part claims.document))

/-- The claims of a token at a time. A token that is no longer accepted because of its age fails as
such before its audience is looked at. -/
def decode (config : TokenConfig) (token : String) (now : Int) : Except AppFailure Claims :=
  match Token.open? config.secret token with
  | none => .error .invalidToken
  | some (header, claims) =>
    if header.algorithm ≠ .hs256 ∨ claims.expiresAt < 0 then .error .invalidToken
    else if claims.expiresAt < now - Token.leeway then .error .tokenExpired
    else if claims.hasAudience then .error .invalidToken
    else .ok claims

/-- The identity of a token at a time. -/
def verify (config : TokenConfig) (token : String) (now : Int) : Except AppFailure String := do
  let claims ← config.decode token now
  if claims.use = .access ∧ claims.subject ≠ "" then return claims.subject
  else .error .invalidToken

/-- The tokens for people, who are not shown the secret. -/
def describe (config : TokenConfig) : String :=
  "JwtService \x7b access_token_expiry: " ++ toString config.lifetime ++ ", .. \x7d"

end TokenConfig

end RoomRelay
