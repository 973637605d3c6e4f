import RoomRelay.Json.Record

/-!
# The claims of a token

A token says whose it is, when it was issued, until when it holds, and what it is for. It may also
say for whom it is meant; this service answers to no such name.

## Main definitions

* `TokenUse`, `Claims` — the claims
* `Claims.reader` — reads them from a payload
* `Claims.document` — the payload of the tokens that are issued here
-/

namespace RoomRelay

/-- What a token is for. -/
inductive TokenUse
  | access
  | refresh
  deriving DecidableEq

namespace TokenUse

/-- The words for the uses. -/
def choice : Json.Choice TokenUse := ⟨[("access", access), ("refresh", refresh)]⟩

/-- The word for a use. -/
def name : TokenUse → String
  | access => "access"
  | refresh => "refresh"

end TokenUse

/-- What a token says. -/
structure Claims where
  /-- The identity. -/
  subject : String
  /-- When it was issued, in seconds since the start of 1970. -/
  issuedAt : Int
  /-- Until when it holds. -/
  expiresAt : Int
  /-- What it is for. -/
  use : TokenUse
  /-- It is meant for someone in particular. -/
  hasAudience : Bool := false
  deriving DecidableEq

namespace Claims

/-- The claims that have been seen. -/
structure Draft where
  /-- The identity. -/
  subject : Option String := none
  /-- When it was issued. -/
  issuedAt : Option Int := none
  /-- Until when it holds. -/
  expiresAt : Option Int := none
  /-- What it is for. -/
  use : Option TokenUse := none
  /-- From when on it holds. -/
  notBefore : Option Json.Value := none
  /-- Who issued it. -/
  issuer : Option Json.Value := none
  /-- For whom it is meant. -/
  audience : Option Json.Value := none

/-- A value without others inside it. -/
def isFlat : Json.Value → Bool
  | .array (_ :: _) | .object (_ :: _) => false
  | _ => true

/-- A name, or a list of names. -/
def isAudience : Json.Value → Bool
  | .string _ => true
  | .array items => items.all fun item => item.string?.isSome
  | _ => false

/-- The claims as a record. From when on a token holds is not looked at, except that it must be a
flat value; nor is who issued it. -/
def record : Json.Record Draft Claims where
  name := "Claims"
  fields :=
    [.of "sub" [] true .text (·.subject) fun x draft => { draft with subject := some x },
     .of "iat" [] false .integer (·.issuedAt) fun x draft => { draft with issuedAt := some x },
     .of "exp" [] true .integer (·.expiresAt) fun x draft => { draft with expiresAt := some x },
     .of "token_type" [] false TokenUse.choice.shape (·.use) fun x draft =>
       { draft with use := some x },
     .of "nbf" [] false (.checked isFlat .noCommaInObject) (·.notBefore) fun x draft =>
       { draft with notBefore := some x },
     .of "iss" [] false .any (·.issuer) fun x draft => { draft with issuer := some x },
     .of "aud" [] false .any (·.audience) fun x draft => { draft with audience := some x }]
  blank := {}
  build draft := do
    let subject ← Json.need "sub" draft.subject
    let expiresAt ← Json.need "exp" draft.expiresAt
    return {
      subject, expiresAt
      issuedAt := draft.issuedAt.getD 0
      use := draft.use.getD .access
      hasAudience := draft.audience.any isAudience }

/-- Reads the claims, which must be an object. -/
def reader : Json.Reader Claims := do
  match ← Json.blanks with
  | some (some '[') => Json.fail (.wrongForm .sequence record.form)
  | _ => record.read Json.depthLimit

/-- An integer as a document. -/
def integer (n : Int) : Json.Value := .number (.int n)

/-- The payload that says these claims. -/
def document (c : Claims) : Json.Value :=
  .object [("sub", .string c.subject), ("iat", integer c.issuedAt), ("exp", integer c.expiresAt),
    ("token_type", .string c.use.name)]

end Claims

end RoomRelay
