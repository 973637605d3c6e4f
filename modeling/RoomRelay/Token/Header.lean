import RoomRelay.Json.Record

/-!
# The header of a token

The header names the algorithm of the signature. Whatever else it may say is only looked at for its
form.

## Main definitions

* `SignatureAlgorithm` — the algorithms that a header can name
* `TokenHeader.record` — the header as a record
* `TokenHeader.document` — the header of the tokens that are issued here
-/

namespace RoomRelay

/-- The algorithms that a header can name. -/
inductive SignatureAlgorithm
  | hs256 | hs384 | hs512
  | es256 | es384
  | rs256 | rs384 | rs512
  | ps256 | ps384 | ps512
  | edDsa
  deriving DecidableEq

/-- The names of the algorithms. -/
def SignatureAlgorithm.choice : Json.Choice SignatureAlgorithm where
  words :=
    [("HS256", hs256), ("HS384", hs384), ("HS512", hs512), ("ES256", es256), ("ES384", es384),
     ("RS256", rs256), ("RS384", rs384), ("RS512", rs512), ("PS256", ps256), ("PS384", ps384),
     ("PS512", ps512), ("EdDSA", edDsa)]

/-- The header of a token. -/
structure TokenHeader where
  /-- The algorithm of the signature. -/
  algorithm : SignatureAlgorithm
  deriving DecidableEq

namespace TokenHeader

/-- The fields that have been seen. -/
structure Draft where
  /-- The algorithm. -/
  algorithm : Option SignatureAlgorithm := none
  /-- The names of the others. -/
  others : List String := []

/-- A field that is only looked at for its form. -/
def incidental (name : String) (shape : Json.Shape α) : Json.Field Draft :=
  .of name [] true shape.discarded
    (fun draft => if name ∈ draft.others then some () else none)
    fun _ draft => { draft with others := name :: draft.others }

/-- A text that may be missing. -/
def optionalText (name : String) : Json.Field Draft := incidental name (.optional .text)

/-- Whether a field is there and is a text. -/
def hasText (v : Json.Value) (name : String) : Bool := ((v.field? name).bind (·.string?)).isSome

/-- A public key says of which kind it is and has the numbers that belong to it. -/
def isPublicKey (v : Json.Value) : Bool :=
  match (v.field? "kty").bind (·.string?) with
  | some "EC" => hasText v "crv" && hasText v "x" && hasText v "y"
  | some "OKP" => hasText v "crv" && hasText v "x"
  | some "RSA" => hasText v "n" && hasText v "e"
  | some "oct" => hasText v "k"
  | _ => false

/-- The header as a record. -/
def record : Json.Record Draft TokenHeader where
  name := "Header"
  fields :=
    [optionalText "typ",
     .of "alg" [] true SignatureAlgorithm.choice.shape (·.algorithm) fun x draft =>
       { draft with algorithm := some x },
     optionalText "cty", optionalText "jku",
     incidental "jwk" (.checked (fun v => v = .null || isPublicKey v) (.missingField "kty")),
     optionalText "kid", optionalText "x5u",
     incidental "x5c" (.optional (.listOf .text)),
     optionalText "x5t", optionalText "x5t#S256"]
  blank := {}
  build draft := TokenHeader.mk <$> Json.need "alg" draft.algorithm

/-- The header of the tokens that are issued here. -/
def document : Json.Value := .object [("typ", .string "JWT"), ("alg", .string "HS256")]

end TokenHeader

end RoomRelay
