import RoomRelay.Proofs.Json.Fields
import RoomRelay.Proofs.Json.Outline
import RoomRelay.Proofs.Json.RoundTrip
import RoomRelay.Proofs.Text.Base64Url
import RoomRelay.Proofs.Text.Utf8
import RoomRelay.Token

/-!
# What the parts of a token are made of

The header and the claims are records, and each of their fields makes something of the value that
would be kept in its place. The slots below say what: the subject is a string, the times are
integers, the use and the algorithm are one of several words, and of most fields of a header
nothing is kept.

## Main definitions

* `TokenHeader.slots`, `Claims.slots` — the slots of the two records
* `Token.Writes` — a part is a text that spells a document

## Main results

* `TokenHeader.takes_record`, `Claims.takes_record` — the slots say what the fields make of values
* `Claims.interprets_reader` — claims are read as a record, but not from an array
* `Token.Writes.readPart_eq` — what is read of a part is the meaning of the document
* `TokenConfig.verify_eq_ok_iff` — which tokens are accepted
-/

namespace RoomRelay

open Json (Slot Value Shape Field Deferrable)

/-! ### The header -/

namespace TokenHeader

/-- The slot of a field of which nothing is kept. -/
def incidentalSlot {α : Type} (name : String) (shape : Shape α) : Slot Draft Value :=
  .of [name] (fun v => (shape.discarded.decode v).toOption)
    (fun draft => if name ∈ draft.others then some () else none)
    fun _ draft => { draft with others := name :: draft.others }

/-- The slots of a header. -/
def slots : List (Slot Draft Value) :=
  [incidentalSlot "typ" (.optional .text),
   .of ["alg"] SignatureAlgorithm.choice.ofValue? (·.algorithm) fun x draft =>
     { draft with algorithm := some x },
   incidentalSlot "cty" (.optional .text), incidentalSlot "jku" (.optional .text),
   incidentalSlot "jwk" (.checked (fun v => v = .null || isPublicKey v) (.missingField "kty")),
   incidentalSlot "kid" (.optional .text), incidentalSlot "x5u" (.optional .text),
   incidentalSlot "x5c" (.optional (.listOf .text)),
   incidentalSlot "x5t" (.optional .text), incidentalSlot "x5t#S256" (.optional .text)]

theorem takes_incidental {α : Type} {shape : Shape α} {depth : Nat}
    (h : ∀ input, shape.Deferrable depth input) (name : String) :
    (incidental name shape).Takes depth (incidentalSlot name shape) :=
  Field.takes_of name [] true (fun input => Shape.deferrable_discarded (h input)) _ _

theorem takes_optionalText (depth : Nat) (name : String) :
    (optionalText name).Takes depth (incidentalSlot name (.optional .text)) :=
  takes_incidental (Shape.deferrable_optional (Shape.deferrable_text depth)) name

theorem takes_record (depth : Nat) : record.Takes depth slots := by
  have hlist := Shape.deferrable_optional (Shape.deferrable_listOf Shape.deferrable_text depth)
  exact .cons (takes_optionalText depth _) <|
    .cons (Field.takes_of "alg" [] true (SignatureAlgorithm.choice.deferrable_read depth) _ _) <|
    .cons (takes_optionalText depth _) <| .cons (takes_optionalText depth _) <|
    .cons (takes_incidental (Shape.deferrable_checked _ _ depth) _) <|
    .cons (takes_optionalText depth _) <| .cons (takes_optionalText depth _) <|
    .cons (takes_incidental hlist _) <|
    .cons (takes_optionalText depth _) <| .cons (takes_optionalText depth _) .nil

end TokenHeader

/-! ### The claims -/

namespace Claims

/-- The slots of the claims. -/
def slots : List (Slot Draft Value) :=
  [.of ["sub"] (fun v => (Shape.text.decode v).toOption) (·.subject) fun x draft =>
     { draft with subject := some x },
   .of ["iat"] (fun v => (Shape.integer.decode v).toOption) (·.issuedAt) fun x draft =>
     { draft with issuedAt := some x },
   .of ["exp"] (fun v => (Shape.integer.decode v).toOption) (·.expiresAt) fun x draft =>
     { draft with expiresAt := some x },
   .of ["token_type"] TokenUse.choice.ofValue? (·.use) fun x draft => { draft with use := some x },
   .of ["nbf"] (fun v => ((Shape.checked isFlat .noCommaInObject).decode v).toOption)
     (·.notBefore) fun x draft => { draft with notBefore := some x },
   .of ["iss"] (fun v => (Shape.any.decode v).toOption) (·.issuer) fun x draft =>
     { draft with issuer := some x },
   .of ["aud"] (fun v => (Shape.any.decode v).toOption) (·.audience) fun x draft =>
     { draft with audience := some x }]

theorem takes_record (depth : Nat) : record.Takes depth slots :=
  .cons (Field.takes_of "sub" [] true (Shape.deferrable_text depth) _ _) <|
  .cons (Field.takes_of "iat" [] false (Shape.deferrable_integer depth) _ _) <|
  .cons (Field.takes_of "exp" [] true (Shape.deferrable_integer depth) _ _) <|
  .cons (Field.takes_of "token_type" [] false (TokenUse.choice.deferrable_read depth) _ _) <|
  .cons (Field.takes_of "nbf" [] false (Shape.deferrable_checked _ _ depth) _ _) <|
  .cons (Field.takes_of "iss" [] false (Shape.deferrable_any depth) _ _) <|
  .cons (Field.takes_of "aud" [] false (Shape.deferrable_any depth) _ _) .nil

/-- Claims are read as a record, but not from an array. -/
theorem run?_reader {input : Input} (shown : Input)
    (hshown : Json.run? Json.blanks input = some (shown.head?, shown)) :
    Json.run? reader input =
      if shown.head? = some (some '[') then none
      else Json.run? (record.read Json.depthLimit) input := by
  have hread : Json.run? (record.read Json.depthLimit) shown =
      Json.run? (record.read Json.depthLimit) input := by
    obtain ⟨shown', hshown', hagain⟩ := Json.run?_blanks input
    obtain ⟨-, rfl⟩ := Prod.mk.inj (Option.some.inj (hshown.symm.trans hshown'))
    unfold Json.Record.read
    rw [Json.run?_bind, Json.run?_bind, hagain, hshown]
  rw [reader, Json.run?_bind, hshown, Option.bind_some, ← hread]
  split
  · next hbracket => simp [show shown.head? = some (some '[') from hbracket]
  · next hbracket => rw [if_neg hbracket]

/-- What claims are made of: a record, but no array. -/
def meaning? : Json.Tree → Option Claims
  | .array _ => none
  | tree => record.meaning? (fun depth => slots.map (Slot.written depth)) Json.depthLimit tree

theorem interprets_reader : Json.Interprets reader meaning? := by
  intro tree b cs rest hb hcs hrest
  have hread := Json.Record.Takes.interprets_read takes_record Json.depthLimit hb hcs hrest
  obtain ⟨c, more, rfl, hopens⟩ := hcs.opens
  have hshown := Json.run?_blanks_cons hopens.not_mem.1 (more.map some ++ rest)
  rw [← Json.run?_blanks_append hb] at hshown
  simp only [List.map_cons, List.cons_append] at hread ⊢
  rw [run?_reader (some c :: (more.map some ++ rest)) hshown, hread]
  -- Only an array begins with a bracket.
  rcases tree with _ | (_ | _) | _ | _ | _ | _
  case number =>
    obtain ⟨-, -, -, -, -, hbracket, -⟩ := hopens.of_number
    simp [meaning?, hbracket]
  all_goals
    obtain rfl := hopens
    rfl

end Claims

/-! ### Parts of a token -/

namespace Token

/-- A part of a token is a text that spells this document. -/
def Writes (part : List Char) (tree : Json.Tree) : Prop :=
  ∃ text, Base64Url.decode? part = some (Utf8.bytes text) ∧ Json.IsText text tree

/-- A document is written by the part that is made of it. -/
theorem writes_part {document : Value} {tree : Json.Tree} (h : document.tree? = some tree) :
    Writes (part document) tree :=
  ⟨document.render, Base64Url.decode?_encode _, Value.isText_render h⟩

variable {α : Type} {reader : Json.Reader α}

/-- What is read of a part is the meaning of the document that it writes. -/
theorem Writes.readPart_eq {meaning : Json.Tree → Option α} {part : List Char} {tree : Json.Tree}
    (h : Writes part tree) (hreader : Json.Interprets reader meaning) :
    readPart reader part = meaning tree := by
  obtain ⟨text, hbytes, htext⟩ := h
  simp only [readPart, hbytes, Option.bind_eq_bind, Option.bind_some, Utf8.symbols_bytes]
  exact Json.toOption_parseWith_of_isText hreader htext

end Token

/-! ### Answers about a token -/

namespace TokenConfig

variable {config : TokenConfig} {token : String} {now : Int}

/-- Which claims are accepted. -/
theorem decode_eq_ok_iff {claims : Claims} :
    config.decode token now = .ok claims ↔
      ∃ header, Token.open? config.secret token = some (header, claims) ∧
        header.algorithm = .hs256 ∧ 0 ≤ claims.expiresAt ∧ now - 60 ≤ claims.expiresAt ∧
        claims.hasAudience = false := by
  unfold decode Token.leeway
  constructor
  · intro h
    cases hopen : Token.open? config.secret token with
    | none => simp [hopen] at h
    | some opened =>
      simp only [hopen] at h
      split_ifs at h with hheader hlate haudience
      obtain rfl := Except.ok.inj h
      rw [not_or, not_not, Int.not_lt] at hheader
      exact ⟨opened.1, rfl, hheader.1, hheader.2, Int.not_lt.mp hlate, by simpa using haudience⟩
  · rintro ⟨header, hopen, halgorithm, hexpires, hnow, haudience⟩
    have hheader : ¬ (header.algorithm ≠ .hs256 ∨ claims.expiresAt < 0) := by
      rw [not_or, not_not, Int.not_lt]
      exact ⟨halgorithm, hexpires⟩
    simp only [hopen]
    rw [if_neg hheader, if_neg (Int.not_lt.mpr hnow), if_neg (by simp [haudience])]

/-- Which tokens are accepted, and as whose. -/
theorem verify_eq_ok_iff {userId : String} :
    config.verify token now = .ok userId ↔
      ∃ header claims, Token.open? config.secret token = some (header, claims) ∧
        header.algorithm = .hs256 ∧ 0 ≤ claims.expiresAt ∧ now - 60 ≤ claims.expiresAt ∧
        claims.hasAudience = false ∧ claims.use = .access ∧ claims.subject = userId ∧
        userId ≠ "" := by
  have hdecode : config.verify token now = .ok userId ↔ ∃ claims,
      config.decode token now = .ok claims ∧ claims.use = .access ∧ claims.subject = userId ∧
        userId ≠ "" := by
    unfold verify
    cases config.decode token now with
    | error failure => simp [bind, Except.bind]
    | ok claims =>
      simp only [bind, Except.bind, Except.ok.injEq, exists_eq_left']
      split_ifs with h <;> simp [pure, Except.pure] <;> grind
  simp only [hdecode, decode_eq_ok_iff]
  grind

/-- Which tokens are out of date. -/
theorem verify_eq_expired_iff :
    config.verify token now = .error .tokenExpired ↔
      ∃ header claims, Token.open? config.secret token = some (header, claims) ∧
        header.algorithm = .hs256 ∧ 0 ≤ claims.expiresAt ∧ claims.expiresAt < now - 60 := by
  have hdecode : config.verify token now = .error .tokenExpired ↔
      config.decode token now = .error .tokenExpired := by
    unfold verify
    cases config.decode token now with
    | error failure => simp [bind, Except.bind]
    | ok claims =>
      simp only [bind, Except.bind]
      split_ifs <;> simp [pure, Except.pure]
  rw [hdecode]
  unfold decode Token.leeway
  cases Token.open? config.secret token with
  | none => simp
  | some opened =>
    simp only []
    split_ifs <;> grind

end TokenConfig

end RoomRelay
