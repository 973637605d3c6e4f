import RoomRelay.Proofs.Token.Parts

/-!
# Tokens survive being issued

A token that is issued here is opened again under the same secret, and says of its holder what it
was issued for. It is accepted until its lifetime and the leeway are over and is out of date from
then on; there is no third answer.

## Main results

* `Token.open?_compose` — a composed token is opened into its header and its claims
* `TokenConfig.verify_issue` — what becomes of an issued token at every later time
-/

namespace RoomRelay

open Json (Value Numeral Tree Slot collect)

/-! ### Documents as records -/

namespace Json

variable {δ α : Type}

/-- Printed fields are collected like the fields themselves. -/
theorem collect_fieldTrees (slots : List (Slot δ Value)) {depth : Nat}
    {fields : List (String × Value)} {trees : List (String × Tree)}
    (h : Value.fieldTrees? fields = some trees) (hdepth : Tree.fieldDepth trees ≤ depth)
    (draft : δ) :
    collect (slots.map (Slot.written depth)) trees draft = collect slots fields draft := by
  induction fields generalizing trees draft with
  | nil =>
    obtain rfl := Option.some.inj h
    rfl
  | cons field fields ih =>
    obtain ⟨key, v⟩ := field
    simp only [Value.fieldTrees?, Option.bind_eq_some_iff, Option.map_eq_some_iff] at h
    obtain ⟨tree, htree, trees, htrees, rfl⟩ := h
    rw [Tree.fieldDepth, Nat.max_le] at hdepth
    -- The same slot takes the value and the tree that keeps it, so both go on from the same draft.
    have hfind : (slots.map (Slot.written depth)).find? (·.isNamed key) =
        (slots.find? (·.isNamed key)).map (Slot.written depth) := find?_through _ _ _
    have hv := v.valueWithin?_of_tree? htree hdepth.1
    simp only [collect, hfind, ih htrees hdepth.2]
    cases slots.find? (·.isNamed key) with
    | none => rfl
    | some slot => simp [Slot.written, Slot.through, hv]

/-- A printed object is read as the record that its fields make. -/
theorem Record.meaning?_tree (r : Record δ α) (slots : List (Slot δ Value)) (depth : Nat)
    {fields : List (String × Value)} {tree : Tree} (h : (Value.object fields).tree? = some tree)
    (hdepth : tree.depth ≤ depth + 1) :
    r.meaning? (fun depth => slots.map (Slot.written depth)) (depth + 1) tree =
      (collect slots fields r.blank).bind fun draft => (r.build draft).toOption := by
  obtain ⟨trees, htrees, rfl⟩ := Option.map_eq_some_iff.mp h
  rw [Record.meaning?, collect_fieldTrees slots htrees (by simpa [Tree.depth] using hdepth)]

end Json

/-! ### Opening what was composed -/

/-- The header of the tokens that are issued here is read back. -/
theorem TokenHeader.readPart_document :
    Token.readPart (record.read Json.depthLimit) (Token.part document) = some ⟨.hs256⟩ := by
  have htree : document.tree? = some (.object [("typ", .string "JWT"), ("alg", .string "HS256")]) :=
    rfl
  rw [(Token.writes_part htree).readPart_eq
    (Json.Record.Takes.interprets_read takes_record Json.depthLimit)]
  exact record.meaning?_tree slots 126 htree (by decide)

namespace Claims

/-- The times in claims that can be written. -/
def IsWritable (seconds : Int) : Prop := seconds.natAbs ≤ Bits.greatestSigned64

theorem IsWritable.tree? {seconds : Int} (h : IsWritable seconds) :
    (integer seconds).tree? = some (.number (.ofInt seconds)) := by
  unfold IsWritable Bits.greatestSigned64 at h
  rw [integer, Value.tree?, if_pos (by omega)]

theorem IsWritable.decode {seconds : Int} (h : IsWritable seconds) :
    (Json.Shape.integer.decode (integer seconds)).toOption = some seconds := by
  unfold IsWritable at h
  have hle : seconds ≤ Bits.greatestSigned64 := by omega
  simp [Json.Shape.integer, integer, Value.found, Json.Shape.ofInteger, hle, Except.toOption]

/-- Claims that are written are read back, except that they are meant for nobody in particular. -/
theorem readPart_document {c : Claims} (hissued : IsWritable c.issuedAt)
    (hexpires : IsWritable c.expiresAt) (haudience : c.hasAudience = false) :
    Token.readPart reader (Token.part c.document) = some c := by
  have htree : c.document.tree? = some (.object [("sub", .string c.subject),
      ("iat", .number (.ofInt c.issuedAt)), ("exp", .number (.ofInt c.expiresAt)),
      ("token_type", .string c.use.name)]) := by
    simp [document, Value.tree?, Value.fieldTrees?, hissued.tree?, hexpires.tree?]
  have huse : TokenUse.choice.ofValue? (.string c.use.name) = some c.use := by
    cases c.use <;> rfl
  have hsubject : (Json.Shape.text.decode (.string c.subject)).toOption = some c.subject := rfl
  have hcollect : collect slots [("sub", .string c.subject), ("iat", integer c.issuedAt),
      ("exp", integer c.expiresAt), ("token_type", .string c.use.name)] record.blank = some
        { subject := some c.subject, issuedAt := some c.issuedAt, expiresAt := some c.expiresAt,
          use := some c.use } := by
    simp [collect, slots, Slot.of, record, huse, hsubject, hissued.decode, hexpires.decode]
  have hmeaning := record.meaning?_tree slots 126 htree
    (by simp [Tree.depth, Tree.fieldDepth])
  rw [(Token.writes_part htree).readPart_eq interprets_reader]
  refine hmeaning.trans ?_
  rw [hcollect]
  obtain ⟨subject, issuedAt, expiresAt, use, hasAudience⟩ := c
  obtain rfl : hasAudience = false := haudience
  rfl

end Claims

namespace Token

theorem not_mem_part (document : Value) : '.' ∉ part document := Base64Url.not_mem_encode _

/-- A composed token is opened into its header and its claims. -/
theorem open?_compose {secret : String} {header payload : List Char} (hheader : '.' ∉ header)
    (hpayload : '.' ∉ payload) :
    open? secret (String.ofList (compose secret header payload)) =
      (readPart (TokenHeader.record.read Json.depthLimit) header).bind fun head =>
        (readPart Claims.reader payload).map (head, ·) := by
  have hmark : '.' ∉ signature secret (header ++ '.' :: payload) := Base64Url.not_mem_encode _
  have hsplit : (compose secret header payload).splitOn '.' =
      [header, payload, signature secret (header ++ '.' :: payload)] := by
    rw [compose, List.append_assoc, List.cons_append,
      List.splitOn_append_cons_self_of_not_mem hheader,
      List.splitOn_append_cons_self_of_not_mem hpayload, List.splitOn_eq_singleton hmark]
  simp only [open?, String.toList_ofList, hsplit, if_true, Option.bind_eq_bind]
  simp [Option.map_eq_bind]

end Token

/-! ### The life of a token -/

namespace TokenConfig

/-- A token that is issued can be opened, and says what it was issued for. -/
theorem open?_issue {config : TokenConfig} {userId token : String} {issued : Int}
    (h : config.issue userId issued = some token) :
    Token.open? config.secret token =
      some (⟨.hs256⟩, ⟨userId, issued, issued + config.lifetime, .access, false⟩) := by
  obtain ⟨claims, hclaims, rfl⟩ := Option.map_eq_some_iff.mp h
  obtain ⟨hdate, rfl⟩ : (config.lifetime.natAbs ≤ Token.longestLifetime ∧
      Token.hasDate (issued + config.lifetime) = true) ∧ _ = claims := by
    simpa [claims?] using hclaims
  -- The dates of the calendar are far from the bounds of 64 bits.
  have hbounds : Claims.IsWritable issued ∧ Claims.IsWritable (issued + config.lifetime) := by
    simp only [Token.longestLifetime, Token.hasDate, Bool.and_eq_true, decide_eq_true_eq] at hdate
    unfold Claims.IsWritable Bits.greatestSigned64
    omega
  have hread := Claims.readPart_document (c := ⟨userId, issued, issued + config.lifetime, .access,
    false⟩) hbounds.1 hbounds.2 rfl
  rw [Token.open?_compose (Token.not_mem_part _) (Token.not_mem_part _),
    TokenHeader.readPart_document, hread]
  rfl

/-- A token that is issued says until when it holds. It is accepted as that of its holder until the
leeway after that time is over, and is out of date from then on, whoever asks under the secret. No
clock shows a time before the year 1970, so that no token of a lifetime that is not negative expires
before it. -/
theorem verify_issue {config : TokenConfig} {userId token : String} {issued : Int}
    (hlifetime : 0 ≤ config.lifetime) (hissued : 0 ≤ issued) (huser : userId ≠ "")
    (htoken : config.issue userId issued = some token) :
    (∃ header claims, Token.open? config.secret token = some (header, claims) ∧
      claims.issuedAt = issued ∧ claims.expiresAt = claims.issuedAt + config.lifetime) ∧
    ∀ verifier : TokenConfig, verifier.secret = config.secret → ∀ now, issued ≤ now →
      verifier.verify token now =
        if now ≤ issued + config.lifetime + 60 then .ok userId else .error .tokenExpired := by
  have hopen := open?_issue htoken
  refine ⟨⟨_, _, hopen, rfl, rfl⟩, fun verifier hsecret now hnow => ?_⟩
  split_ifs with htime
  · refine verify_eq_ok_iff.mpr ⟨_, _, hsecret ▸ hopen, rfl, ?_, ?_, rfl, rfl, rfl, huser⟩
    · exact Int.add_nonneg hissued hlifetime
    · change now - 60 ≤ issued + config.lifetime
      omega
  · refine verify_eq_expired_iff.mpr ⟨_, _, hsecret ▸ hopen, rfl, ?_, ?_⟩
    · exact Int.add_nonneg hissued hlifetime
    · change issued + config.lifetime < now - 60
      omega

/-- Tokens that hold for an hour. -/
def hourly : TokenConfig where
  secret := "s"
  lifetime := 3600

/-- A name that needs escapes, and more than one byte for a character. -/
def oddName : String := "Zoë \"the 1st\"\n\\"

/-- A token of an hour is accepted for one hour and one minute. -/
theorem verify_issue_oddName : ∃ token, hourly.issue oddName 1000 = some token ∧
    hourly.verify token 4660 = .ok oddName ∧
    hourly.verify token 4661 = .error .tokenExpired := by
  obtain ⟨token, htoken⟩ : ∃ token, hourly.issue oddName 1000 = some token := ⟨_, rfl⟩
  obtain ⟨-, hverify⟩ := verify_issue (by decide) (by decide) (by decide) htoken
  exact ⟨token, htoken, hverify hourly rfl 4660 (by decide), hverify hourly rfl 4661 (by decide)⟩

end TokenConfig

end RoomRelay
