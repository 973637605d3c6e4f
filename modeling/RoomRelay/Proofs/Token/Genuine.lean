import RoomRelay.Proofs.Json.Entries
import RoomRelay.Proofs.Text.Pieces
import RoomRelay.Proofs.Token.RoundTrip

/-!
# Only genuine tokens are accepted

Whoever can make up a token as he likes cannot make one that is accepted, unless it is signed under
the secret. What is accepted consists of three parts; the third one is the signature of the others,
written in the only way in which it can be written, and the others are documents that say what they
have to say once and clearly. This holds of every text, also of one that is no document in a
strict sense: a field that nobody wants may hold what it likes.

## Main definitions

* `Token.HasFields`, `Token.HasItems` — a part is an object with these fields, or an array
* `TokenHeader.Names`, `Claims.Entitles` — what an accepted header and accepted claims say

## Main results

* `TokenHeader.names_of_readPart`, `Claims.entitles_of_readPart` — what has been read stands there
* `TokenHeader.word_of_writes`, `Claims.word_of_writes` — no other word is read as what was read
* `TokenConfig.genuine_of_verify` — what an accepted token consists of
-/

namespace RoomRelay

open Json (Value Tree Slot Place Blanks collect fill)

/-! ### Parts of a token -/

namespace Token

/-- A part of a token is an object with these fields, and with nothing but blanks around it. Of
fields that nobody wants no value is kept. -/
def HasFields (part : List Char) (entries : List (String × Option Value)) : Prop :=
  ∃ bytes b, Base64Url.decode? part = some bytes ∧ Blanks b ∧
    Json.IsObject 126 entries (Utf8.symbols bytes) (b.map some)

/-- A part of a token is an array with these items, and with nothing but blanks around it. -/
def HasItems (part : List Char) (items : List Value) : Prop :=
  ∃ bytes b, Base64Url.decode? part = some bytes ∧ Blanks b ∧
    Json.IsArray 126 items (Utf8.symbols bytes) (b.map some)

/-- What is read of a part is all that the part holds. -/
theorem run?_of_readPart {α : Type} {reader : Json.Reader α} {part : List Char} {x : α}
    (h : readPart reader part = some x) :
    ∃ bytes b, Base64Url.decode? part = some bytes ∧ Blanks b ∧
      Json.run? reader (Utf8.symbols bytes) = some (x, b.map some) := by
  obtain ⟨bytes, hbytes, hparse⟩ := Option.bind_eq_some_iff.mp h
  rw [Json.toOption_parseInput, Json.run?_seqLeft] at hparse
  obtain ⟨⟨_, _⟩, hrun, rfl⟩ := Option.map_eq_some_iff.mp hparse
  obtain ⟨⟨x, rest⟩, hread, hrun⟩ := Option.bind_eq_some_iff.mp hrun
  obtain ⟨⟨_, _⟩, hfinish, ⟨⟩⟩ := Option.map_eq_some_iff.mp hrun
  obtain ⟨b, shown, hb, rfl, hshown⟩ := Json.exists_blanks rest
  rw [Json.finish, Json.run?_bind, hshown, Option.bind_some] at hfinish
  cases shown with
  | nil => exact ⟨bytes, b, hbytes, hb, by rw [hread, List.append_nil]⟩
  | cons s shown => cases hfinish

end Token

/-! ### Words -/

/-- A value stands for a word: a string, or an object that maps the word to `null`. -/
def Json.Value.IsWord (v : Value) (word : String) : Prop :=
  v = .string word ∨ v = .object [(word, .null)]

namespace Json.Choice

variable {α : Type} {choice : Choice α} {x : α}

theorem mem_of_find? {word : String} (h : choice.find? word = some x) :
    (word, x) ∈ choice.words := by
  obtain ⟨entry, hentry, rfl⟩ := Option.map_eq_some_iff.mp h
  obtain rfl : entry.1 = word := by simpa using List.find?_some hentry
  exact List.mem_of_find?_eq_some hentry

theorem isWord_of_ofValue? {v : Value} (h : choice.ofValue? v = some x) :
    ∃ word, choice.find? word = some x ∧ v.IsWord word := by
  unfold ofValue? at h
  split at h
  · exact ⟨_, h, .inl rfl⟩
  · unfold sole? at h
    split at h
    · exact ⟨_, h, .inr rfl⟩
    · cases h
  · cases h

end Json.Choice

/-! ### The header -/

namespace TokenHeader

/-- A header names an algorithm: in its only field for it, or as its second item. -/
def Names (header : List Char) (algorithm : String) : Prop :=
  ∃ v : Value, v.IsWord algorithm ∧
    ((∃ entries, Token.HasFields header entries ∧
        entries.filter (·.1 = "alg") = [("alg", some v)]) ∨
      ∃ items, Token.HasItems header items ∧ items[1]? = some v)

theorem name_hs256 {word : String} (h : SignatureAlgorithm.choice.find? word = some .hs256) :
    word = "HS256" := by
  simpa [SignatureAlgorithm.choice] using Json.Choice.mem_of_find? h

theorem incidentalSlot_spares {α : Type} (name : String) (shape : Json.Shape α) :
    (incidentalSlot name shape).Spares (·.algorithm) :=
  Slot.of_spares fun _ _ => rfl

theorem place_algorithm :
    Place slots "alg" SignatureAlgorithm.choice.ofValue? (·.algorithm) := by
  refine Place.of_slot (fun x draft => { draft with algorithm := some x }) rfl
    (fun _ _ => rfl) ?_
  simp only [slots, List.forall_mem_cons, incidentalSlot_spares, true_or, true_and,
    List.not_mem_nil, false_implies, implies_true, and_true]
  exact .inr fun _ hkey => Slot.eq_of_isNamed hkey

theorem algorithm_of_build {draft : Draft} {head : TokenHeader}
    (h : (record.build draft).toOption = some head) : draft.algorithm = some head.algorithm := by
  cases halgorithm : draft.algorithm with
  | none => simp [record, Json.need, halgorithm, Json.refuse, Except.toOption] at h
  | some x =>
    obtain rfl : TokenHeader.mk x = head := by
      simpa [record, Json.need, halgorithm, Except.toOption] using h
    rfl

/-- The second item of a header that is an array is its algorithm. -/
theorem algorithm_of_fill {items : List Value} {draft : Draft}
    (h : fill ((record.fields.map (·.required)).zip slots) items record.blank = some draft) :
    ∃ v, items[1]? = some v ∧ SignatureAlgorithm.choice.ofValue? v = draft.algorithm := by
  match items, h with
  | [], h => cases h
  | [_], h =>
    obtain ⟨_, -, h⟩ := Option.bind_eq_some_iff.mp h
    cases h
  | first :: v :: items, h =>
    obtain ⟨draft₁, hfirst, h⟩ := Option.bind_eq_some_iff.mp h
    obtain ⟨draft₂, hput, hmore⟩ := Option.bind_eq_some_iff.mp h
    obtain ⟨x, hx, rfl⟩ := Option.map_eq_some_iff.mp hput
    have hkept := Json.fill_spares (·.algorithm) (fun slot hslot => ?_) hmore
    · exact ⟨v, rfl, hx.trans hkept.symm⟩
    · -- The slots behind the second one keep nothing of their values.
      have hmem := (List.of_mem_zip hslot).2
      simp only [List.mem_cons, List.not_mem_nil, or_false] at hmem
      obtain h | h | h | h | h | h | h | h := hmem <;>
        exact h ▸ incidentalSlot_spares _ _

/-- What has been read as a header names its algorithm. -/
theorem names_of_readPart {header : List Char}
    (h : Token.readPart (record.read Json.depthLimit) header = some ⟨.hs256⟩) :
    Names header "HS256" := by
  obtain ⟨bytes, b, hbytes, hb, hrun⟩ := Token.run?_of_readPart h
  obtain ⟨draft, hbuild, hread⟩ := (takes_record 126).of_run?_read hrun
  have hdraft := algorithm_of_build hbuild
  obtain ⟨entries, hobject, hcollect⟩ | ⟨items, harray, hfill⟩ := hread
  · obtain ⟨v, hentries, hv⟩ := place_algorithm.kept_of_some rfl hcollect hdraft
    obtain ⟨word, hword, hspells⟩ := Json.Choice.isWord_of_ofValue? hv
    obtain rfl := name_hs256 hword
    exact ⟨v, hspells, .inl ⟨entries, ⟨bytes, b, hbytes, hb, hobject⟩, hentries⟩⟩
  · obtain ⟨v, hitem, hv⟩ := algorithm_of_fill hfill
    rw [hdraft] at hv
    obtain ⟨word, hword, hspells⟩ := Json.Choice.isWord_of_ofValue? hv
    obtain rfl := name_hs256 hword
    exact ⟨v, hspells, .inr ⟨items, ⟨bytes, b, hbytes, hb, harray⟩, hitem⟩⟩

/-- Where a document names an algorithm by a string, the header is read as naming this one. -/
theorem word_of_writes {header : List Char} {head : TokenHeader}
    {fields : List (String × Tree)} {word : String}
    (h : Token.readPart (record.read Json.depthLimit) header = some head)
    (hwrites : Token.Writes header (.object fields)) (hword : ("alg", .string word) ∈ fields) :
    SignatureAlgorithm.choice.find? word = some head.algorithm := by
  have hread := Json.Record.Takes.interprets_read takes_record Json.depthLimit
  rw [hwrites.readPart_eq hread] at h
  obtain ⟨draft, hcollect, hbuild⟩ := Option.bind_eq_some_iff.mp h
  have hplace := place_algorithm.through (Tree.valueWithin? 126)
  obtain ⟨x, hx, hget⟩ := hplace.of_collect_mem rfl hcollect hword
  rw [← algorithm_of_build hbuild, hget]
  exact hx

end TokenHeader

/-! ### The claims -/

namespace Claims

/-- Claims say who may do something at a time, and nothing that speaks against it. Each of the
fields that count is there once, or not at all. -/
structure Entitles (entries : List (String × Option Value)) (userId : String) (now : Int) :
    Prop where
  /-- They name one user. -/
  subject : entries.filter (·.1 = "sub") = [("sub", some (.string userId))]
  subject_ne : userId ≠ ""
  /-- They say until when they hold, and this is not over, but for the leeway. -/
  expires : ∃ e : Int, entries.filter (·.1 = "exp") = [("exp", some (.number (.int e)))] ∧
    0 ≤ e ∧ now - 60 ≤ e
  /-- They are not for anything but access. -/
  use : entries.filter (·.1 = "token_type") = [] ∨
    ∃ v : Value, v.IsWord "access" ∧
      entries.filter (·.1 = "token_type") = [("token_type", some v)]
  /-- They are meant for nobody in particular. -/
  audience : ∀ v?, ("aud", v?) ∈ entries → ∃ v, v? = some v ∧ (∀ name, v ≠ .string name) ∧
    ∀ names : List String, v ≠ .array (names.map .string)

theorem place_subject :
    Place slots "sub" (fun v => (Json.Shape.text.decode v).toOption) (·.subject) := by
  refine Place.of_slot (fun x draft => { draft with subject := some x }) rfl
    (fun _ _ => rfl) ?_
  simp only [slots, List.forall_mem_cons, List.not_mem_nil, false_implies, implies_true, and_true]
  refine ⟨.inr fun _ hkey => Slot.eq_of_isNamed hkey, ?_, ?_, ?_, ?_, ?_, ?_⟩ <;>
    exact .inl (Slot.of_spares fun _ _ => rfl)

theorem place_expiresAt :
    Place slots "exp" (fun v => (Json.Shape.integer.decode v).toOption) (·.expiresAt) := by
  refine Place.of_slot (fun x draft => { draft with expiresAt := some x }) rfl
    (fun _ _ => rfl) ?_
  simp only [slots, List.forall_mem_cons, List.not_mem_nil, false_implies, implies_true, and_true]
  refine ⟨?_, ?_, .inr fun _ hkey => Slot.eq_of_isNamed hkey, ?_, ?_, ?_, ?_⟩ <;>
    exact .inl (Slot.of_spares fun _ _ => rfl)

theorem place_use : Place slots "token_type" TokenUse.choice.ofValue? (·.use) := by
  refine Place.of_slot (fun x draft => { draft with use := some x }) rfl
    (fun _ _ => rfl) ?_
  simp only [slots, List.forall_mem_cons, List.not_mem_nil, false_implies, implies_true, and_true]
  refine ⟨?_, ?_, ?_, .inr fun _ hkey => Slot.eq_of_isNamed hkey, ?_, ?_, ?_⟩ <;>
    exact .inl (Slot.of_spares fun _ _ => rfl)

theorem place_audience :
    Place slots "aud" (fun v => (Json.Shape.any.decode v).toOption) (·.audience) := by
  refine Place.of_slot (fun x draft => { draft with audience := some x }) rfl
    (fun _ _ => rfl) ?_
  simp only [slots, List.forall_mem_cons, List.not_mem_nil, false_implies, implies_true, and_true]
  refine ⟨?_, ?_, ?_, ?_, ?_, ?_, .inr fun _ hkey => Slot.eq_of_isNamed hkey⟩ <;>
    exact .inl (Slot.of_spares fun _ _ => rfl)

theorem name_access {word : String} (h : TokenUse.choice.find? word = some .access) :
    word = "access" := by
  simpa [TokenUse.choice] using Json.Choice.mem_of_find? h

theorem string_of_decode {v : Value} {name : String}
    (h : (Json.Shape.text.decode v).toOption = some name) : v = .string name := by
  cases v with
  | string text => exact congrArg Value.string (Option.some.inj h)
  | _ => cases h

theorem integer_of_decode {v : Value} {n : Int}
    (h : (Json.Shape.integer.decode v).toOption = some n) : v = .number (.int n) := by
  obtain _ | _ | (i | _) | _ | _ | _ := v
  case number.int =>
    simp only [Json.Shape.integer, Value.found, Json.Shape.ofInteger] at h
    split_ifs at h
    · obtain rfl := Option.some.inj h
      rfl
    · cases h
  all_goals cases h

/-- A name stays a name, and a list of names a list of names, in canonical form. -/
theorem isAudience_canonical (names : List String) :
    (∀ name, isAudience (Value.string name).canonical = true) ∧
      isAudience (Value.array (names.map .string)).canonical = true := by
  have hitems : Value.canonicalItems (names.map .string) = names.map .string := by
    induction names with
    | nil => rfl
    | cons name names ih => simp [Value.canonicalItems, Value.canonical, ih]
  refine ⟨fun _ => rfl, ?_⟩
  simp [Value.canonical, hitems, isAudience, Value.string?]

/-- What claims are built from. -/
theorem of_build {draft : Draft} {claims : Claims}
    (h : (record.build draft).toOption = some claims) :
    draft.subject = some claims.subject ∧ draft.expiresAt = some claims.expiresAt ∧
      draft.use.getD .access = claims.use ∧ draft.audience.any isAudience = claims.hasAudience := by
  cases hsubject : draft.subject with
  | none => simp [record, Json.need, hsubject, Json.refuse, Except.toOption, bind, Except.bind] at h
  | some subject =>
    cases hexpires : draft.expiresAt with
    | none =>
      simp [record, Json.need, hsubject, hexpires, Json.refuse, Except.toOption, bind,
        Except.bind] at h
    | some expiresAt =>
      simp only [record, hsubject, hexpires, Json.need] at h
      obtain rfl := Option.some.inj h
      exact ⟨rfl, rfl, rfl, rfl⟩

/-- What has been read as claims are the fields of an object. -/
theorem fields_of_readPart {payload : List Char} {claims : Claims}
    (h : Token.readPart reader payload = some claims) :
    ∃ entries draft, Token.HasFields payload entries ∧
      collect (slots.map Slot.kept) entries record.blank = some draft ∧
      (record.build draft).toOption = some claims := by
  obtain ⟨bytes, b, hbytes, hb, hrun⟩ := Token.run?_of_readPart h
  obtain ⟨shown, hshown, -⟩ := Json.run?_blanks (Utf8.symbols bytes)
  rw [run?_reader shown hshown] at hrun
  split_ifs at hrun with hbracket
  obtain ⟨draft, hbuild, hread⟩ := (takes_record 126).of_run?_read hrun
  obtain ⟨entries, hobject, hcollect⟩ | ⟨items, harray, -⟩ := hread
  · exact ⟨entries, draft, ⟨bytes, b, hbytes, hb, hobject⟩, hcollect, hbuild⟩
  · -- Claims are not read from an array.
    obtain ⟨b', trees, cs, hb', hcs, -, hinput⟩ := harray
    obtain ⟨c, more, rfl, hopens⟩ := hcs.opens
    obtain rfl : c = '[' := hopens
    rw [hinput, Json.run?_blanks_append hb', List.map_cons, List.cons_append,
      Json.run?_blanks_cons (by decide)] at hshown
    exact absurd (Prod.mk.inj (Option.some.inj hshown)).1.symm hbracket

/-- What has been read as claims that are accepted stands in them. -/
theorem entitles_of_readPart {payload : List Char} {claims : Claims} {now : Int}
    (h : Token.readPart reader payload = some claims) (hexpires : 0 ≤ claims.expiresAt)
    (hnow : now - 60 ≤ claims.expiresAt) (haudience : claims.hasAudience = false)
    (huse : claims.use = .access) (hsubject : claims.subject ≠ "") :
    ∃ entries, Token.HasFields payload entries ∧ Entitles entries claims.subject now := by
  obtain ⟨entries, draft, hfields, hcollect, hbuild⟩ := fields_of_readPart h
  obtain ⟨hsubject', hexpires', huse', haudience'⟩ := of_build hbuild
  refine ⟨entries, hfields, ?_, hsubject, ⟨claims.expiresAt, ?_, hexpires, hnow⟩, ?_, ?_⟩
  · obtain ⟨v, hentries, hv⟩ := place_subject.kept_of_some rfl hcollect hsubject'
    rwa [string_of_decode hv] at hentries
  · obtain ⟨v, hentries, hv⟩ := place_expiresAt.kept_of_some rfl hcollect hexpires'
    rwa [integer_of_decode hv] at hentries
  · -- The use may be left out; if it is given it must be the word for access.
    obtain ⟨hnone, -⟩ | ⟨v, y, hentries, hv, hy⟩ := place_use.of_collect_kept rfl hcollect
    · exact .inl hnone
    · rw [hy, Option.getD_some, huse] at huse'
      subst huse'
      obtain ⟨word, hword, hspells⟩ := Json.Choice.isWord_of_ofValue? hv
      obtain rfl := name_access hword
      exact .inr ⟨v, hspells, hentries⟩
  · -- An audience is kept in canonical form, in which a list of names is one still.
    intro v? hmem
    have hfilter : ("aud", v?) ∈ entries.filter (·.1 = "aud") :=
      List.mem_filter.mpr ⟨hmem, by simp⟩
    obtain ⟨hnone, -⟩ | ⟨v, y, hentries, hv, hy⟩ := place_audience.of_collect_kept rfl hcollect
    · rw [hnone] at hfilter
      cases hfilter
    · obtain ⟨-, rfl⟩ := Prod.mk.inj (List.mem_singleton.mp (hentries ▸ hfilter))
      obtain rfl : v.canonical = y := Option.some.inj hv
      rw [hy, Option.any_some, haudience] at haudience'
      refine ⟨v, rfl, fun name hname => ?_, fun names hnames => ?_⟩
      · rw [hname, (isAudience_canonical []).1] at haudience'
        cases haudience'
      · rw [hnames, (isAudience_canonical names).2] at haudience'
        cases haudience'

/-- Where a document says what a token is for by a string, the claims are read as saying so. -/
theorem word_of_writes {payload : List Char} {claims : Claims} {fields : List (String × Tree)}
    {word : String} (h : Token.readPart reader payload = some claims)
    (hwrites : Token.Writes payload (.object fields))
    (hword : ("token_type", .string word) ∈ fields) :
    TokenUse.choice.find? word = some claims.use := by
  rw [hwrites.readPart_eq interprets_reader] at h
  obtain ⟨draft, hcollect, hbuild⟩ := Option.bind_eq_some_iff.mp h
  have hplace := place_use.through (Tree.valueWithin? 126)
  obtain ⟨use, huse, hget⟩ := hplace.of_collect_mem rfl hcollect hword
  obtain ⟨-, -, hbuilt, -⟩ := of_build hbuild
  rw [← hbuilt, hget]
  exact huse

end Claims

/-! ### Whole tokens -/

/-- A text has one first point. -/
theorem Token.append_point_inj {a a' x x' : List Char} (ha : '.' ∉ a) (ha' : '.' ∉ a') :
    a ++ '.' :: x = a' ++ '.' :: x' ↔ a = a' ∧ x = x' := by
  refine ⟨fun h => ?_, fun ⟨hfirst, hrest⟩ => by rw [hfirst, hrest]⟩
  have hsplit := congrArg (List.splitOn '.') h
  rw [List.splitOn_append_cons_self_of_not_mem ha,
    List.splitOn_append_cons_self_of_not_mem ha'] at hsplit
  obtain rfl := (List.cons.inj hsplit).1
  exact ⟨rfl, (List.cons.inj (List.append_cancel_left h)).2⟩

/-- A token that is opened consists of a header and a payload, without points in them, and of their
signature under the secret. -/
theorem Token.parts_of_open {secret token : String} {head : TokenHeader} {claims : Claims}
    (h : Token.open? secret token = some (head, claims)) :
    ∃ header payload, '.' ∉ header ∧ '.' ∉ payload ∧
      token.toList = header ++ '.' :: (payload ++ '.' ::
        Token.signature secret (header ++ '.' :: payload)) ∧
      Token.readPart (TokenHeader.record.read Json.depthLimit) header = some head ∧
      Token.readPart Claims.reader payload = some claims := by
  unfold Token.open? at h
  split at h
  · next header payload mark hsplit =>
    obtain ⟨head', hhead, h⟩ := Option.bind_eq_some_iff.mp h
    split_ifs at h with hmark
    obtain ⟨claims', hclaims, ⟨⟩⟩ := Option.bind_eq_some_iff.mp h
    have hheader : '.' ∉ header := (mem_splitOn_iff.mp (hsplit ▸ List.mem_cons_self)).1
    have hpayload : '.' ∉ payload :=
      (mem_splitOn_iff.mp (hsplit ▸ List.mem_cons_of_mem _ List.mem_cons_self)).1
    refine ⟨header, payload, hheader, hpayload, ?_, hhead, hclaims⟩
    have hjoin : ['.'].intercalate (token.toList.splitOn '.') = token.toList :=
      List.intercalate_splitOn '.'
    rw [hsplit] at hjoin
    rw [← hmark, ← hjoin]
    simp [List.intercalate]
  · cases h

namespace TokenConfig

/-- What is accepted as the token of a user, whoever has made it, consists of three parts with
points between them. The header names one algorithm, and no document with another one is taken for
such a header. The payload says that the user may do something now, and no document about another
use is taken for such a payload. The third part is the code of the other two under the secret, with
no other text accepted in its place at any time. -/
theorem genuine_of_verify {config : TokenConfig} {token userId : String} {now : Int}
    (h : config.verify token now = .ok userId) :
    ∃ header payload mark, token.toList = header ++ '.' :: (payload ++ '.' :: mark) ∧
      '.' ∉ header ∧ '.' ∉ payload ∧
      mark = Base64Url.encode (Mac.code (Utf8.bytes config.secret)
        (Utf8.bytes (String.ofList (header ++ '.' :: payload)))) ∧
      TokenHeader.Names header "HS256" ∧
      (∃ entries, Token.HasFields payload entries ∧ Claims.Entitles entries userId now) ∧
      (∀ mark' now' userId', config.verify
        (String.ofList (header ++ '.' :: (payload ++ '.' :: mark'))) now' = .ok userId' →
          mark' = mark) ∧
      (∀ fields name, Token.Writes header (.object fields) →
        ("alg", .string name) ∈ fields → name = "HS256") ∧
      (∀ fields name, Token.Writes payload (.object fields) →
        ("token_type", .string name) ∈ fields → name = "access") := by
  obtain ⟨head, claims, hopen, halgorithm, hexpires, hnow, haudience, huse, rfl, huser⟩ :=
    verify_eq_ok_iff.mp h
  obtain ⟨header, payload, hheader, hpayload, htoken, hhead, hclaims⟩ := Token.parts_of_open hopen
  obtain rfl : head = ⟨.hs256⟩ := by
    obtain ⟨algorithm⟩ := head
    exact congrArg TokenHeader.mk halgorithm
  refine ⟨header, payload, _, htoken, hheader, hpayload, rfl, TokenHeader.names_of_readPart hhead,
    Claims.entitles_of_readPart hclaims hexpires hnow haudience huse huser, ?_, ?_, ?_⟩
  · -- The points are the same in both tokens, so that both are signed for the same parts.
    intro mark' now' userId' h'
    obtain ⟨_, _, hopen', -⟩ := verify_eq_ok_iff.mp h'
    obtain ⟨header', payload', hheader', hpayload', htoken', -⟩ := Token.parts_of_open hopen'
    rw [String.toList_ofList] at htoken'
    obtain ⟨rfl, hmore⟩ := (Token.append_point_inj hheader hheader').mp htoken'
    obtain ⟨rfl, hmark⟩ := (Token.append_point_inj hpayload hpayload').mp hmore
    exact hmark
  · intro fields name hwrites hname
    exact TokenHeader.name_hs256 (TokenHeader.word_of_writes hhead hwrites hname)
  · intro fields name hwrites hname
    exact Claims.name_access (huse ▸ Claims.word_of_writes hclaims hwrites hname)

/-- The token of a user with an odd name says what it has to say, and has no other signature. -/
theorem genuine_of_verify_oddName : ∃ token, hourly.issue oddName 1000 = some token ∧
    hourly.verify token 1000 = .ok oddName ∧
    ∃ header payload mark, token.toList = header ++ '.' :: (payload ++ '.' :: mark) ∧
      TokenHeader.Names header "HS256" ∧
      (∃ entries, Token.HasFields payload entries ∧ Claims.Entitles entries oddName 1000) ∧
      ∀ mark' now' userId', hourly.verify
        (String.ofList (header ++ '.' :: (payload ++ '.' :: mark'))) now' = .ok userId' →
          mark' = mark := by
  obtain ⟨token, htoken⟩ : ∃ token, hourly.issue oddName 1000 = some token := ⟨_, rfl⟩
  have hverify : hourly.verify token 1000 = .ok oddName :=
    verify_eq_ok_iff.mpr ⟨_, _, open?_issue htoken, rfl, by decide, by decide, rfl, rfl, rfl,
      by decide⟩
  obtain ⟨header, payload, mark, hparts, -, -, -, hnames, hentitles, hunique, -⟩ :=
    genuine_of_verify hverify
  exact ⟨token, htoken, hverify, header, payload, mark, hparts, hnames, hentitles, hunique⟩

end TokenConfig

end RoomRelay
