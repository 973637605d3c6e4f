import Mathlib.Data.List.Permutation
import RoomRelay.Proofs.Json.Records
import RoomRelay.Protocol.Command

/-!
# Every spelling of a command

A command can be spelt in many ways: its keys and its word have old and new forms, fields stand in
any order, a field may be left out if it has its default, and the text may be spaced and escaped as
one likes. All of them are read as the command. A text that gives a part or a field of the command
twice is read as none.

Whether the payload is read as it stands, behind its type, or kept and decoded later, in front of
it, the same slots are filled; only what an entry means differs. So the proofs are about *meanings*
of entries, which are given twice.

## Main definitions

* `Command.Meanings`, `Command.IsPayload` — the entries that spell the payload of a command
* `Command.IsFrame` — the documents that spell a command
* `Command.GivesTwice` — a part or a field is given twice

## Main results

* `Command.parse_frame` — every text that spells a command is read as the command, and a text that
  gives something twice is rejected
-/

namespace RoomRelay.Command

open Json

variable {τ τ' β : Type}

/-! ### What spells a command -/

/-- What the entries of a payload mean. -/
structure Meanings (τ : Type) where
  /-- A text. -/
  text : τ → Option String
  /-- A truth value. -/
  flag : τ → Option Bool
  /-- The kind of a message. -/
  kind : τ → Option MessageKind
  /-- What is attached to a message. -/
  metadata : τ → Option (Option Value)

/-- The keys of the room. -/
def roomKeys : List String := ["roomId", "conversationId"]

/-- The keys of the kind of a message. -/
def kindKeys : List String := ["kind", "type"]

/-- A field that may be left out if it has its default. -/
inductive IsOptional (keys : List String) (meaning : τ → Option β) (default : β) :
    β → List (String × τ) → Prop
  | given {key : String} {x : τ} {value : β} :
      key ∈ keys → meaning x = some value → IsOptional keys meaning default value [(key, x)]
  | omitted : IsOptional keys meaning default default []

/-- The entries of the payload of a command, in one order. -/
inductive IsPayload (m : Meanings τ) : Command → List (String × τ) → Prop
  | join {key room : String} {x : τ} :
      key ∈ roomKeys → m.text x = some room → IsPayload m (.joinRoom room) [(key, x)]
  | leave {key room : String} {x : τ} :
      key ∈ roomKeys → m.text x = some room → IsPayload m (.leaveRoom room) [(key, x)]
  | typing {key room : String} {flag : Bool} {x : τ} {flags : List (String × τ)} :
      key ∈ roomKeys → m.text x = some room → IsOptional ["isTyping"] m.flag false flag flags →
      IsPayload m (.typing room flag) ((key, x) :: flags)
  | send {key : String} {payload : SendPayload} {x y : τ} {kinds attached : List (String × τ)} :
      key ∈ roomKeys → m.text x = some payload.roomId → m.text y = some payload.content →
      IsOptional kindKeys m.kind .text payload.kind kinds →
      IsOptional ["metadata"] m.metadata none payload.metadata attached →
      IsPayload m (.sendMessage payload) ((key, x) :: ("content", y) :: (kinds ++ attached))

/-- The words for a kind of command. -/
def spellings : Kind → List String
  | .join => ["join_room", "join_conversation"]
  | .leave => ["leave_room", "leave_conversation"]
  | .send => ["send_message"]
  | .typing => ["typing"]

/-- What the entries of a written payload mean. Numbers are integers of 64 bits. -/
def written : Meanings Tree where
  text := Tree.text?
  flag := Tree.flag?
  kind tree := tree.text?.bind fun word =>
    [.text, .image, .file, .video].find? fun kind => kind.name = word
  metadata := Tree.optional? fun tree => (tree.value? Numeral.integer?).map Value.canonical

/-- What the entries of a payload denote if a number may be any that a numeral denotes. -/
def denoted : Meanings Tree :=
  { written with
    metadata := Tree.optional? fun tree => (tree.value? Numeral.number?).map Value.canonical }

/-- The documents that spell a command, once it is said what the entries of its payload mean. -/
def IsFrameOf (m : Meanings Tree) (command : Command) (tree : Tree) : Prop :=
  ∃ word plain payload entries, word ∈ spellings command.kind ∧
    IsPayload m command plain ∧ plain.Perm payload ∧
    [("type", Tree.string word), ("payload", Tree.object payload)].Perm entries ∧
    tree = .object entries

/-- The keys of the fields of a payload. -/
def Kind.fieldKeys : Kind → List (List String)
  | join | leave => [roomKeys]
  | send => [roomKeys, ["content"], kindKeys, ["metadata"]]
  | typing => [roomKeys, ["isTyping"]]

/-- The ways to name a kind of command: by one of its words, or by an object that maps it to
`null`. -/
inductive Names : Tree → Kind → Prop
  | word {word : String} {kind : Kind} : word ∈ spellings kind → Names (.string word) kind
  | entry {word : String} {kind : Kind} :
      word ∈ spellings kind → Names (.object [(word, .null)]) kind

/-- The slot of the room. -/
def roomSlot {δ : Type} (m : Meanings τ) (get : δ → Option String) (set : String → δ → δ) :
    Slot δ τ := .of roomKeys m.text get set

/-- The slots of a payload that only names a room. -/
def roomSlots (m : Meanings τ) : List (Slot (Option String) τ) := [roomSlot m id fun x _ => some x]

/-- The slots of a message. -/
def sendSlots (m : Meanings τ) : List (Slot SendDraft τ) :=
  [roomSlot m (·.roomId) fun x draft => { draft with roomId := some x },
   .of ["content"] m.text (·.content) fun x draft => { draft with content := some x },
   .of kindKeys m.kind (·.kind) fun x draft => { draft with kind := some x },
   .of ["metadata"] m.metadata (·.metadata) fun x draft => { draft with metadata := some x }]

/-- The slots of a typing notice. -/
def typingSlots (m : Meanings τ) : List (Slot TypingDraft τ) :=
  [roomSlot m (·.roomId) fun x draft => { draft with roomId := some x },
   .of ["isTyping"] m.flag (·.isTyping) fun x draft => { draft with isTyping := some x }]

theorem independent_roomSlots (m : Meanings τ) : Independent (roomSlots m) where
  keeps := by
    rintro _ (_ | ⟨_, ⟨⟩⟩)
    exact Slot.of_keeps fun _ _ => rfl
  apart := List.pairwise_singleton _ _

theorem independent_sendSlots (m : Meanings τ) : Independent (sendSlots m) where
  keeps := by
    simp only [sendSlots, List.mem_cons, List.not_mem_nil, or_false]
    rintro _ (rfl | rfl | rfl | rfl) <;> exact Slot.of_keeps fun _ _ => rfl
  apart := by
    simp only [sendSlots, List.pairwise_cons, List.mem_cons, List.not_mem_nil, or_false]
    refine ⟨?_, ?_, ?_, by simp, .nil⟩ <;> rintro _ (rfl | rfl | rfl) <;>
      exact Slot.of_apart (by decide) (fun _ _ => rfl) (fun _ _ => rfl) fun _ _ _ => rfl

theorem independent_typingSlots (m : Meanings τ) : Independent (typingSlots m) where
  keeps := by
    simp only [typingSlots, List.mem_cons, List.not_mem_nil, or_false]
    rintro _ (rfl | rfl) <;> exact Slot.of_keeps fun _ _ => rfl
  apart := by
    simp only [typingSlots, List.pairwise_cons, List.mem_cons, List.not_mem_nil, or_false]
    refine ⟨?_, by simp, .nil⟩
    rintro _ rfl
    exact Slot.of_apart (by decide) (fun _ _ => rfl) (fun _ _ => rfl) fun _ _ _ => rfl

/-- The command that the entries of a payload make. -/
def assemble (m : Meanings τ) (entries : List (String × τ)) : Kind → Option Command
  | .join => (collect (roomSlots m) entries none).bind fun draft =>
    ((roomRecord joinRoom).build draft).toOption
  | .leave => (collect (roomSlots m) entries none).bind fun draft =>
    ((roomRecord leaveRoom).build draft).toOption
  | .send => (collect (sendSlots m) entries {}).bind fun draft => (sendRecord.build draft).toOption
  | .typing => (collect (typingSlots m) entries {}).bind fun draft =>
    (typingRecord.build draft).toOption

/-- The order of the entries is of no account. -/
theorem assemble_perm (m : Meanings τ) {entries entries' : List (String × τ)}
    (h : entries.Perm entries') (kind : Kind) :
    assemble m entries kind = assemble m entries' kind := by
  cases kind with
  | join | leave => simp only [assemble, collect_perm (independent_roomSlots m) h]
  | send => simp only [assemble, collect_perm (independent_sendSlots m) h]
  | typing => simp only [assemble, collect_perm (independent_typingSlots m) h]

/-- An entry that may be left out fills its slot, or leaves the default. -/
theorem IsOptional.collect {δ : Type} {keys : List String} {meaning : τ → Option β}
    {default value : β} {entries : List (String × τ)}
    (h : IsOptional keys meaning default value entries) {slots : List (Slot δ τ)}
    {get : δ → Option β} {set : β → δ → δ}
    (hslot : ∀ key ∈ keys, slots.find? (·.isNamed key) = some (.of keys meaning get set))
    (draft : δ) (hnew : get draft = none) (more : List (String × τ)) :
    ∃ given : Option β, given.getD default = value ∧
      Json.collect slots (entries ++ more) draft =
        Json.collect slots more (given.elim draft (set · draft)) := by
  cases h with
  | omitted => exact ⟨none, rfl, rfl⟩
  | given hkey hx =>
    exact ⟨some value, rfl, by simp [Json.collect, hslot _ hkey, Slot.of, hnew, hx]⟩

/-- The entries of a payload make the command. -/
theorem assemble_payload {m : Meanings τ} {command : Command} {entries : List (String × τ)}
    (h : IsPayload m command entries) : assemble m entries command.kind = some command := by
  cases h with
  | join hkey hroom | leave hkey hroom =>
    simp [kind, assemble, roomSlots, roomSlot, collect, Slot.of, hkey, hroom, roomRecord, need,
      Except.toOption]
  | @typing key room flag x flags hkey hroom hflag =>
    have hslot : ∀ key ∈ ["isTyping"], (typingSlots m).find? (·.isNamed key) =
        some (.of ["isTyping"] m.flag (·.isTyping) fun x draft =>
          { draft with isTyping := some x }) := by
      simp [typingSlots, roomSlot, Slot.of, roomKeys]
    have hneeded : collect (typingSlots m) ((key, x) :: flags) {} =
        collect (typingSlots m) (flags ++ []) { roomId := some room } := by
      simp [typingSlots, roomSlot, collect, Slot.of, hkey, hroom]
    obtain ⟨given, rfl, hflags⟩ := hflag.collect hslot { roomId := some room } rfl []
    rw [Command.kind, assemble, hneeded, hflags]
    cases given <;> rfl
  | @send key payload x y kinds attached hkey hroom hcontent hkind hmetadata =>
    obtain ⟨room, content, kind, metadata⟩ := payload
    have hkindSlot : ∀ key ∈ kindKeys, (sendSlots m).find? (·.isNamed key) =
        some (.of kindKeys m.kind (·.kind) fun x draft => { draft with kind := some x }) := by
      simp [sendSlots, roomSlot, Slot.of, roomKeys, kindKeys]
    have hmetadataSlot : ∀ key ∈ ["metadata"], (sendSlots m).find? (·.isNamed key) =
        some (.of ["metadata"] m.metadata (·.metadata) fun x draft =>
          { draft with metadata := some x }) := by
      simp [sendSlots, roomSlot, Slot.of, roomKeys, kindKeys]
    -- First the room and the content are put into the draft, then what may be left out.
    have hneeded : collect (sendSlots m) ((key, x) :: ("content", y) :: (kinds ++ attached)) {} =
        collect (sendSlots m) (kinds ++ (attached ++ []))
          { roomId := some room, content := some content } := by
      simp [sendSlots, roomSlot, collect, Slot.of, hkey, show "content" ∉ roomKeys by decide, hroom,
        hcontent]
    obtain ⟨given, rfl, hkinds⟩ := hkind.collect hkindSlot
      { roomId := some room, content := some content } rfl (attached ++ [])
    rw [Command.kind, assemble, hneeded, hkinds]
    obtain ⟨given', rfl, hattached⟩ := hmetadata.collect hmetadataSlot
      (given.elim { roomId := some room, content := some content } fun x =>
        { roomId := some room, content := some content, kind := some x })
      (by cases given <;> rfl) []
    rw [hattached]
    cases given <;> cases given' <;> rfl

/-! ### The two ways to read a payload -/

/-- What the entries of a payload mean that is read behind its type. -/
def reading (depth : Nat) : Meanings Tree where
  text := Tree.text?
  flag := Tree.flag?
  kind := Tree.choice? MessageKind.choice depth
  metadata := Tree.optional? fun tree => (tree.valueWithin? depth).map Value.canonical

/-- What the entries of a payload mean that is decoded after it was kept. -/
def decoding : Meanings Value where
  text v := (Shape.text.decode v).toOption
  flag v := (Shape.flag.decode v).toOption
  kind v := (MessageKind.choice.shape.decode v).toOption
  metadata v := ((Shape.optional .any).decode v).toOption

theorem reads_roomField {δ : Type} (depth : Nat) (get : δ → Option String)
    (set : String → δ → δ) :
    (roomField get set).Reads depth (roomSlot (reading depth) get set) :=
  Field.reads_of _ _ _ (interprets_text depth) get set

theorem reads_roomRecord (make : String → Command) (depth : Nat) :
    (roomRecord make).Reads depth (roomSlots (reading depth)) :=
  .cons (reads_roomField depth _ _) .nil

theorem reads_sendRecord (depth : Nat) : sendRecord.Reads depth (sendSlots (reading depth)) :=
  .cons (reads_roomField depth _ _) <|
    .cons (Field.reads_of _ _ _ (interprets_text depth) _ _) <|
    .cons (Field.reads_of _ _ _ (interprets_choice _ depth) _ _) <|
    .cons (Field.reads_of _ _ _ (interprets_optional (interprets_any depth)) _ _) .nil

theorem reads_typingRecord (depth : Nat) : typingRecord.Reads depth (typingSlots (reading depth)) :=
  .cons (reads_roomField depth _ _) <|
    .cons (Field.reads_of _ _ _ (interprets_flag depth) _ _) .nil

/-- What a payload means that is read behind its type. -/
def payload? (depth : Nat) : Kind → Tree → Option Command
  | .join => (roomRecord joinRoom).meaning? (fun depth => roomSlots (reading depth)) depth
  | .leave => (roomRecord leaveRoom).meaning? (fun depth => roomSlots (reading depth)) depth
  | .send => sendRecord.meaning? (fun depth => sendSlots (reading depth)) depth
  | .typing => typingRecord.meaning? (fun depth => typingSlots (reading depth)) depth

theorem interprets_payload (depth : Nat) (kind : Kind) :
    Interprets ((payload kind).read depth) (payload? depth kind) := by
  cases kind with
  | join => exact Record.interprets_read (reads_roomRecord joinRoom) depth
  | leave => exact Record.interprets_read (reads_roomRecord leaveRoom) depth
  | send => exact Record.interprets_read reads_sendRecord depth
  | typing => exact Record.interprets_read reads_typingRecord depth

theorem payload?_object (depth : Nat) (kind : Kind) (entries : List (String × Tree)) :
    payload? (depth + 1) kind (.object entries) = assemble (reading depth) entries kind := by
  cases kind <;> rfl

theorem toOption_decode_payload (kind : Kind) (entries : List (String × Value)) :
    ((payload kind).decode (.object entries)).toOption = assemble decoding entries kind := by
  cases kind <;>
    simp only [payload, Record.shape, Record.toOption_decode_object, assemble, roomRecord,
      sendRecord, typingRecord, roomField, List.map_cons, List.map_nil, Field.decoding_of] <;>
    rfl

/-! ### Meanings that agree -/

/-- What one family of meanings makes of an entry, the other makes of every entry related to it. -/
structure Meanings.Agree (related : τ → τ' → Prop) (m : Meanings τ) (m' : Meanings τ') : Prop where
  text : ∀ ⦃x y⦄, related x y → ∀ ⦃a⦄, m.text x = some a → m'.text y = some a
  flag : ∀ ⦃x y⦄, related x y → ∀ ⦃a⦄, m.flag x = some a → m'.flag y = some a
  kind : ∀ ⦃x y⦄, related x y → ∀ ⦃a⦄, m.kind x = some a → m'.kind y = some a
  metadata : ∀ ⦃x y⦄, related x y → ∀ ⦃a⦄, m.metadata x = some a → m'.metadata y = some a

/-- Entries with the same keys and related contents. -/
inductive Related (related : τ → τ' → Prop) : List (String × τ) → List (String × τ') → Prop
  | nil : Related related [] []
  | cons {key : String} {x : τ} {y : τ'} {entries : List (String × τ)}
      {entries' : List (String × τ')} : related x y → Related related entries entries' →
      Related related ((key, x) :: entries) ((key, y) :: entries')

theorem Related.append_left {related : τ → τ' → Prop} {front back : List (String × τ)}
    {entries : List (String × τ')} (h : Related related (front ++ back) entries) :
    ∃ front' back', entries = front' ++ back' ∧ Related related front front' ∧
      Related related back back' := by
  induction front generalizing entries with
  | nil => exact ⟨[], entries, rfl, .nil, h⟩
  | cons entry front ih =>
    cases h with
    | cons hxy hmore =>
      obtain ⟨front', back', rfl, hfront, hback⟩ := ih hmore
      exact ⟨_ :: front', back', rfl, .cons hxy hfront, hback⟩

theorem IsOptional.of_related {related : τ → τ' → Prop} {meaning : τ → Option β}
    {meaning' : τ' → Option β}
    (hm : ∀ ⦃x y⦄, related x y → ∀ ⦃a⦄, meaning x = some a → meaning' y = some a)
    {keys : List String} {default value : β} {entries : List (String × τ)}
    (h : IsOptional keys meaning default value entries) {entries' : List (String × τ')}
    (hentries : Related related entries entries') :
    IsOptional keys meaning' default value entries' := by
  cases h with
  | omitted =>
    cases hentries
    exact .omitted
  | given hkey hx =>
    obtain _ | ⟨hxy, _ | _⟩ := hentries
    exact .given hkey (hm hxy hx)

/-- Related entries spell the same command. -/
theorem IsPayload.of_related {related : τ → τ' → Prop} {m : Meanings τ} {m' : Meanings τ'}
    (hm : m.Agree related m') {command : Command} {entries : List (String × τ)}
    (h : IsPayload m command entries) {entries' : List (String × τ')}
    (hentries : Related related entries entries') : IsPayload m' command entries' := by
  cases h with
  | join hkey hroom =>
    obtain _ | ⟨hxy, _ | _⟩ := hentries
    exact .join hkey (hm.text hxy hroom)
  | leave hkey hroom =>
    obtain _ | ⟨hxy, _ | _⟩ := hentries
    exact .leave hkey (hm.text hxy hroom)
  | typing hkey hroom hflag =>
    obtain _ | ⟨hxy, hflags⟩ := hentries
    exact .typing hkey (hm.text hxy hroom) (hflag.of_related hm.flag hflags)
  | send hkey hroom hcontent hkind hmetadata =>
    obtain _ | ⟨hxy, _ | ⟨hxy', hothers⟩⟩ := hentries
    obtain ⟨kinds, attached, rfl, hkinds, hattached⟩ := hothers.append_left
    exact .send hkey (hm.text hxy hroom) (hm.text hxy' hcontent)
      (hkind.of_related hm.kind hkinds) (hmetadata.of_related hm.metadata hattached)

theorem Related.perm {related : τ → τ' → Prop} {entries other : List (String × τ)}
    {entries' : List (String × τ')} (h : Related related entries entries')
    (hperm : entries.Perm other) :
    ∃ other', Related related other other' ∧ entries'.Perm other' := by
  induction hperm generalizing entries' with
  | nil => exact ⟨entries', h, .refl _⟩
  | cons _ _ ih =>
    cases h with
    | cons hxy hmore =>
      obtain ⟨other', hother, hperm⟩ := ih hmore
      exact ⟨_, .cons hxy hother, hperm.cons _⟩
  | swap _ _ _ =>
    obtain _ | ⟨hxy, _ | ⟨hxy', hmore⟩⟩ := h
    exact ⟨_, .cons hxy' (.cons hxy hmore), .swap _ _ _⟩
  | trans _ _ ih₁ ih₂ =>
    obtain ⟨middle, hmiddle, hperm₁⟩ := ih₁ h
    obtain ⟨other', hother, hperm₂⟩ := ih₂ hmiddle
    exact ⟨other', hother, hperm₁.trans hperm₂⟩

/-- A word that is written for a kind of message is read as the kind. -/
theorem find?_kind {word : String} {kind : MessageKind}
    (h : [MessageKind.text, .image, .file, .video].find? (fun kind => kind.name = word) =
      some kind) :
    MessageKind.choice.find? word = some kind := by
  obtain rfl : kind.name = word := by simpa using List.find?_some h
  cases kind <;> rfl

theorem written_kind {tree : Tree} {kind : MessageKind} (h : written.kind tree = some kind) :
    ∃ word, tree = .string word ∧ MessageKind.choice.find? word = some kind := by
  cases tree with
  | string word => exact ⟨word, rfl, find?_kind h⟩
  | _ => cases h

theorem denoted_metadata {tree : Tree} {metadata : Option Value}
    (h : denoted.metadata tree = some metadata) :
    (tree = .null ∧ metadata = none) ∨ ∃ raw, tree ≠ .null ∧
      tree.value? Numeral.number? = some raw ∧ metadata = some raw.canonical := by
  by_cases htree : tree = .null
  · subst htree
    exact .inl ⟨rfl, (Option.some.inj h).symm⟩
  · simp only [denoted, Tree.optional?_of_ne htree, Option.map_eq_some_iff] at h
    obtain ⟨_, ⟨raw, hraw, rfl⟩, rfl⟩ := h
    exact .inr ⟨raw, htree, hraw, rfl⟩

/-- What is denoted is read, if it does not nest too deep. -/
theorem agree_reading (depth : Nat) :
    denoted.Agree (fun tree tree' => tree = tree' ∧ tree.depth ≤ depth) (reading depth) where
  text := by
    rintro tree _ ⟨rfl, -⟩ a h
    exact h
  flag := by
    rintro tree _ ⟨rfl, -⟩ a h
    exact h
  kind := by
    rintro tree _ ⟨rfl, -⟩ a h
    obtain ⟨word, rfl, hword⟩ := written_kind h
    exact hword
  metadata := by
    rintro tree _ ⟨rfl, hdepth⟩ a h
    obtain ⟨rfl, rfl⟩ | ⟨raw, hne, hraw, rfl⟩ := denoted_metadata h
    · rfl
    · simp [reading, Tree.optional?_of_ne hne, Tree.valueWithin?, hdepth, hraw]

/-- The tree denotes the value. -/
def Denotes (tree : Tree) (v : Value) : Prop := tree.value? Numeral.number? = some v

/-- What is denoted is decoded from the value of the entry. -/
theorem agree_decoding : denoted.Agree Denotes decoding where
  text := by
    intro tree v hv a h
    cases tree with
    | string text =>
      obtain rfl : Value.string text = v := Option.some.inj hv
      exact h
    | _ => cases h
  flag := by
    intro tree v hv a h
    cases tree with
    | bool b =>
      obtain rfl : Value.bool b = v := Option.some.inj hv
      exact h
    | _ => cases h
  kind := by
    intro tree v hv a h
    obtain ⟨word, rfl, hword⟩ := written_kind h
    obtain rfl : Value.string word = v := Option.some.inj hv
    simpa [decoding, Choice.shape, Choice.decode, Choice.toOption_find] using hword
  metadata := by
    intro tree v hv a h
    obtain ⟨rfl, rfl⟩ | ⟨raw, hne, hraw, rfl⟩ := denoted_metadata h
    · obtain rfl : Value.null = v := Option.some.inj hv
      rfl
    · obtain rfl : raw = v := Option.some.inj (hraw.symm.trans hv)
      have hvalue := Tree.value?_ne_null hv hne
      cases raw <;> first | rfl | exact absurd rfl hvalue

theorem denoted_denotes :
    (∀ {tree : Tree} {a}, denoted.text tree = some a → ∃ v, Denotes tree v) ∧
    (∀ {tree : Tree} {a}, denoted.flag tree = some a → ∃ v, Denotes tree v) ∧
    (∀ {tree : Tree} {a}, denoted.kind tree = some a → ∃ v, Denotes tree v) ∧
    (∀ {tree : Tree} {a}, denoted.metadata tree = some a → ∃ v, Denotes tree v) := by
  refine ⟨?_, ?_, ?_, ?_⟩
  · intro tree a h
    cases tree with
    | string text => exact ⟨.string text, rfl⟩
    | _ => cases h
  · intro tree a h
    cases tree with
    | bool b => exact ⟨.bool b, rfl⟩
    | _ => cases h
  · intro tree a h
    obtain ⟨word, rfl, -⟩ := written_kind h
    exact ⟨.string word, rfl⟩
  · intro tree a h
    obtain ⟨rfl, -⟩ | ⟨raw, -, hraw, -⟩ := denoted_metadata h
    · exact ⟨.null, rfl⟩
    · exact ⟨raw, hraw⟩

theorem IsOptional.denotes {meaning : Tree → Option β}
    (hm : ∀ {tree a}, meaning tree = some a → ∃ v, Denotes tree v) {keys : List String}
    {default value : β} {entries : List (String × Tree)}
    (h : IsOptional keys meaning default value entries) :
    ∀ entry ∈ entries, ∃ v, Denotes entry.2 v := by
  cases h with
  | omitted => simp
  | given _ hx => simpa using hm hx

/-- Every entry of a payload denotes a value. -/
theorem IsPayload.denotes {command : Command} {entries : List (String × Tree)}
    (h : IsPayload denoted command entries) : ∀ entry ∈ entries, ∃ v, Denotes entry.2 v := by
  obtain ⟨htext, hflag, hkind, hmetadata⟩ := denoted_denotes
  cases h with
  | join _ hroom | leave _ hroom => simpa using htext hroom
  | typing _ hroom hflags =>
    exact List.forall_mem_cons.mpr ⟨htext hroom, hflags.denotes hflag⟩
  | send _ hroom hcontent hkinds hattached =>
    rw [List.forall_mem_cons, List.forall_mem_cons, List.forall_mem_append]
    exact ⟨htext hroom, htext hcontent, hkinds.denotes hkind, hattached.denotes hmetadata⟩

theorem exists_related {entries : List (String × Tree)}
    (h : ∀ entry ∈ entries, ∃ v, Denotes entry.2 v) : ∃ values, Related Denotes entries values := by
  induction entries with
  | nil => exact ⟨[], .nil⟩
  | cons entry entries ih =>
    obtain ⟨v, hv⟩ := h entry (by simp)
    obtain ⟨values, hvalues⟩ := ih fun entry hentry => h entry (by simp [hentry])
    exact ⟨_, .cons hv hvalues⟩

/-- The fields of an object denote values one by one. -/
theorem fieldValues?_eq_some_iff {entries : List (String × Tree)} {values : List (String × Value)} :
    Tree.fieldValues? Numeral.number? entries = some values ↔ Related Denotes entries values := by
  induction entries generalizing values with
  | nil =>
    constructor
    · rintro ⟨⟩
      exact .nil
    · rintro ⟨⟩
      rfl
  | cons entry entries ih =>
    obtain ⟨key, tree⟩ := entry
    constructor
    · intro h
      obtain ⟨v, hv, values', hvalues, rfl⟩ : ∃ v, tree.value? Numeral.number? = some v ∧
          ∃ values', Tree.fieldValues? Numeral.number? entries = some values' ∧
            (key, v) :: values' = values := by
        simpa [Tree.fieldValues?, Option.bind_eq_some_iff] using h
      exact .cons hv (ih.mp hvalues)
    · rintro (_ | ⟨hv, hvalues⟩)
      have hv' : tree.value? Numeral.number? = some _ := hv
      simp [Tree.fieldValues?, hv', ih.mpr hvalues]

theorem Related.countP {related : τ → τ' → Prop} {entries : List (String × τ)}
    {entries' : List (String × τ')} (h : Related related entries entries') (keys : List String) :
    (entries'.countP fun entry => entry.1 ∈ keys) = entries.countP fun entry => entry.1 ∈ keys := by
  induction h with
  | nil => rfl
  | cons _ _ ih => simp [List.countP_cons, ih]

/-- What a payload denotes is read, if none of its entries nests too deep. -/
theorem IsPayload.of_depth {command : Command} {plain payload : List (String × Tree)}
    (h : IsPayload denoted command plain) (hperm : plain.Perm payload) {depth : Nat}
    (hdepth : Tree.fieldDepth payload ≤ depth) : IsPayload (reading depth) command plain := by
  refine h.of_related (agree_reading depth) ?_
  have hplain : ∀ entry ∈ plain, entry.2.depth ≤ depth := fun entry hentry =>
    Nat.le_trans (Tree.depth_le_fieldDepth (hperm.mem_iff.mp hentry)) hdepth
  clear h hperm
  induction plain with
  | nil => exact .nil
  | cons entry plain ih =>
    rw [List.forall_mem_cons] at hplain
    exact .cons ⟨rfl, hplain.1⟩ (ih hplain.2)

/-- A payload is the command that it spells when it is read, in whichever order it stands. -/
theorem payload?_of_isPayload {command : Command} {plain payload : List (String × Tree)}
    (h : IsPayload denoted command plain) (hperm : plain.Perm payload) {depth : Nat}
    (hdepth : Tree.fieldDepth payload ≤ depth) :
    payload? (depth + 1) command.kind (.object payload) = some command := by
  rw [payload?_object, ← assemble_perm (reading depth) hperm]
  exact assemble_payload (h.of_depth hperm hdepth)

/-- The same when it is kept and decoded. -/
theorem decode_of_isPayload {command : Command} {plain payload : List (String × Tree)}
    (h : IsPayload denoted command plain) (hperm : plain.Perm payload) :
    ∃ v, Denotes (.object payload) v ∧
      ((Command.payload command.kind).decode v).toOption = some command := by
  obtain ⟨values, hvalues⟩ := exists_related h.denotes
  obtain ⟨values', hvalues', hperm'⟩ := hvalues.perm hperm
  refine ⟨.object values', ?_, ?_⟩
  · simp [Denotes, Tree.value?, fieldValues?_eq_some_iff.mpr hvalues']
  · rw [toOption_decode_payload, ← assemble_perm decoding hperm']
    exact assemble_payload (h.of_related agree_decoding hvalues)

theorem find?_word {word : String} {kind : Kind} (h : word ∈ spellings kind) :
    words.find? word = some kind := by
  revert h
  cases kind <;> revert word <;> decide

/-- What a text that spells an object is read as. -/
theorem toOption_parse {entries : List (String × Tree)} {text : String}
    (htext : IsText text (.object entries)) :
    (parse text).toOption = frame.object? 126 (payload? 126) (frame.relevant entries) :=
  frame.toOption_parse_object (interprets_payload 126) htext

theorem ok_of_toOption {ε : Type} {result : Except ε β} {x : β} (h : result.toOption = some x) :
    result = .ok x := by
  cases result with
  | ok y => exact congrArg _ (Option.some.inj h)
  | error _ => cases h

theorem error_of_toOption {ε : Type} {result : Except ε β} (h : result.toOption = none) :
    ∃ fault, result = .error fault := by
  cases result with
  | ok _ => cases h
  | error fault => exact ⟨fault, rfl⟩

/-- Every text that spells a command is read as the command. -/
theorem parse_of_isFrameOf {command : Command} {tree : Tree} (h : IsFrameOf denoted command tree)
    (hdepth : tree.depth ≤ 127) {text : String} (htext : IsText text tree) :
    parse text = .ok command := by
  obtain ⟨word, plain, payload, entries, hword, hpayload, hperm, hentries, rfl⟩ := h
  apply ok_of_toOption
  rw [toOption_parse htext]
  have htag : (Tree.string word).choice? words 126 = some command.kind := find?_word hword
  have hfields : Tree.fieldDepth payload ≤ 125 := by
    have hmem : ("payload", Tree.object payload) ∈ entries := hentries.mem_iff.mp (by simp)
    have hle := Tree.depth_le_fieldDepth hmem
    simp only [Tree.depth] at hle hdepth
    omega
  obtain rfl | rfl := List.pair_perm.mp hentries
  · -- The type comes first: the payload is read as it stands.
    have hread := payload?_of_isPayload hpayload hperm hfields
    simp [frame, Tagged.relevant, Tagged.part?, Tagged.object?, Tagged.sole?, htag, hread]
  · -- The payload comes first: it is kept and decoded.
    obtain ⟨v, hv, hdecode⟩ := decode_of_isPayload hpayload hperm
    have hkept : (Tree.object payload).valueWithin? 126 = some v := by
      rw [Tree.valueWithin?, if_pos (by simp only [Tree.depth]; omega)]
      exact hv
    simp [frame, Tagged.relevant, Tagged.part?, Tagged.object?, Tagged.sole?, htag, hkept, hdecode]

end RoomRelay.Command
