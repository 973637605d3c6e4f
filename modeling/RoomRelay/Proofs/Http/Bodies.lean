import RoomRelay.Http.Extract
import RoomRelay.Proofs.Protocol.Commands
import RoomRelay.Proofs.Text.Utf8
import RoomRelay.Request

/-!
# Bodies that ask for a message

The body of a request to send a message is spelt as the payload of the command that does the same,
but for the room, which must be an identifier without blanks around it. Whatever the order, the
spacing and the keys, the body is read as the request that it spells.

## Main definitions

* `SendMessage.IsBody` — the documents that spell a request to send a message

## Main results

* `toOption_readBody` — a body is read as what the tree of its text means to the reader
* `SendMessage.read_of_isBody` — a body is read as the request that it spells
-/

namespace RoomRelay

open Json

/-! ### Bodies that carry a text -/

/-- A body that carries a text is read as the tree that the text spells. -/
theorem toOption_readBody {α : Type} {reader : Reader α} {meaning : Tree → Option α}
    (h : Interprets reader meaning) {r : HttpRequest} (json : r.sendsJson = true)
    (fits : r.body.length ≤ maxBodyLength) {text : String} (carries : r.body = Utf8.bytes text)
    {tree : Tree} (htext : IsText text tree) :
    (readBody reader r).toOption = meaning tree := by
  obtain ⟨b, cs, b', hb, hcs, hb', heq⟩ := htext
  have hread := h hb hcs hb'.ends_nil
  have hsymbols : Utf8.symbols r.body = b.map some ++ (cs.map some ++ b'.map some) := by
    rw [carries, Utf8.symbols_bytes, Text.symbols, heq, List.map_append, List.map_append]
  rw [← hsymbols, run?] at hread
  have hrun : (reader.run' (Utf8.symbols r.body)).toOption = meaning tree := by
    change Except.toOption (Prod.fst <$> reader (Utf8.symbols r.body)) = _
    cases hresult : reader (Utf8.symbols r.body) with
    | ok result =>
      rw [hresult] at hread
      obtain ⟨x, hx, heq⟩ := Option.map_eq_some_iff.mp hread.symm
      rw [hx, ← heq]
      rfl
    | error fault =>
      rw [hresult] at hread
      exact (Option.map_eq_none_iff.mp hread.symm).symm
  rw [← hrun, readBody, json, Bool.not_true, if_neg Bool.false_ne_true, if_neg (by omega)]
  cases reader.run' (Utf8.symbols r.body) <;> rfl

/-! ### Requests to send a message -/

namespace SendMessage

/-- The documents that spell a request to send a message. -/
def IsBody (request : SendMessage) (tree : Tree) : Prop :=
  ∃ room plain entries, Uuid.parse? room = some request.roomId ∧
    Command.IsPayload Command.denoted
      (.sendMessage ⟨room, request.content, request.kind, request.metadata⟩) plain ∧
    plain.Perm entries ∧ tree = .object entries

/-- What the text of a room means in a body. -/
def room? (tree : Tree) : Option Uuid :=
  tree.text?.bind fun text => (Shape.parseUuid text).toOption

/-- The slots of a request. -/
def slots (depth : Nat) : List (Slot Draft Tree) :=
  [.of Command.roomKeys room? (·.roomId) fun x draft => { draft with roomId := some x },
   .of ["content"] Tree.text? (·.content) fun x draft => { draft with content := some x },
   .of Command.kindKeys (Tree.choice? MessageKind.choice depth) (·.kind) fun x draft =>
     { draft with kind := some x },
   .of ["metadata"] (Command.reading depth).metadata (·.metadata) fun x draft =>
     { draft with metadata := some x }]

theorem independent_slots (depth : Nat) : Independent (slots depth) where
  keeps := by
    simp only [slots, List.mem_cons, List.not_mem_nil, or_false]
    rintro _ (rfl | rfl | rfl | rfl) <;> exact Slot.of_keeps fun _ _ => rfl
  apart := by
    simp only [slots, List.pairwise_cons, List.mem_cons, List.not_mem_nil, or_false]
    refine ⟨?_, ?_, ?_, by simp, .nil⟩ <;> rintro _ (rfl | rfl | rfl) <;>
      exact Slot.of_apart (by decide) (fun _ _ => rfl) (fun _ _ => rfl) fun _ _ _ => rfl

theorem reads_record (depth : Nat) : record.Reads depth (slots depth) :=
  .cons (Field.reads_of _ _ _ (interprets_uuid depth) _ _) <|
    .cons (Field.reads_of _ _ _ (interprets_text depth) _ _) <|
    .cons (Field.reads_of _ _ _ (interprets_choice _ depth) _ _) <|
    .cons (Field.reads_of _ _ _ (interprets_optional (interprets_any depth)) _ _) .nil

theorem room?_of_parse? {text : String} {id : Uuid} (h : Uuid.parse? text = some id) :
    room? (.string text) = some id := by
  simp [room?, Tree.text?, Shape.parseUuid, Uuid.parse, h, Except.toOption]

/-- The entries of a payload make the request, once the room is an identifier. -/
theorem collect_payload {depth : Nat} {room content : String} {kind : MessageKind}
    {metadata : Option Value} {id : Uuid} (hid : Uuid.parse? room = some id)
    {entries : List (String × Tree)}
    (h : Command.IsPayload (Command.reading depth) (.sendMessage ⟨room, content, kind, metadata⟩)
      entries) :
    ((collect (slots depth) entries {}).bind fun draft => (record.build draft).toOption) =
      some ⟨id, content, kind, metadata⟩ := by
  cases h with
  | @send key _ x y kinds attached hkey hroom hcontent hkind hmetadata =>
    have hkindSlot : ∀ key ∈ Command.kindKeys, (slots depth).find? (·.isNamed key) =
        some (.of Command.kindKeys (Command.reading depth).kind (·.kind) fun x draft =>
          { draft with kind := some x }) := by
      simp [slots, Slot.of, Command.roomKeys, Command.kindKeys, Command.reading]
    have hmetadataSlot : ∀ key ∈ ["metadata"], (slots depth).find? (·.isNamed key) =
        some (.of ["metadata"] (Command.reading depth).metadata (·.metadata) fun x draft =>
          { draft with metadata := some x }) := by
      simp [slots, Slot.of, Command.roomKeys, Command.kindKeys]
    have hroomText : x.text? = some room := hroom
    have hroomId : room? x = some id := by
      rw [room?, hroomText]
      exact room?_of_parse? hid
    have hcontentText : y.text? = some content := hcontent
    have hneeded : collect (slots depth) ((key, x) :: ("content", y) :: (kinds ++ attached)) {} =
        collect (slots depth) (kinds ++ (attached ++ []))
          { roomId := some id, content := some content } := by
      simp [slots, collect, Slot.of, hkey, show "content" ∉ Command.roomKeys by decide, hroomId,
        hcontentText]
    obtain ⟨given, rfl, hkinds⟩ := hkind.collect hkindSlot
      { roomId := some id, content := some content } rfl (attached ++ [])
    rw [hneeded, hkinds]
    obtain ⟨given', rfl, hattached⟩ := hmetadata.collect hmetadataSlot
      (given.elim { roomId := some id, content := some content } fun x =>
        { roomId := some id, content := some content, kind := some x })
      (by cases given <;> rfl) []
    rw [hattached]
    cases given <;> cases given' <;> rfl

/-- A body is read as the request that it spells. -/
theorem read_of_isBody {request : SendMessage} {tree : Tree} (h : request.IsBody tree)
    (shallow : tree.depth ≤ depthLimit) {r : HttpRequest} (json : r.sendsJson = true)
    (fits : r.body.length ≤ maxBodyLength) {text : String} (carries : r.body = Utf8.bytes text)
    (htext : IsText text tree) : readBody (record.read depthLimit) r = .ok request := by
  obtain ⟨room, plain, entries, hroom, hpayload, hperm, rfl⟩ := h
  apply Command.ok_of_toOption
  rw [toOption_readBody (Record.interprets_read reads_record depthLimit) json fits carries htext]
  have hdepth : Tree.fieldDepth entries ≤ 126 := by
    simp only [Tree.depth, depthLimit] at shallow
    omega
  change (collect (slots 126) entries {}).bind (fun draft => (record.build draft).toOption) = _
  rw [← collect_perm (independent_slots 126) hperm]
  exact collect_payload hroom (hpayload.of_depth hperm hdepth)

end SendMessage

end RoomRelay
