import RoomRelay.Proofs.Service.Activity

/-!
# What becomes of one message

A request to send a message is looked at in three ways, one after the other: its text must not be
too long, must show something, and must be for a room that exists. Whichever fails first is the
reason for which the request is refused. A message that is accepted is the last one of its room's
history from then on, and its room was active when the clock was read for the second time; nothing
else in the two stores is different.

## Main definitions

* `Posted` — what an accepted message does to the stores

## Main results

* `touch_createMessage`, `posted_of_room` — storing a message in a room that exists
* `send_changes_only_its_room` — which requests are accepted, why others are refused, and what
  changes
-/

namespace RoomRelay

open Routine

variable {g : Gateway} {senderId : String} {request : SendMessage} {room : Room} {roomId : Uuid}

/-- A text shows something if not all of it is blank. -/
theorem isBlank_eq_false_iff {text : String} :
    Text.isBlank text = false ↔ ∃ c ∈ text.toList, isBlankChar c = false := by
  simp [Text.isBlank]

/-! ### Why a request is refused -/

/-- A text that is too long is refused whatever it shows. -/
theorem SendMessage.refusal?_of_long (h : 4000 < request.content.length) :
    request.refusal? =
      some (.validation "content: Message content must be at most 4000 characters") := by
  have hcheck : request.check =
      .error ⟨"content", "Message content must be at most 4000 characters", none, maxContentLength,
        request.content⟩ := if_neg (Nat.not_le_of_lt h)
  rw [refusal?, hcheck]
  rfl

/-- A text that is short enough is refused if it shows nothing. -/
theorem SendMessage.refusal?_of_short (h : request.content.length ≤ 4000) :
    request.refusal? =
      if Text.isBlank request.content then some (.domain .emptyContent) else none := by
  have hcheck : request.check = .ok () := if_pos h
  rw [refusal?, hcheck]

/-! ### What an accepted message changes -/

/-- What an accepted message does to the stores. The clock is read twice: for the message, and then
for its room. -/
structure Posted (g : Gateway) (senderId : String) (request : SendMessage) (message : Message)
    (after : Gateway) : Prop where
  /-- The message is as it was asked for, under a fresh identifier. -/
  message_eq : message =
    { id := g.supply.ids g.supply.issued, roomId := request.roomId, senderId := senderId,
      content := request.content, kind := request.kind, metadata := request.metadata,
      createdAt := g.supply.times g.supply.readings,
      updatedAt := g.supply.times g.supply.readings }
  /-- It stands at the end of its room's history. -/
  history_room : after.messages.history request.roomId =
    g.messages.history request.roomId ++ [message]
  /-- No other history has changed. -/
  history_other : ∀ other, other ≠ request.roomId →
    after.messages.history other = g.messages.history other
  /-- Of its room nothing has changed but the time at which it was last active. -/
  room_touched : ∃ room, g.rooms.get? request.roomId = some room ∧
    after.rooms.get? request.roomId =
      some { room with updatedAt := g.supply.times (g.supply.readings + 1) }
  /-- No other room has changed. -/
  room_other : ∀ other, other ≠ request.roomId → after.rooms.get? other = g.rooms.get? other
  /-- What is not in the two stores has not changed, but for the identifier and the two clock
  readings that have been used. -/
  elsewhere : after =
    { g with
      messages := after.messages, rooms := after.rooms,
      supply := { g.supply with
        issued := g.supply.issued + 1, readings := g.supply.readings + 2 } }

/-- A message is stored and the room that it is for is active. -/
theorem touch_createMessage {draft : MessageDraft} (h : g.rooms.get? roomId = some room) :
    (g.createMessage draft).2.touch roomId =
      { g with
        messages := g.messages.append (g.createMessage draft).1
        rooms := g.rooms.touch roomId (g.supply.times (g.supply.readings + 1))
        supply := { g.supply with
          issued := g.supply.issued + 1, readings := g.supply.readings + 2 } } := by
  -- The room is found again, so that the clock is read for it.
  have hstored : (g.createMessage draft).2.rooms.get? roomId = some room := h
  simp only [Gateway.touch, hstored]
  rfl

/-- A message that is stored in a room that exists is posted. -/
theorem posted_of_room (h : g.rooms.get? request.roomId = some room) :
    Posted g senderId request (g.createMessage (request.draft senderId)).1
      ((g.createMessage (request.draft senderId)).2.touch request.roomId) := by
  rw [touch_createMessage h]
  refine ⟨rfl, ?_, ?_, ⟨room, h, ?_⟩, ?_, rfl⟩
  · exact MessageStore.history_append.trans (congrArg _ (if_pos rfl))
  · intro other hother
    exact MessageStore.history_append.trans
      (by rw [if_neg fun h => hother h.symm, List.append_nil])
  · exact RoomStore.get?_touch.trans (by rw [if_pos rfl, h, Option.map_some])
  · intro other hother
    exact RoomStore.get?_touch.trans (if_neg (Ne.symm hother))

/-- **One message.** Send a message to a gateway with any rooms and any messages. It is accepted if
and only if its text has at most 4000 characters, one of which is not blank, and its room exists.
Otherwise the request is refused because the text is too long, or else because it shows nothing, or
else because there is no such room, and nothing changes at all. If it is accepted, it is added at
the end of its room's history and its room has been active; no other history, no other room and
nothing else about its own room is different. -/
theorem send_changes_only_its_room (g : Gateway) (senderId : String) (request : SendMessage) :
    let sent := (sendMessage senderId request).run.run g
    let visible := ∃ c ∈ request.content.toList, isBlankChar c = false
    ((∃ message, sent.1 = .ok message) ↔
      request.content.length ≤ 4000 ∧ visible ∧ ∃ room, g.rooms.get? request.roomId = some room) ∧
    (4000 < request.content.length →
      sent = (.error (.validation "content: Message content must be at most 4000 characters"),
        g)) ∧
    (request.content.length ≤ 4000 → ¬ visible → sent = (.error (.domain .emptyContent), g)) ∧
    (request.content.length ≤ 4000 → visible → g.rooms.get? request.roomId = none →
      sent = (.error (.domain (.unknownRoom request.roomId)), g)) ∧
    ∀ message, sent.1 = .ok message → Posted g senderId request message sent.2 := by
  intro sent visible
  have hsent := run_sendMessage senderId request g
  change sent = _ at hsent
  rcases Nat.lt_or_ge 4000 request.content.length with hlong | hshort
  · -- The text is too long.
    rw [SendMessage.refusal?_of_long hlong] at hsent
    simp only at hsent
    rw [hsent]
    refine ⟨iff_of_false (by simp) fun h => ?_, fun _ => rfl, fun h => ?_, fun h => ?_, by simp⟩
    all_goals omega
  · rw [SendMessage.refusal?_of_short hshort] at hsent
    by_cases hvisible : visible
    · rw [isBlank_eq_false_iff.mpr hvisible, if_neg Bool.false_ne_true] at hsent
      cases hroom : g.rooms.get? request.roomId with
      | none =>
        simp only [hroom] at hsent
        rw [hsent]
        exact ⟨iff_of_false (by simp) (by simp), fun h => absurd h (by omega),
          fun _ h => absurd hvisible h, fun _ _ _ => rfl, by simp⟩
      | some room =>
        simp only [hroom] at hsent
        rw [hsent]
        refine ⟨iff_of_true ⟨_, rfl⟩ ⟨hshort, hvisible, room, rfl⟩, fun h => absurd h (by omega),
          fun _ h => absurd hvisible h, fun _ _ h => absurd h (by simp), ?_⟩
        intro message hmessage
        obtain rfl := Except.ok.inj hmessage
        exact posted_of_room hroom
    · -- The text shows nothing.
      have hblank : Text.isBlank request.content = true :=
        eq_true_of_ne_false fun h => hvisible (isBlank_eq_false_iff.mp h)
      rw [hblank, if_pos rfl] at hsent
      simp only at hsent
      rw [hsent]
      exact ⟨iff_of_false (by simp) fun h => hvisible h.2.1, fun h => absurd h (by omega),
        fun _ _ => rfl, fun _ h => absurd h hvisible, by simp⟩

/-- A text that begins with a blank is accepted. A text that shows nothing is refused, and so is one
for a room that does not exist; one that has both faults and is too long is refused for its
length. -/
theorem send_changes_only_its_room_of_lounge :
    let hi : SendMessage := ⟨.version4 7, "\u2003hé", .text, none⟩
    let blank : SendMessage := ⟨.version4 7, "\u2003\u0085", .text, none⟩
    let lost : SendMessage := ⟨.version4 8, "hi", .text, none⟩
    let long : SendMessage := ⟨.version4 8, .ofList (List.replicate 4001 ' '), .text, none⟩
    (∃ message, ((sendMessage "bob" hi).run.run lounge).1 = .ok message ∧
      Posted lounge "bob" hi message ((sendMessage "bob" hi).run.run lounge).2) ∧
    (sendMessage "bob" blank).run.run lounge = (.error (.domain .emptyContent), lounge) ∧
    (sendMessage "bob" lost).run.run lounge =
      (.error (.domain (.unknownRoom (.version4 8))), lounge) ∧
    (sendMessage "bob" long).run.run lounge =
      (.error (.validation "content: Message content must be at most 4000 characters"),
        lounge) := by
  intro hi blank lost long
  obtain ⟨haccepts, -, -, -, hposted⟩ := send_changes_only_its_room lounge "bob" hi
  obtain ⟨-, -, hblank, -, -⟩ := send_changes_only_its_room lounge "bob" blank
  obtain ⟨-, -, -, hlost, -⟩ := send_changes_only_its_room lounge "bob" lost
  obtain ⟨-, hlong, -, -, -⟩ := send_changes_only_its_room lounge "bob" long
  obtain ⟨message, hmessage⟩ := haccepts.mpr
    ⟨by decide +kernel, isBlank_eq_false_iff.mp (by decide +kernel), _, rfl⟩
  refine ⟨⟨message, hmessage, hposted message hmessage⟩, ?_, ?_, ?_⟩
  · have hshows : Text.isBlank blank.content ≠ false := by decide +kernel
    exact hblank (by decide +kernel) fun hvisible => hshows (isBlank_eq_false_iff.mpr hvisible)
  · exact hlost (by decide +kernel) (isBlank_eq_false_iff.mp (by decide +kernel)) rfl
  · refine hlong ?_
    rw [String.length_ofList, List.length_replicate]
    exact Nat.lt_succ_self 4000

end RoomRelay
