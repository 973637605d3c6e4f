import RoomRelay.Proofs.Service.Activity
import RoomRelay.Proofs.Service.Founding

/-!
# Whom a room is for

Whoever makes a room names the others by their identities. White space around the name of somebody
is dropped, and somebody so named is a member under the name that is left, and finds the room in the
listing for that name. Naming oneself adds nobody, and a direct room is for oneself and somebody
else. The name of whoever makes the room is kept as it is, though, with all white space around it.
So whoever has such a name is taken for somebody else when naming oneself.

## Main definitions

* `Text.IsPlain` — no white space stands around the text, or there is nothing but white space

## Main results

* `mem_roster`, `roster_self` — who is named, and that naming oneself adds nobody
* `createRoom_honours_names` — who is a member of a room that is made
* `names_not_honoured` — what happens to names with white space around them
-/

namespace RoomRelay

open Routine

variable {creatorId userId own : String} {requested before after : List String}
variable {request : CreateRoom} {g g' : Gateway} {room : Room}

/-- There is no white space around the text, or there is nothing else in it. -/
def Text.IsPlain (text : String) : Prop := trim text = text ∨ trim text = ""

instance : DecidablePred Text.IsPlain := fun _ => inferInstanceAs (Decidable (_ ∨ _))

/-! ### Who is named -/

/-- Whoever is to be in a room makes it, or is named by a text that is not blank. -/
theorem mem_roster :
    userId ∈ roster creatorId requested ↔
      userId = creatorId ∨ ∃ name ∈ requested, Text.trim name ≠ "" ∧ Text.trim name = userId := by
  simp only [roster, List.mem_eraseDups, List.mem_cons, List.mem_filter, List.mem_map,
    decide_eq_true_eq]
  refine or_congr_right ⟨?_, ?_⟩
  · rintro ⟨⟨name, hname, rfl⟩, hblank⟩
    exact ⟨name, hname, hblank, rfl⟩
  · rintro ⟨name, hname, hblank, rfl⟩
    exact ⟨⟨name, hname, rfl⟩, hblank⟩

/-- Naming whoever makes the room, or nobody, changes nothing. -/
theorem roster_self (h : Text.trim own = creatorId ∨ Text.trim own = "") :
    roster creatorId (before ++ own :: after) = roster creatorId (before ++ after) := by
  unfold roster
  rw [List.map_append, List.map_append, List.map_cons, List.filter_append, List.filter_append]
  by_cases hblank : Text.trim own = ""
  · rw [List.filter_cons_of_neg (by simpa using hblank)]
  · -- The name of whoever makes the room is left out behind the first place.
    rw [List.filter_cons_of_pos (by simpa using hblank), h.resolve_right hblank,
      List.eraseDups_cons, List.eraseDups_cons]
    simp

/-- Of two identities in a direct room the second one has been named, by a text that does not name
the first one. -/
theorem exists_named_of_length (h : (roster creatorId requested).length = 2) :
    ∃ name ∈ requested, Text.trim name ≠ "" ∧ Text.trim name ≠ creatorId := by
  obtain ⟨others, hothers⟩ := roster_eq_cons creatorId requested
  have hnodup := nodup_roster creatorId requested
  rw [hothers] at h hnodup
  obtain ⟨other, rfl⟩ := List.length_eq_one_iff.mp (Nat.succ.inj h)
  have hne : other ≠ creatorId := by
    rintro rfl
    exact absurd hnodup (by simp)
  have hmem : other ∈ roster creatorId requested := by simp [hothers]
  obtain ⟨name, hname, hblank, rfl⟩ := (mem_roster.mp hmem).resolve_left hne
  exact ⟨name, hname, hblank, hne⟩

/-! ### Who is a member -/

/-- The members of a room that is made are those of the roster. -/
theorem hasMember_of_made (h : (createRoom creatorId request).run.run g = (.ok room, g')) :
    room.hasMember userId = true ↔ userId ∈ roster creatorId request.memberIds := by
  obtain ⟨-, -, -, -, hids⟩ := run_createRoom_of_ok h
  rw [← hids, List.mem_map]
  simp [Room.hasMember]

/-- A room that is made is shown to its members. -/
theorem mem_listing_of_made (h : (createRoom creatorId request).run.run g = (.ok room, g'))
    (member : room.hasMember userId = true) : room ∈ g'.rooms.roomsOf userId := by
  obtain ⟨hrooms, -⟩ := run_createRoom_of_ok h
  rw [hrooms]
  exact RoomStore.mem_roomsOf.mpr ⟨⟨room.id, RoomStore.get?_add.trans (if_pos rfl)⟩, member⟩

/-- **Names.** Somebody makes a room, and it is made. Whoever is named by a text that is not blank
is a member under this text without the white space around it, and finds the room in the listing of
that identity. If the room is a direct one, whoever makes it is a member; so is somebody else who is
named, as long as nobody who has white space around the own name names himself by it. Moreover,
whether or not the room is made, it makes no difference to name whoever makes it, with any white
space around the name that does not belong to it; and it makes no difference to name nobody. -/
theorem createRoom_honours_names (creatorId : String) (request : CreateRoom) (g : Gateway) :
    let made := (createRoom creatorId request).run.run g
    (∀ room, made.1 = .ok room →
      (∀ name ∈ request.memberIds, Text.trim name ≠ "" →
        room.hasMember (Text.trim name) = true ∧
        ∃ rooms, ((listRooms (Text.trim name)).run.run made.2).1 = .ok rooms ∧ room ∈ rooms) ∧
      (request.kind = .direct → room.hasMember creatorId = true ∧
        ((creatorId ∈ request.memberIds → Text.IsPlain creatorId) →
          ∃ name ∈ request.memberIds, name ≠ creatorId ∧ Text.trim name ≠ creatorId ∧
            room.hasMember (Text.trim name) = true))) ∧
    ∀ before own after, request.memberIds = before ++ own :: after →
      (Text.trim own = creatorId ∨ Text.trim own = "") →
      made = (createRoom creatorId { request with memberIds := before ++ after }).run.run g := by
  intro made
  have hmade : ∀ room, made.1 = .ok room →
      (createRoom creatorId request).run.run g = (.ok room, made.2) :=
    fun room hroom => Prod.ext hroom rfl
  refine ⟨fun room hroom => ⟨?_, ?_⟩, ?_⟩
  · intro name hname hblank
    have hmember : room.hasMember (Text.trim name) = true :=
      (hasMember_of_made (hmade room hroom)).mpr
        (mem_roster.mpr (Or.inr ⟨name, hname, hblank, rfl⟩))
    exact ⟨hmember, _, congrArg Prod.fst (run_listRooms _ _),
      mem_listing_of_made (hmade room hroom) hmember⟩
  · intro hdirect
    refine ⟨(hasMember_of_made (hmade room hroom)).mpr (mem_roster.mpr (Or.inl rfl)), ?_⟩
    intro hplain
    -- There are two on the roster, so somebody on it is not the one who makes the room.
    have hlength : (roster creatorId request.memberIds).length = 2 :=
      (createRoom_accepts_iff.mp ⟨room, hroom⟩).2.resolve_left (by simp [hdirect])
    obtain ⟨name, hname, hblank, hother⟩ := exists_named_of_length hlength
    refine ⟨name, hname, ?_, hother, ?_⟩
    · -- Only a name with white space around it is not the name that is left of it.
      rintro rfl
      exact (hplain hname).elim hother hblank
    · exact (hasMember_of_made (hmade room hroom)).mpr
        (mem_roster.mpr (Or.inr ⟨name, hname, hblank, rfl⟩))
  · intro before own after hrequest hown
    have hmembers : memberList creatorId request.memberIds =
        memberList creatorId (before ++ after) := by
      rw [memberList_eq_roster, memberList_eq_roster, hrequest, roster_self hown]
    have hrefusal : request.refusal? creatorId =
        { request with memberIds := before ++ after }.refusal? creatorId := by
      unfold CreateRoom.refusal?
      rw [hmembers]
      rfl
    rw [show made = _ from run_createRoom creatorId request g, run_createRoom, hmembers, hrefusal]
    rfl

/-- Alice makes a direct room, naming herself and Bob with white space around the names. Bob is a
member and finds the room, there is somebody else than Alice in it, and that she is named makes no
difference. -/
theorem createRoom_honours_names_of_pair :
    let request : CreateRoom := ⟨"pair", .direct, ["\u2003bob", "alice "]⟩
    let made := (createRoom "alice" request).run.run Petition.nowhere
    ∃ room, made.1 = .ok room ∧ room.hasMember "bob" = true ∧
      (∃ rooms, ((listRooms "bob").run.run made.2).1 = .ok rooms ∧ room ∈ rooms) ∧
      (∃ name ∈ request.memberIds, Text.trim name ≠ "alice" ∧
        room.hasMember (Text.trim name) = true) ∧
      made = (createRoom "alice" ⟨"pair", .direct, ["\u2003bob"]⟩).run.run Petition.nowhere := by
  intro request made
  have hbob : Text.trim "\u2003bob" = "bob" := by decide +kernel
  obtain ⟨room, hroom⟩ : ∃ room, made.1 = .ok room :=
    createRoom_accepts_iff.mpr ⟨by decide +kernel, Or.inr (by decide +kernel)⟩
  obtain ⟨hmade, hself⟩ := createRoom_honours_names "alice" request Petition.nowhere
  obtain ⟨hnamed, hdirect⟩ := hmade room hroom
  obtain ⟨hmember, hlisted⟩ := hnamed "\u2003bob" List.mem_cons_self (by decide +kernel)
  rw [hbob] at hmember hlisted
  obtain ⟨name, hname, -, hother, hin⟩ := (hdirect rfl).2 fun _ => Or.inl (by decide +kernel)
  exact ⟨room, hroom, hmember, hlisted, ⟨name, hname, hother, hin⟩,
    hself ["\u2003bob"] "alice " [] rfl (Or.inl (by decide +kernel))⟩

/-- Of a name with white space around it only the rest is a member. Somebody who has such a name and
uses it is taken for somebody else, and has a direct room with nobody. -/
theorem names_not_honoured :
    let made := (createRoom "alice" ⟨"den", .group, [" bob"]⟩).run.run Petition.nowhere
    let alone := (createRoom " alice" ⟨"pair", .direct, [" alice"]⟩).run.run Petition.nowhere
    (∃ room, made.1 = .ok room ∧ room.hasMember " bob" = false) ∧
      ((listRooms " bob").run.run made.2).1 = .ok [] ∧
      ∃ room, alone.1 = .ok room ∧ room.members.map (·.userId) = [" alice", "alice"] := by
  exact ⟨⟨_, rfl, by decide +kernel⟩, by decide +kernel, ⟨_, rfl, by decide +kernel⟩⟩

end RoomRelay
