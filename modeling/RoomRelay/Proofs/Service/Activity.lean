import RoomRelay.Proofs.Registry.Lookup
import RoomRelay.Proofs.Service.Petitions

/-!
# Listings follow activity

A room is active when it is made and whenever a message is accepted for it. The store keeps of each
room one point in time only, which is read from the clock after the message has been stored, and
sorts by that. On a clock that never shows the same time twice this puts the rooms of an identity in
the order in which they were last active, as told by the messages themselves.

## Main definitions

* `Supply.Ticking` — every reading of the clock is later than those before it
* `Petition.lastActivity` — when a room was last active in the course of a run
* `Petition.LaterThan` — one room was active after another one, by the messages and by the store
* `Petition.Shows` — what a listing shows after a run

## Main results

* `RoomStore.mem_roomsOf`, `RoomStore.pairwise_roomsOf` — a listing is complete and sorted
* `Petition.Run.paced` — of two rooms that are stored, one was active after the other
* `Petition.Run.listings_follow_activity` — what listings show after a run, and after one more
  message
-/

namespace RoomRelay

open Routine

/-! ### Points in time -/

namespace Timestamp

variable {a b c : Timestamp}

theorem lt_def : a < b ↔ a.seconds < b.seconds ∨ (a.seconds = b.seconds ∧ a.nanos < b.nanos) :=
  Iff.rfl

theorem lt_irrefl (a : Timestamp) : ¬ a < a := by
  rw [lt_def]
  omega

theorem lt_trans (h : a < b) (h' : b < c) : a < c := by
  rw [lt_def] at h h' ⊢
  omega

theorem lt_asymm (h : a < b) : ¬ b < a := fun h' => lt_irrefl a (lt_trans h h')

theorem lt_or_eq_or_gt (a b : Timestamp) : a < b ∨ a = b ∨ b < a := by
  obtain ⟨seconds, nanos⟩ := a
  obtain ⟨seconds', nanos'⟩ := b
  rw [lt_def, lt_def, Timestamp.mk.injEq]
  simp only
  omega

end Timestamp

/-- Every reading of the clock is later than those before it. -/
def Supply.Ticking (s : Supply) : Prop := ∀ m n, m < n → s.times m < s.times n

/-! ### Listings -/

namespace RoomStore

variable {s : RoomStore} {a b c room : Room} {userId : String}

theorem comesBefore_iff :
    comesBefore a b = true ↔
      b.updatedAt < a.updatedAt ∨ (a.updatedAt = b.updatedAt ∧ a.id.toNat ≤ b.id.toNat) := by
  unfold comesBefore
  split
  · rename_i heq
    simp [heq, Timestamp.lt_irrefl]
  · rename_i hne
    simp [hne]

theorem comesBefore_trans (h : comesBefore a b = true) (h' : comesBefore b c = true) :
    comesBefore a c = true := by
  rw [comesBefore_iff] at h h' ⊢
  rcases h with hab | ⟨hab, hid⟩
  · rcases h' with hbc | ⟨hbc, -⟩
    · exact Or.inl (Timestamp.lt_trans hbc hab)
    · exact Or.inl (hbc ▸ hab)
  · rcases h' with hbc | ⟨hbc, hid'⟩
    · exact Or.inl (hab ▸ hbc)
    · exact Or.inr ⟨hab.trans hbc, Nat.le_trans hid hid'⟩

theorem comesBefore_total (a b : Room) : (comesBefore a b || comesBefore b a) = true := by
  rw [Bool.or_eq_true, comesBefore_iff, comesBefore_iff]
  rcases Timestamp.lt_or_eq_or_gt a.updatedAt b.updatedAt with hlt | heq | hgt
  · exact Or.inr (Or.inl hlt)
  · exact (Nat.le_total a.id.toNat b.id.toNat).imp (fun h => Or.inr ⟨heq, h⟩)
      fun h => Or.inr ⟨heq.symm, h⟩
  · exact Or.inl (Or.inl hgt)

/-- A listing shows the rooms of which the identity is a member. -/
theorem mem_roomsOf :
    room ∈ s.roomsOf userId ↔ (∃ id, s.get? id = some room) ∧ room.hasMember userId = true := by
  rw [roomsOf, List.mem_mergeSort, List.mem_filter, Table.values, List.mem_map]
  refine and_congr_left fun _ => ?_
  constructor
  · rintro ⟨⟨id, room⟩, hmem, rfl⟩
    exact ⟨id, Table.get?_eq_some_iff.mpr hmem⟩
  · rintro ⟨id, hid⟩
    exact ⟨(id, room), Table.get?_eq_some_iff.mp hid, rfl⟩

/-- A listing shows no room twice, if every room stands under its own identifier. -/
theorem nodup_roomsOf (filed : s.Filed) : ((s.roomsOf userId).map (·.id)).Nodup := by
  have hkeys : s.rooms.values.map (·.id) = s.rooms.entries.map Prod.fst := by
    rw [Table.values, List.map_map, List.map_inj_left]
    intro entry hmem
    exact filed _ _ (Table.get?_eq_some_iff.mpr hmem)
  refine (((List.mergeSort_perm _ _).map _).nodup_iff).mpr ?_
  refine (List.filter_sublist.map _).nodup ?_
  rw [hkeys]
  exact s.rooms.nodup

/-- A listing is sorted by when the rooms were last active. -/
theorem pairwise_roomsOf :
    (s.roomsOf userId).Pairwise fun a b => comesBefore a b = true :=
  @List.pairwise_mergeSort _ comesBefore (fun _ _ _ => comesBefore_trans) comesBefore_total _

/-- The room that was active last comes first. -/
theorem roomsOf_eq_cons (h : room ∈ s.roomsOf userId)
    (latest : ∀ other ∈ s.roomsOf userId, other ≠ room → other.updatedAt < room.updatedAt) :
    ∃ rest, s.roomsOf userId = room :: rest := by
  have hsorted : (s.roomsOf userId).Pairwise fun a b => comesBefore a b = true := pairwise_roomsOf
  cases hlist : s.roomsOf userId with
  | nil => exact absurd (hlist ▸ h) (by simp)
  | cons first rest =>
    rw [hlist] at h latest hsorted
    rcases List.mem_cons.mp h with rfl | hrest
    · exact ⟨rest, rfl⟩
    · -- Another room in front would have been active no earlier.
      by_cases heq : first = room
      · exact ⟨rest, heq ▸ rfl⟩
      · have hlt := latest first List.mem_cons_self heq
        rcases comesBefore_iff.mp ((List.pairwise_cons.mp hsorted).1 room hrest) with hgt | ⟨he, -⟩
        · exact absurd hgt (Timestamp.lt_asymm hlt)
        · exact absurd (he ▸ hlt) (Timestamp.lt_irrefl _)

end RoomStore

theorem run_listRooms (userId : String) (g : Gateway) :
    (listRooms userId).run.run g = (.ok (g.rooms.roomsOf userId), g) := rfl

/-! ### Activity -/

namespace Petition

variable {start last g after : Gateway} {past : List (Moment Gateway (Petition × Outcome))}
variable {petition : Petition} {id other : Uuid} {room a b : Room} {userId : String}

/-- The room that has been active, and when: it was made, or a message was accepted for it. -/
def Outcome.activity? : Outcome → Option (Uuid × Timestamp)
  | made room => some (room.id, room.createdAt)
  | posted message => some (message.roomId, message.createdAt)
  | refused _ => none

/-- When which room was active in the course of a run. -/
def activities (past : List (Moment Gateway (Petition × Outcome))) : List (Uuid × Timestamp) :=
  past.filterMap fun m => m.event.2.activity?

/-- When a room was last active in the course of a run: when the latest message was accepted for it,
or else when it was made. -/
def lastActivity (past : List (Moment Gateway (Petition × Outcome))) (id : Uuid) :
    Option Timestamp :=
  ((activities past).filter (·.1 = id)).getLast?.map Prod.snd

theorem lastActivity_snoc {m : Moment Gateway (Petition × Outcome)} :
    lastActivity (past ++ [m]) =
      match m.event.2.activity? with
      | some (active, time) => Function.update (lastActivity past) active (some time)
      | none => lastActivity past := by
  funext id
  unfold lastActivity activities
  rw [List.filterMap_append]
  cases hactive : m.event.2.activity? with
  | none => simp [hactive]
  | some activity =>
    obtain ⟨active, time⟩ := activity
    by_cases hid : id = active
    · simp [hactive, hid]
    · simp [hactive, hid, Ne.symm hid]

/-- A room is active while the clock is read: it is so from one reading on, and the store keeps a
reading that is no earlier. -/
structure Stirred (g : Gateway) (room : Room) (first second : Nat) (after : Gateway) : Prop where
  times_eq : after.supply.times = g.supply.times
  readings_le : g.supply.readings ≤ first
  first_le : first ≤ second
  second_lt : second < after.supply.readings
  updatedAt_eq : room.updatedAt = g.supply.times second
  get?_rooms : ∀ other,
    after.rooms.get? other = if room.id = other then some room else g.rooms.get? other

/-- The room of a message is active: the clock is read for the message, and again for the room. -/
theorem stirred_post (draft : MessageDraft) (filed : g.rooms.Filed)
    (h : g.rooms.get? id = some room) :
    Stirred g { room with updatedAt := g.supply.times (g.supply.readings + 1) } g.supply.readings
      (g.supply.readings + 1) ((g.createMessage draft).2.touch id) := by
  have hstored : (g.createMessage draft).2.rooms.get? id = some room := h
  refine ⟨?_, Nat.le_refl _, Nat.le_succ _, ?_, rfl, ?_⟩
  · simp only [Gateway.touch, hstored]
    rfl
  · simp only [Gateway.touch, hstored]
    exact Nat.lt_succ_self _
  · intro other
    rw [rooms_post h, RoomStore.get?_touch]
    simp only [filed _ _ h]
    split
    · rename_i hid
      rw [← hid, h, Option.map_some, filed _ _ h]
    · rfl

/-- A petition is refused and changes nothing, or a room is active. -/
theorem refused_or_stirred (petition : Petition) (filed : g.rooms.Filed) :
    ((petition.carryOut g).1.activity? = none ∧ (petition.carryOut g).2 = g) ∨
    ∃ room first second, Stirred g room first second (petition.carryOut g).2 ∧
      (petition.carryOut g).1.activity? = some (room.id, g.supply.times first) := by
  rcases carryOut_cases petition g with ⟨failure, he⟩ | ⟨creatorId, request, -, -, he⟩ |
    ⟨senderId, request, room, -, hroom, he⟩
  · rw [he]
    exact Or.inl ⟨rfl, rfl⟩
  · rw [he]
    exact Or.inr ⟨_, g.supply.readings, g.supply.readings,
      ⟨rfl, Nat.le_refl _, Nat.le_refl _, Nat.lt_succ_self _, rfl, fun _ => RoomStore.get?_add⟩,
      rfl⟩
  · rw [he]
    exact Or.inr ⟨_, _, _, stirred_post _ filed hroom,
      congrArg some (Prod.ext (filed _ _ hroom).symm rfl)⟩

/-- The first room was active after the second one: by what the run tells, and by what the store
keeps. -/
structure LaterThan (active : Uuid → Option Timestamp) (a b : Room) : Prop where
  activity : ∃ s t, active a.id = some s ∧ active b.id = some t ∧ t < s
  updatedAt : b.updatedAt < a.updatedAt

/-- Whatever room is stored was active at times that have been read, and of two rooms one was active
after the other. -/
structure Paced (active : Uuid → Option Timestamp) (g : Gateway) : Prop where
  read : ∀ id room, g.rooms.get? id = some room → ∃ m n, m < g.supply.readings ∧
    n < g.supply.readings ∧ active id = some (g.supply.times m) ∧
    room.updatedAt = g.supply.times n
  apart : ∀ a b room other, g.rooms.get? a = some room → g.rooms.get? b = some other → a ≠ b →
    LaterThan active room other ∨ LaterThan active other room

/-- If a room is active, it is so after all others. -/
theorem Paced.stirred {active : Uuid → Option Timestamp} {first second : Nat}
    (h : Paced active g) (ticking : g.supply.Ticking) (filed : g.rooms.Filed)
    (stirred : Stirred g room first second after) :
    Paced (Function.update active room.id (some (g.supply.times first))) after := by
  have hfirst := stirred.readings_le
  have hle := stirred.first_le
  have hsecond := stirred.second_lt
  -- Of two rooms one of which is active now, that one comes later.
  have hlater : ∀ id other, room.id ≠ id → g.rooms.get? id = some other →
      LaterThan (Function.update active room.id (some (g.supply.times first))) room other := by
    intro id other hne hother
    obtain ⟨m, n, hm, hn, hactive, hupdated⟩ := h.read _ _ hother
    obtain rfl := filed _ _ hother
    refine ⟨⟨_, _, Function.update_self .., (Function.update_of_ne (Ne.symm hne) ..).trans hactive,
      ticking _ _ (by omega)⟩, ?_⟩
    rw [hupdated, stirred.updatedAt_eq]
    exact ticking _ _ (by omega)
  -- Of two others that one comes later that did before.
  have hkeep : ∀ {a b : Room}, room.id ≠ a.id → room.id ≠ b.id → LaterThan active a b →
      LaterThan (Function.update active room.id (some (g.supply.times first))) a b := by
    intro a b ha hb hab
    refine ⟨?_, hab.updatedAt⟩
    rw [Function.update_of_ne (Ne.symm ha), Function.update_of_ne (Ne.symm hb)]
    exact hab.activity
  refine ⟨?_, ?_⟩
  · intro id found hfound
    rw [stirred.get?_rooms] at hfound
    rw [stirred.times_eq]
    split at hfound
    · rename_i hid
      obtain rfl := Option.some_inj.mp hfound
      refine ⟨first, second, by omega, hsecond, ?_, stirred.updatedAt_eq⟩
      rw [← hid, Function.update_self]
    · rename_i hid
      obtain ⟨m, n, hm, hn, hactive, hupdated⟩ := h.read _ _ hfound
      exact ⟨m, n, by omega, by omega, (Function.update_of_ne (Ne.symm hid) ..).trans hactive,
        hupdated⟩
  · intro a b found other hfound hother hne
    rw [stirred.get?_rooms] at hfound hother
    split at hfound
    · rename_i hid
      obtain rfl := Option.some_inj.mp hfound
      rw [if_neg (hid ▸ hne)] at hother
      exact Or.inl (hlater b other (hid ▸ hne) hother)
    · rename_i hid
      split at hother
      · obtain rfl := Option.some_inj.mp hother
        exact Or.inr (hlater a found hid hfound)
      · rename_i hid'
        have hsplit := h.apart _ _ _ _ hfound hother hne
        obtain rfl := filed _ _ hfound
        obtain rfl := filed _ _ hother
        exact hsplit.imp (hkeep hid hid') (hkeep hid' hid)

/-- Of two rooms that are stored after a run one was active after the other. -/
theorem Run.paced (run : Run start past last) (empty : start.rooms = {})
    (ticking : start.supply.Ticking) : Paced (lastActivity past) last ∧ last.supply.Ticking := by
  induction run with
  | nil =>
    have hnone : ∀ id room, ¬ start.rooms.get? id = some room := by
      simp [empty, RoomStore.get?]
    exact ⟨⟨fun id room h => absurd h (hnone id room),
      fun id _ room _ h => absurd h (hnone id room)⟩, ticking⟩
  | snoc run step ih =>
    obtain ⟨hpaced, hticking⟩ := ih
    have hfiled := Run.filed run empty
    obtain @⟨petition⟩ := step
    rw [lastActivity_snoc]
    rcases refused_or_stirred petition hfiled with ⟨hnone, he⟩ |
      ⟨room, first, second, hstirred, hactive⟩
    · simp only [hnone]
      rw [he]
      exact ⟨hpaced, hticking⟩
    · simp only [hactive]
      refine ⟨hpaced.stirred hticking hfiled hstirred, ?_⟩
      rw [Supply.Ticking, hstirred.times_eq]
      exact hticking

/-! ### What listings show -/

/-- What a listing shows an identity after a run: the rooms that were made with the identity as a
member, each once, in the order in which they were last active, the latest one first. -/
structure Shows (past : List (Moment Gateway (Petition × Outcome))) (userId : String)
    (rooms : List Room) : Prop where
  /-- A room that is shown was made with the identity as a member, and is as it was made but for
  when it was last active. -/
  made_of_mem : ∀ room ∈ rooms, ∃ first ∈ made past, first.hasMember userId = true ∧
    room = { first with updatedAt := room.updatedAt }
  /-- Every such room is shown. -/
  mem_of_made : ∀ first ∈ made past, first.hasMember userId = true → ∃ time,
    { first with updatedAt := time } ∈ rooms
  /-- None is shown twice. -/
  nodup : (rooms.map (·.id)).Nodup
  /-- A room that is shown before another one was active after it. -/
  latest_first : rooms.Pairwise fun a b =>
    ∃ s t, lastActivity past a.id = some s ∧ lastActivity past b.id = some t ∧ t < s

theorem Run.shows (run : Run start past last) (empty : start.rooms = {})
    (ticking : start.supply.Ticking) (distinct : DistinctRooms past) (userId : String) :
    Shows past userId (last.rooms.roomsOf userId) where
  made_of_mem := by
    intro room hroom
    obtain ⟨⟨id, hid⟩, hmember⟩ := RoomStore.mem_roomsOf.mp hroom
    obtain ⟨-, first, hfirst, heq⟩ := Run.made_of_stored run empty hid
    refine ⟨first, hfirst, ?_, heq⟩
    rw [heq] at hmember
    exact hmember
  mem_of_made := by
    intro first hfirst hmember
    obtain ⟨time, htime⟩ := Run.stored_of_made run distinct hfirst
    exact ⟨time, RoomStore.mem_roomsOf.mpr ⟨⟨_, htime⟩, hmember⟩⟩
  nodup := RoomStore.nodup_roomsOf (Run.filed run empty)
  latest_first := by
    have hfiled := Run.filed run empty
    have hpaced := (Run.paced run empty ticking).1
    have hnodup : ((last.rooms.roomsOf userId).map (·.id)).Nodup := RoomStore.nodup_roomsOf hfiled
    have hdistinct := List.pairwise_map.mp hnodup
    -- Rooms that are shown are apart in time, and the store puts the later one in front.
    refine (RoomStore.pairwise_roomsOf.and hdistinct).imp_of_mem ?_
    rintro a b ha hb ⟨hbefore, hne⟩
    obtain ⟨⟨idA, hidA⟩, -⟩ := RoomStore.mem_roomsOf.mp ha
    obtain ⟨⟨idB, hidB⟩, -⟩ := RoomStore.mem_roomsOf.mp hb
    obtain rfl := hfiled _ _ hidA
    obtain rfl := hfiled _ _ hidB
    rcases hpaced.apart _ _ _ _ hidA hidB hne with hlater | hearlier
    · exact hlater.activity
    · -- The store would have put the other one in front.
      rcases RoomStore.comesBefore_iff.mp hbefore with hlt | ⟨heq, -⟩
      · exact absurd hlt (Timestamp.lt_asymm hearlier.updatedAt)
      · exact absurd (heq ▸ hearlier.updatedAt) (Timestamp.lt_irrefl _)

/-- A room that is active comes first in every listing that shows it. -/
theorem Stirred.roomsOf_eq_cons {active : Uuid → Option Timestamp} {first second : Nat}
    (h : Stirred g room first second after) (paced : Paced active g)
    (ticking : g.supply.Ticking) (member : room.hasMember userId = true) :
    ∃ rest, after.rooms.roomsOf userId = room :: rest := by
  have hroom : after.rooms.get? room.id = some room := (h.get?_rooms _).trans (if_pos rfl)
  refine RoomStore.roomsOf_eq_cons (RoomStore.mem_roomsOf.mpr ⟨⟨_, hroom⟩, member⟩) ?_
  intro other hother hne
  obtain ⟨⟨id, hid⟩, -⟩ := RoomStore.mem_roomsOf.mp hother
  rw [h.get?_rooms] at hid
  split at hid
  · exact absurd (Option.some_inj.mp hid).symm hne
  · -- All others were active before.
    obtain ⟨m, n, hm, hn, -, hupdated⟩ := paced.read _ _ hid
    have hle := h.readings_le
    have hle' := h.first_le
    rw [hupdated, h.updatedAt_eq]
    exact ticking _ _ (by omega)

/-! ### One more message -/

/-- A message that is accepted is for a room that is stored, and only that room is active. -/
theorem run_sendMessage_of_ok {senderId : String} {request : SendMessage} {message : Message}
    (h : (sendMessage senderId request).run.run g = (.ok message, after)) :
    ∃ room, g.rooms.get? message.roomId = some room ∧
      after = (g.createMessage (request.draft senderId)).2.touch message.roomId := by
  rw [run_sendMessage] at h
  split at h
  · exact absurd (Prod.mk.inj h).1 (by simp)
  · exact absurd (Prod.mk.inj h).1 (by simp)
  · rename_i room _ hroom
    obtain ⟨hmessage, rfl⟩ := Prod.mk.inj h
    obtain rfl := Except.ok.inj hmessage
    exact ⟨room, hroom, rfl⟩

/-- A message that is refused changes nothing. -/
theorem run_sendMessage_of_error {senderId : String} {request : SendMessage}
    {failure : ServiceFailure}
    (h : (sendMessage senderId request).run.run g = (.error failure, after)) : after = g := by
  rw [run_sendMessage] at h
  split at h
  · exact (Prod.mk.inj h).2.symm
  · exact (Prod.mk.inj h).2.symm
  · exact absurd (Prod.mk.inj h).1 (by simp)

/-- **Listings.** Rooms are made and messages are sent, in any order, from a store without rooms on,
and the clock never shows the same time twice. Then the listing of an identity shows the rooms that
were made with it as a member, each once, and a room comes before another one if it was active after
it: that is, if the latest message accepted for it, or else its making, came later. If one more
message is accepted its room comes first in the listing of each of its members, and if it is refused
no listing changes. -/
theorem Run.listings_follow_activity (run : Run start past last) (empty : start.rooms = {})
    (ticking : start.supply.Ticking) (distinct : DistinctRooms past) (userId : String) :
    (∃ rooms, (listRooms userId).run.run last = (.ok rooms, last) ∧ Shows past userId rooms) ∧
    ∀ senderId request,
      let sent := (sendMessage senderId request).run.run last
      (∀ message, sent.1 = .ok message →
        (∃ first ∈ made past, first.id = message.roomId ∧ first.hasMember userId = true) →
        ∃ room rest, ((listRooms userId).run.run sent.2).1 = .ok (room :: rest) ∧
          room.id = message.roomId) ∧
      ∀ failure, sent.1 = .error failure →
        (listRooms userId).run.run sent.2 = (listRooms userId).run.run last := by
  refine ⟨⟨_, run_listRooms userId last, Run.shows run empty ticking distinct userId⟩, ?_⟩
  intro senderId request sent
  constructor
  · rintro message hmessage ⟨first, hfirst, hid, hmember⟩
    obtain ⟨room, hroom, hafter⟩ := run_sendMessage_of_ok (Prod.ext hmessage rfl)
    obtain ⟨hpaced, hticking⟩ := Run.paced run empty ticking
    have hstirred := stirred_post (request.draft senderId) (Run.filed run empty) hroom
    -- The room for which the message is accepted is the one that was made.
    obtain ⟨time, htime⟩ := Run.stored_of_made run distinct hfirst
    rw [hid, hroom] at htime
    have hmember' : room.hasMember userId = true := by
      rw [Option.some_inj.mp htime]
      exact hmember
    obtain ⟨rest, hrest⟩ := hstirred.roomsOf_eq_cons hpaced hticking hmember'
    refine ⟨{ room with updatedAt := last.supply.times (last.supply.readings + 1) }, rest, ?_,
      Run.filed run empty message.roomId room hroom⟩
    rw [show sent.2 = _ from hafter, run_listRooms, hrest]
  · intro failure hfailure
    rw [show sent.2 = last from run_sendMessage_of_error (Prod.ext hfailure rfl)]

/-- Alice makes three rooms, with Bob in two of them. Something is said in the first one and then in
the second one, and what is said in the third one is blank. -/
def chatter : List Petition :=
  [.create "alice" ⟨"books", .group, ["bob"]⟩, .create "alice" ⟨"films", .group, []⟩,
    .create "alice" ⟨"music", .group, ["bob"]⟩, .send "bob" ⟨.version4 0, "hi", .text, none⟩,
    .send "alice" ⟨.version4 1, "hello", .text, none⟩, .send "bob" ⟨.version4 2, " ", .text, none⟩]

/-- Alice is shown her three rooms in the order of activity; when Bob says something in the third
one, that one comes first. -/
theorem Run.listings_follow_activity_of_chatter :
    let run := play nowhere chatter
    let sent := (sendMessage "bob" ⟨.version4 2, "la", .text, none⟩).run.run run.2
    nowhere.rooms = {} ∧ nowhere.supply.Ticking ∧ DistinctRooms run.1 ∧
      activities run.1 = [(.version4 0, ⟨0, 0⟩), (.version4 1, ⟨1, 0⟩), (.version4 2, ⟨2, 0⟩),
        (.version4 0, ⟨3, 0⟩), (.version4 1, ⟨5, 0⟩)] ∧
      (∃ rooms, (listRooms "alice").run.run run.2 = (.ok rooms, run.2) ∧
        Shows run.1 "alice" rooms) ∧
      (∃ first ∈ made run.1, first.id = .version4 2 ∧ first.hasMember "alice" = true) ∧
      ∃ room rest, ((listRooms "alice").run.run sent.2).1 = .ok (room :: rest) ∧
        room.id = .version4 2 := by
  intro run sent
  have hticking : nowhere.supply.Ticking := fun m n hmn => Or.inl (Int.ofNat_lt.mpr hmn)
  have hdistinct : DistinctRooms run.1 := by decide +kernel
  have hmade : ∃ first ∈ made run.1, first.id = .version4 2 ∧ first.hasMember "alice" = true := by
    decide +kernel
  have hsent : sent.1.toOption.map (·.roomId) = some (.version4 2) := by decide +kernel
  obtain ⟨message, hmessage, hroom⟩ : ∃ message, sent.1 = .ok message ∧
      message.roomId = .version4 2 := by
    cases hanswer : sent.1 with
    | error failure => simp [hanswer, Except.toOption] at hsent
    | ok message => exact ⟨message, rfl, by simpa [hanswer, Except.toOption] using hsent⟩
  have hlistings := Run.listings_follow_activity (Run.of_play nowhere chatter) rfl hticking
    hdistinct "alice"
  refine ⟨rfl, hticking, hdistinct, by decide +kernel, hlistings.1, hmade, ?_⟩
  rw [← hroom] at hmade ⊢
  exact (hlistings.2 _ _).1 message hmessage hmade

end Petition

end RoomRelay
