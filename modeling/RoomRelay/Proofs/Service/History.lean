import RoomRelay.Proofs.Gateway.Execution

/-!
# The history of a room

Messages are sent one after the other, to any rooms; some are accepted and some are refused. The
history of a room is then made of the messages that were accepted for it, in the order in which they
were sent, and every listing shows a window of that history. A window is counted from the newest
message, so the windows of one size that stand side by side cover the history from its end to its
beginning.

## Main definitions

* `sendAll` — messages sent one after the other, and those of them that are accepted
* `windowSize`, `windowSkip` — how many messages a listing shows, and how many newer ones it skips
* `window` — the messages between two places counted from the end

## Main results

* `MessageStore.page_eq_window` — a page of a history is a window
* `flatMap_window` — windows side by side cover the history
* `history_sendAll` — the history after some messages have been sent
* `history_windows` — what listings show after that
-/

namespace RoomRelay

open Routine

variable {α : Type}

/-! ### Windows -/

/-- How many messages a listing shows: fifty if no number is given or the number is not positive,
and never more than a hundred. -/
def windowSize : Option Int → Nat
  | none => 50
  | some limit => if limit ≤ 0 then 50 else min limit.toNat 100

/-- How many of the newest messages a listing skips: none if no number is given or the number is
negative. -/
def windowSkip : Option Int → Nat
  | none => 0
  | some offset => if offset < 0 then 0 else offset.toNat

@[simp] theorem windowSkip_natCast (n : Nat) : windowSkip (some n) = n := by
  rw [windowSkip, if_neg (by omega), Int.toNat_natCast]

/-- Of `n` items those from the place `n - skip - size` up to the place `n - skip`, where a place
before the first one is the first one. -/
def window (xs : List α) (size skip : Nat) : List α :=
  xs.extract (xs.length - skip - size) (xs.length - skip)

theorem toNat_pageSize (limit : Option Int) : (pageSize limit).toNat = windowSize limit := by
  unfold pageSize windowSize maxPageSize defaultPageSize
  cases limit with
  | none => rfl
  | some limit =>
    simp only
    split <;> split <;> omega

theorem toNat_offset (offset : Option Int) :
    (max (offset.getD 0) 0).toNat = windowSkip offset := by
  unfold windowSkip
  cases offset with
  | none => rfl
  | some offset =>
    simp only [Option.getD_some]
    split <;> omega

/-- The items from one place up to another one, seen from the second place. -/
theorem window_eq_drop_take (xs : List α) (size skip : Nat) :
    window xs size skip =
      (xs.take (xs.length - skip)).drop (xs.length - skip - size) := by
  rw [window, List.extract_eq_take_drop, ← List.drop_take]

/-- A page of a history is a window of it. -/
theorem MessageStore.page_eq_window (s : MessageStore) (roomId : Uuid) (limit offset : Int) :
    s.page roomId limit offset = window (s.history roomId) limit.toNat offset.toNat := by
  unfold page
  rw [window_eq_drop_take, List.drop_reverse, List.take_reverse, List.reverse_reverse,
    List.length_take, Nat.min_eq_left (Nat.sub_le _ _)]

/-- The windows up to one of them, put together in the order of the history, reach from where that
one begins to the newest item. -/
theorem flatMap_window_eq_drop (xs : List α) (size count : Nat) :
    (List.range count).reverse.flatMap (fun number => window xs size (number * size)) =
      xs.drop (xs.length - count * size) := by
  induction count with
  | zero => simp
  | succ count ih =>
    -- The window that is put in front ends where the others begin.
    have hplace : xs.length - (count + 1) * size = xs.length - count * size - size := by
      rw [Nat.succ_mul, Nat.sub_sub]
    have hle : xs.length - count * size - size ≤ (xs.take (xs.length - count * size)).length := by
      rw [List.length_take]
      omega
    calc
      _ = (xs.take (xs.length - count * size)).drop (xs.length - count * size - size) ++
          xs.drop (xs.length - count * size) := by
        rw [List.range_succ, List.reverse_append, List.reverse_singleton, List.singleton_append,
          List.flatMap_cons, ih, window_eq_drop_take]
      _ = xs.drop (xs.length - (count + 1) * size) := by
        rw [← List.drop_append_of_le_length hle, List.take_append_drop, hplace]

/-- Windows side by side cover the whole history, each item once. -/
theorem flatMap_window (xs : List α) {size count : Nat} (h : xs.length ≤ count * size) :
    (List.range count).reverse.flatMap (fun number => window xs size (number * size)) = xs := by
  rw [flatMap_window_eq_drop, Nat.sub_eq_zero_of_le h, List.drop_zero]

/-! ### Sending -/

/-- Messages are sent one after the other, each by an identity. What comes of it are the messages
that are accepted, in their order, and the gateway after all of them. -/
def sendAll : List (String × SendMessage) → Gateway → List Message × Gateway
  | [], g => ([], g)
  | (senderId, request) :: sends, g =>
    let sent := (sendMessage senderId request).run.run g
    let later := sendAll sends sent.2
    (sent.1.toOption.toList ++ later.1, later.2)

theorem run_store (call : StoreCall) (g : Gateway) :
    (Service.store call).run.run g = (.ok (g.store call).1, (g.store call).2) := rfl

/-- A message is stored and its room is active, or the request is refused and nothing changes. -/
theorem run_sendMessage (senderId : String) (request : SendMessage) (g : Gateway) :
    (sendMessage senderId request).run.run g =
      match request.refusal?, g.rooms.get? request.roomId with
      | some failure, _ => (.error failure, g)
      | none, none => (.error (.domain (.unknownRoom request.roomId)), g)
      | none, some _ =>
        let (message, stored) := g.createMessage (request.draft senderId)
        (.ok message, stored.touch message.roomId) := by
  unfold sendMessage SendMessage.refusal? Service.check
  cases hcheck : request.check with
  | error fault => rfl
  | ok _ =>
    by_cases hblank : Text.isBlank request.content = true
    · simp [SendMessage.draft, MessageDraft.isEmpty, hblank, Service.fail]
    · simp only [SendMessage.draft, MessageDraft.isEmpty, hblank, pure_bind]
      rw [if_neg Bool.false_ne_true, run_bind_of_ok (run_store (.findRoom request.roomId) g)]
      simp only [Gateway.store]
      cases g.rooms.get? request.roomId <;> rfl

/-- A message that is accepted is added to the history of its room; otherwise nothing is stored. -/
theorem history_run_sendMessage (senderId : String) (request : SendMessage) (g : Gateway)
    (roomId : Uuid) :
    ((sendMessage senderId request).run.run g).2.messages.history roomId =
      g.messages.history roomId ++
        ((sendMessage senderId request).run.run g).1.toOption.toList.filter
          (·.roomId = roomId) := by
  rw [run_sendMessage]
  split
  · simp [Except.toOption]
  · simp [Except.toOption]
  · rw [Gateway.messages_touch]
    simp [Gateway.createMessage, MessageStore.history_append, Except.toOption, List.filter_cons]

/-- The messages that are accepted for a room are added to its history in their order. -/
theorem history_sendAll (sends : List (String × SendMessage)) (g : Gateway) (roomId : Uuid) :
    (sendAll sends g).2.messages.history roomId =
      g.messages.history roomId ++ (sendAll sends g).1.filter (·.roomId = roomId) := by
  induction sends generalizing g with
  | nil => simp [sendAll]
  | cons send sends ih =>
    obtain ⟨senderId, request⟩ := send
    simp only [sendAll, ih, history_run_sendMessage, List.filter_append, List.append_assoc]

/-! ### Listing -/

theorem run_listMessages (roomId : Uuid) (limit offset : Option Int) (g : Gateway) :
    (listMessages roomId limit offset).run.run g =
      (.ok (window (g.messages.history roomId) (windowSize limit) (windowSkip offset)), g) := by
  rw [← toNat_pageSize, ← toNat_offset, ← MessageStore.page_eq_window]
  rfl

/-- **Histories.** Messages are sent one after the other to a gateway that has none yet. Then every
listing of a room shows the window that is asked for of the messages that were accepted for the
room, in the order in which they were sent, and changes nothing. The listings of one size that skip
none, one, two such sizes and so on, put together from the last one to the first one, show all
messages of the room, each as often as it was accepted. -/
theorem history_windows (g : Gateway) (sends : List (String × SendMessage)) (roomId : Uuid) :
    let sent := sendAll sends { g with messages := {} }
    let accepted := sent.1.filter (·.roomId = roomId)
    let listing := fun limit offset => (listMessages roomId limit offset).run.run sent.2
    (∀ limit offset,
      listing limit offset =
        (.ok (window accepted (windowSize limit) (windowSkip offset)), sent.2)) ∧
    ∀ (limit : Option Int) (count : Nat), accepted.length ≤ count * windowSize limit →
      ∃ pages, (List.range count).reverse.mapM
          (fun number => (listing limit (some (number * windowSize limit : Nat))).1) = .ok pages ∧
        pages.flatten = accepted := by
  intro sent accepted listing
  have hhistory : sent.2.messages.history roomId = accepted := history_sendAll _ _ _
  have hlisting : ∀ limit offset, listing limit offset =
      (.ok (window accepted (windowSize limit) (windowSkip offset)), sent.2) := by
    intro limit offset
    rw [← hhistory]
    exact run_listMessages roomId limit offset sent.2
  refine ⟨hlisting, fun limit count hcount => ?_⟩
  refine ⟨_, ?_, flatMap_window accepted hcount⟩
  simp only [hlisting, windowSkip_natCast]
  exact List.mapM_pure

/-! ### Small talk -/

/-- A gateway with one room. -/
def lounge : Gateway where
  rooms := RoomStore.add {} (.ofPlan ⟨"lounge", .group, "alice"⟩ ["alice"] (.version4 7) default)
  supply := { ids := .version4, times := fun _ => default }

/-- Messages for the room, one of them blank, and one for a room that does not exist. -/
def smallTalk : List (String × SendMessage) :=
  [("alice", ⟨.version4 7, "hi", .text, none⟩), ("bob", ⟨.version4 7, "hello", .text, none⟩),
   ("bob", ⟨.version4 8, "anyone?", .text, none⟩), ("bob", ⟨.version4 7, " ", .text, none⟩),
   ("alice", ⟨.version4 7, "bye", .text, none⟩)]

/-- Three messages are accepted, and two listings of two messages show all of them. -/
theorem history_windows_of_smallTalk :
    let sent := sendAll smallTalk { lounge with messages := {} }
    let accepted := sent.1.filter (·.roomId = .version4 7)
    accepted.map (·.content) = ["hi", "hello", "bye"] ∧ accepted.length ≤ 2 * windowSize (some 2) ∧
      ∃ pages, (List.range 2).reverse.mapM (fun number =>
          ((listMessages (.version4 7) (some 2) (some (number * windowSize (some 2) : Nat))).run.run
            sent.2).1) = .ok pages ∧
        pages.flatten = accepted := by
  intro sent accepted
  have hcontents : accepted.map (·.content) = ["hi", "hello", "bye"] := by decide +kernel
  have hlength : accepted.length ≤ 2 * windowSize (some 2) := by decide +kernel
  exact ⟨hcontents, hlength, (history_windows lounge smallTalk (.version4 7)).2 (some 2) 2 hlength⟩

end RoomRelay
