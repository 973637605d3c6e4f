import Mathlib.Data.List.Perm.Basic
import RoomRelay.Presence.Remote
import RoomRelay.Proofs.Presence.Typing

/-!
# Presence in memory and on a key server

The presence store in memory and the one on a key server answer alike. They forget in different
ways: a key disappears by itself as soon as its time to live has passed, whereas a typing set that
has lapsed stays in memory until somebody starts to type in its room or asks who does. So the two
states are not compared as they stand, but by what is left of them at a time.

## Main definitions

* `TimedCall` — a call at a time, with the text that is kept as a marker
* `PresenceMemory.answers`, `KeyServer.answers` — what is answered to several calls
* `PresenceMemory.live?` — the typing set of a room, unless it has lapsed
* `KeyServer.Mirrors` — a key server holds what is left of a presence store in memory
* `PresenceMemory.Leaves` — what a start leaves in the typing set of its room

## Main results

* `KeyServer.Mirrors.step` — a call is answered alike, and the two stay alike
* `PresenceMemory.typing_set_lapses` — a typing set lapses as a whole, and no stop makes it live
  longer
* `presence_answers_agree` — any number of calls is answered alike
-/

namespace RoomRelay

variable {p : PresenceMemory} {s : KeyServer} {now : Nat} {roomId userId key : String}

/-- A call to a presence store at a time, with what a key server is free to choose. -/
structure TimedCall where
  /-- The time, in milliseconds. -/
  time : Nat
  /-- The call. -/
  call : PresenceCall
  /-- The text that is kept as a marker at that time. -/
  stamp : String
  /-- How the key server arranges the elements of a set. -/
  arrange : List KeyServer.Reply → List KeyServer.Reply := id
  /-- It leaves none out and adds none. -/
  arrange_perm : ∀ items, (arrange items).Perm items := by exact fun items => .refl items

/-- What is answered to a call. -/
abbrev Answered := Σ call : PresenceCall, Except DomainFailure call.Answer

/-- The presence store in memory after some calls. -/
def PresenceMemory.afterAll (p : PresenceMemory) (calls : List TimedCall) : PresenceMemory :=
  p.afterCalls (calls.map fun c => (c.time, c.call))

/-- What the presence store in memory answers to some calls. -/
def PresenceMemory.answers : PresenceMemory → List TimedCall → List Answered
  | _, [] => []
  | p, c :: calls =>
    ⟨c.call, .ok (p.answer c.time c.call).1⟩ :: (p.answer c.time c.call).2.answers calls

/-- A reply with the items of a list arranged anew. -/
def KeyServer.Reply.arranged (arrange : List Reply → List Reply) : Reply → Reply
  | .list items => .list (arrange items)
  | reply => reply

/-- What is answered to a call by means of a key server, and the key server after it. -/
def TimedCall.remotely (c : TimedCall) (s : KeyServer) :
    Except DomainFailure c.call.Answer × KeyServer :=
  (c.call.read ((s.serve c.time (c.call.request c.stamp)).1.arranged c.arrange),
    (s.serve c.time (c.call.request c.stamp)).2)

/-- What is answered to some calls by means of a key server. -/
def KeyServer.answers : KeyServer → List TimedCall → List Answered
  | _, [] => []
  | s, c :: calls => ⟨c.call, (c.remotely s).1⟩ :: (c.remotely s).2.answers calls

/-- A key server that lists the elements of a set as they came answers as the model does. -/
theorem TimedCall.remotely_eq (c : TimedCall) (h : c.arrange = id) :
    c.remotely s = c.call.remotely c.stamp c.time s := by
  have hreply (reply : KeyServer.Reply) : reply.arranged c.arrange = reply := by
    rw [h]
    cases reply <;> rfl
  rw [remotely, PresenceCall.remotely, hreply]

/-! ### Keys -/

theorem onlineKey_injective : Function.Injective onlineKey := by
  intro u v h
  simpa [onlineKey, ← String.toList_inj] using h

theorem typingKey_injective : Function.Injective typingKey := by
  intro r q h
  simpa [typingKey, ← String.toList_inj] using h

/-- Markers and typing sets never share a key. -/
theorem onlineKey_ne_typingKey (userId roomId : String) : onlineKey userId ≠ typingKey roomId := by
  intro h
  have hhead := congrArg (fun key => key.toList.head?) h
  simp [onlineKey, typingKey] at hhead

@[simp] theorem onlineKey_inj {u v : String} : onlineKey u = onlineKey v ↔ u = v :=
  onlineKey_injective.eq_iff

@[simp] theorem typingKey_inj {r q : String} : typingKey r = typingKey q ↔ r = q :=
  typingKey_injective.eq_iff

namespace PresenceMemory

/-! ### Texts in order -/

theorem pairwise_sorted (texts : List String) : (sorted texts).Pairwise (· ≤ ·) := by
  refine (List.pairwise_mergeSort ?_ ?_ texts).imp of_decide_eq_true
  · intro a b c hab hbc
    simp only [decide_eq_true_eq] at hab hbc ⊢
    exact String.le_trans hab hbc
  · intro a b
    simpa using String.le_total a b

/-- Texts in order are what any arrangement of them is sorted to. -/
theorem sorted_eq_of_pairwise {texts ordered : List String} (h : texts.Perm ordered)
    (hordered : ordered.Pairwise (· ≤ ·)) : sorted texts = ordered :=
  ((List.mergeSort_perm texts _).trans h).eq_of_pairwise (fun _ _ _ _ => String.le_antisymm)
    (pairwise_sorted texts) hordered

/-- The order in which the texts come does not matter for their order in the end. -/
theorem sorted_eq_of_perm {texts others : List String} (h : texts.Perm others) :
    sorted texts = sorted others :=
  sorted_eq_of_pairwise (h.trans (List.mergeSort_perm others _).symm) (pairwise_sorted others)

/-! ### What is left of a typing set -/

/-- The typing set of a room, unless it has lapsed. -/
def live? (p : PresenceMemory) (now : Nat) (roomId : String) : Option TypingSet :=
  (p.typing.get? roomId).filter fun set => !p.hasLapsed now set

/-- What is left of a set depends on the set and its lifetime alone. -/
theorem live?_congr {q : PresenceMemory} (hlifetime : q.lifetime = p.lifetime)
    (hset : q.typing.get? roomId = p.typing.get? roomId) :
    q.live? now roomId = p.live? now roomId := by
  simp only [live?, hasLapsed, hlifetime, hset]

theorem typists_eq : p.typists now roomId = (p.live? now roomId).elim {} TypingSet.users := by
  unfold typists live?
  cases p.typing.get? roomId with
  | none => rfl
  | some set => cases hlapsed : p.hasLapsed now set <;> simp [Option.filter, hlapsed]

theorem listTyping_fst : (p.listTyping now roomId).1 = sorted (p.typists now roomId).toList := by
  unfold listTyping typists
  cases p.typing.get? roomId with
  | none => simp [sorted]
  | some set => cases hlapsed : p.hasLapsed now set <;> simp [sorted, hlapsed]

/-- To ask who types takes nothing away that is left. -/
theorem live?_listTyping (p : PresenceMemory) (now : Nat) (room roomId : String) :
    (p.listTyping now room).2.live? now roomId = p.live? now roomId := by
  unfold listTyping
  split
  · rfl
  · rename_i set hset
    split
    · rename_i hlapsed
      by_cases hroom : room = roomId
      · subst hroom
        simp [live?, hset, Option.filter, hlapsed]
      · exact live?_congr rfl (by simp [hroom])
    · rfl

theorem live?_addTyping (h : 0 < p.lifetime) (now : Nat) (room user roomId : String) :
    (p.addTyping now room user).live? now roomId =
      if room = roomId then some ⟨(p.typists now room).insert user, now⟩
      else p.live? now roomId := by
  by_cases hroom : room = roomId
  · have hfresh : ¬ p.lifetime ≤ 0 := by omega
    simp [live?, addTyping, hroom, Option.filter, hasLapsed, hfresh]
  · rw [if_neg hroom]
    exact live?_congr rfl (by simp [addTyping, hroom])

/-- A set without an element goes, and another one keeps the time of its last start. -/
theorem live?_removeTyping (p : PresenceMemory) (now : Nat) (room user roomId : String) :
    (p.removeTyping room user).live? now roomId =
      if room = roomId then (p.live? now room).bind fun set =>
        if (set.users.erase user).isEmpty then none
        else some { set with users := set.users.erase user }
      else p.live? now roomId := by
  unfold removeTyping
  split
  · rename_i hnone
    by_cases hroom : room = roomId
    · subst hroom
      simp [live?, hnone]
    · simp [hroom]
  · rename_i set hset
    by_cases hroom : room = roomId
    · subst hroom
      cases hlapsed : p.hasLapsed now set <;>
        cases hempty : (set.users.erase user).isEmpty <;>
          simp_all [live?, Option.filter, hasLapsed]
    · rw [if_neg hroom]
      split <;> exact live?_congr rfl (by simp [hroom])

/-- As time passes, what is left at first becomes less. -/
theorem live?_later {later : Nat} (h : now ≤ later) :
    p.live? later roomId = (p.live? now roomId).filter fun set => !p.hasLapsed later set := by
  unfold live?
  cases p.typing.get? roomId with
  | none => rfl
  | some set =>
    by_cases hlapsed : p.hasLapsed now set = true
    · have hlater : p.hasLapsed later set = true := by
        simp only [hasLapsed, decide_eq_true_eq] at hlapsed ⊢
        omega
      simp [Option.filter, hlapsed, hlater]
    · simp [Option.filter, hlapsed]

end PresenceMemory

/-! ### What is left of a key -/

namespace KeyServer

theorem get?_later {later : Nat} (h : now ≤ later) : s.get? later key =
    (s.get? now key).filter fun entry => entry.lapses.all (later < ·) := by
  unfold get?
  cases s.entries.get? key with
  | none => rfl
  | some entry =>
    obtain ⟨value, _ | lapses⟩ := entry
    · simp [Option.filter]
    · by_cases hnow : now < lapses
      · simp [Option.filter, hnow]
      · have hlater : ¬ later < lapses := by omega
        simp [Option.filter, hnow, hlater]

theorem get?_congr {t : KeyServer} {other : String}
    (h : t.entries.get? other = s.entries.get? other) : t.get? now other = s.get? now other := by
  simp only [get?, h]

end KeyServer

/-- How a key server keeps a typing set. -/
def TypingSet.entry (set : TypingSet) : KeyEntry where
  value := .set set.users
  lapses := some (set.touched + typingLifetime * 1000)

namespace KeyServer

/-- At a time a key server holds what is left of a presence store in memory. -/
structure Mirrors (s : KeyServer) (p : PresenceMemory) (now : Nat) : Prop where
  /-- Typing sets live equally long. -/
  lifetime : p.lifetime = typingLifetime * 1000
  /-- A marker that is set stands under its key and never lapses. -/
  online : ∀ userId ∈ p.online, ∃ stamp, s.entries.get? (onlineKey userId) =
    some { value := .text stamp }
  /-- There is no key for a marker that is not set. -/
  offline : ∀ userId ∉ p.online, s.entries.get? (onlineKey userId) = none
  /-- A typing set that has not lapsed stands under its key. -/
  typing : ∀ roomId, s.get? now (typingKey roomId) = (p.live? now roomId).map TypingSet.entry

theorem mirrors_empty (now : Nat) : Mirrors {} {} now where
  lifetime := rfl
  online userId h := absurd h (FinSet.not_mem_empty userId)
  offline _ _ := rfl
  typing _ := rfl

namespace Mirrors

/-- A typing set lapses when its key does. -/
theorem hasLapsed_eq (h : s.Mirrors p now) (time : Nat) (set : TypingSet) :
    (!p.hasLapsed time set) = set.entry.lapses.all (time < ·) := by
  simp only [TypingSet.entry, Option.all_some, PresenceMemory.hasLapsed, h.lifetime,
    typingLifetime, ← decide_not, decide_eq_decide]
  omega

theorem later {time : Nat} (h : s.Mirrors p now) (hle : now ≤ time) : s.Mirrors p time where
  lifetime := h.lifetime
  online := h.online
  offline := h.offline
  typing roomId := by
    rw [get?_later hle, PresenceMemory.live?_later hle, h.typing, Option.filter_map]
    simp only [Function.comp_def, h.hasLapsed_eq]

/-- A change to a typing set on both sides. -/
theorem of_typing (h : s.Mirrors p now) {t : KeyServer} {q : PresenceMemory} (room : String)
    (hlifetime : q.lifetime = p.lifetime) (honline : q.online = p.online)
    (hother : ∀ other, other ≠ typingKey room → t.entries.get? other = s.entries.get? other)
    (hlive : ∀ roomId, roomId ≠ room → q.live? now roomId = p.live? now roomId)
    (hroom : t.get? now (typingKey room) = (q.live? now room).map TypingSet.entry) :
    t.Mirrors q now where
  lifetime := hlifetime.trans h.lifetime
  online userId huser := by
    rw [hother _ (onlineKey_ne_typingKey userId room)]
    exact h.online userId (honline ▸ huser)
  offline userId huser := by
    rw [hother _ (onlineKey_ne_typingKey userId room)]
    exact h.offline userId (honline ▸ huser)
  typing roomId := by
    by_cases heq : roomId = room
    · rw [heq, hroom]
    · rw [get?_congr (hother _ (typingKey_injective.ne heq)), h.typing, hlive roomId heq]

/-- A marker is set on both sides. -/
theorem setOnline (h : s.Mirrors p now) (userId stamp : String) :
    Mirrors ⟨s.entries.insert (onlineKey userId) { value := .text stamp }⟩
      { p with online := p.online.insert userId } now where
  lifetime := h.lifetime
  online user huser := by
    by_cases heq : userId = user
    · exact ⟨stamp, by simp [heq]⟩
    · have hbefore : user ∈ p.online :=
        (FinSet.mem_insert.mp huser).resolve_left fun e => heq e.symm
      simpa [heq] using h.online user hbefore
  offline user huser := by
    rw [FinSet.mem_insert, not_or] at huser
    simpa [Ne.symm huser.1] using h.offline user huser.2
  typing roomId := by
    have hne : ¬ onlineKey userId = typingKey roomId := onlineKey_ne_typingKey userId roomId
    rw [get?_congr (s := s) (by simp [hne])]
    exact h.typing roomId

/-- A marker is cleared on both sides. -/
theorem setOffline (h : s.Mirrors p now) (userId : String) :
    Mirrors ⟨s.entries.erase (onlineKey userId)⟩
      { p with online := p.online.erase userId } now where
  lifetime := h.lifetime
  online user huser := by
    rw [FinSet.mem_erase] at huser
    simpa [Ne.symm huser.1] using h.online user huser.2
  offline user huser := by
    by_cases heq : userId = user
    · simp [heq]
    · have hbefore : user ∉ p.online := fun hmem =>
        huser (FinSet.mem_erase.mpr ⟨fun e => heq e.symm, hmem⟩)
      simpa [heq] using h.offline user hbefore
  typing roomId := by
    have hne : ¬ onlineKey userId = typingKey roomId := onlineKey_ne_typingKey userId roomId
    rw [get?_congr (s := s) (by simp [hne])]
    exact h.typing roomId

theorem isSome_get?_onlineKey (h : s.Mirrors p now) (userId : String) :
    (s.get? now (onlineKey userId)).isSome = decide (userId ∈ p.online) := by
  by_cases huser : userId ∈ p.online
  · obtain ⟨stamp, hstamp⟩ := h.online userId huser
    simp [get?, hstamp, Option.filter, huser]
  · simp [get?, h.offline userId huser, huser]

end Mirrors

/-! ### Commands for typing sets -/

/-- What has not lapsed is found under its key. -/
theorem get?_insert_self {entry : KeyEntry} (h : entry.lapses.all (now < ·)) :
    KeyServer.get? ⟨s.entries.insert key entry⟩ now key = some entry := by
  simp [get?, Option.filter, h]

theorem all_lapses {entry : KeyEntry} (h : s.get? now key = some entry) :
    entry.lapses.all (now < ·) := by
  rw [get?, Option.filter_eq_some_iff] at h
  exact h.2

theorem isEmpty_insert (users : FinSet String) (user : String) :
    (users.insert user).isEmpty = false := by
  rw [FinSet.isEmpty, List.isEmpty_eq_false_iff]
  exact List.ne_nil_of_mem (FinSet.mem_insert.mpr (.inl rfl))

theorem executeAll_cons (command : KeyCommand) (rest : List KeyCommand) :
    s.executeAll now (command :: rest) =
      ((s.execute now command).1 :: ((s.execute now command).2.executeAll now rest).1,
        ((s.execute now command).2.executeAll now rest).2) := rfl

theorem execute_expire {entry : KeyEntry} (h : s.get? now key = some entry) (seconds : Nat) :
    s.execute now (.expire key seconds) = (count true,
      ⟨s.entries.insert key { entry with lapses := some (now + seconds * 1000) }⟩) := by
  simp only [execute, h]

section Commands

variable {live : Option TypingSet} (h : s.get? now key = live.map TypingSet.entry)
include h

theorem execute_sadd (user : String) : (s.execute now (.sadd key user)).2 =
    ⟨s.entries.insert key
      { value := .set ((live.elim {} TypingSet.users).insert user)
        lapses := live.bind (·.entry.lapses) }⟩ := by
  cases live with
  | none =>
    rw [Option.map_none] at h
    simp [execute, h]
  | some set =>
    rw [Option.map_some] at h
    simp [execute, h, TypingSet.entry, putSet, isEmpty_insert]

/-- What `SADD` and `EXPIRE` leave together: one who types more, and a new time to live. -/
theorem executeAll_start (user : String) (other : String) :
    (s.executeAll now [.sadd key user, .expire key typingLifetime]).2.entries.get? other =
      if key = other then
        some (TypingSet.entry ⟨(live.elim {} TypingSet.users).insert user, now⟩)
      else s.entries.get? other := by
  have hlapses : (live.bind (·.entry.lapses)).all (now < ·) := by
    cases live with
    | none => rfl
    | some set => exact all_lapses h
  have hadded : (s.execute now (.sadd key user)).2.get? now key = some
      { value := .set ((live.elim {} TypingSet.users).insert user)
        lapses := live.bind (·.entry.lapses) } := by
    rw [execute_sadd h]
    exact get?_insert_self hlapses
  have hentries : (s.executeAll now [.sadd key user, .expire key typingLifetime]).2 =
      ⟨(s.execute now (.sadd key user)).2.entries.insert key
        (TypingSet.entry ⟨(live.elim {} TypingSet.users).insert user, now⟩)⟩ := by
    simp only [executeAll_cons, execute_expire hadded]
    rfl
  rw [hentries, Table.get?_insert, execute_sadd h, Table.get?_insert]
  split <;> rfl

/-- What `SREM` leaves: one who types less, and nothing of a set that is empty. -/
theorem get?_execute_srem (user : String) : (s.execute now (.srem key user)).2.get? now key =
    (live.bind fun set => if (set.users.erase user).isEmpty then none
      else some { set with users := set.users.erase user }).map TypingSet.entry := by
  cases live with
  | none =>
    rw [Option.map_none] at h
    simp [execute, h]
  | some set =>
    rw [Option.map_some] at h
    have hremoved : (s.execute now (.srem key user)).2 =
        s.putSet key set.entry (set.users.erase user) := by
      simp [execute, h, TypingSet.entry]
    rw [hremoved, putSet, Option.bind_some]
    split
    · simp [get?]
    · have hlapses : set.entry.lapses.all (now < ·) := all_lapses h
      exact get?_insert_self hlapses

theorem execute_srem_reply (user : String) :
    ∃ b, (s.execute now (.srem key user)).1 = count b := by
  cases live with
  | none => exact ⟨false, by simp [execute, h]⟩
  | some set => exact ⟨decide (user ∈ set.users), by simp [execute, h, TypingSet.entry]⟩

theorem execute_smembers : (s.execute now (.smembers key)).1 =
    .list ((live.elim {} TypingSet.users).toList.map .text) := by
  cases live with
  | none => simp [execute, h]
  | some set => simp [execute, h, TypingSet.entry]

end Commands

theorem entries_execute_srem (user : String) {other : String} (hne : other ≠ key) :
    (s.execute now (.srem key user)).2.entries.get? other = s.entries.get? other := by
  simp only [execute]
  split
  · rfl
  · split
    · rfl
    · simp only [putSet]
      split <;> simp [hne.symm]

theorem execute_smembers_state : (s.execute now (.smembers key)).2 = s := by
  simp only [execute]
  split
  · rfl
  · split <;> rfl

theorem mapM_readText (texts : List String) :
    (texts.map Reply.text).mapM PresenceCall.readText = Except.ok texts := by
  induction texts with
  | nil => rfl
  | cons text texts ih =>
    rw [List.map_cons, List.mapM_cons, ih]
    rfl

/-- The texts of a set are read in order, however the key server arranges them. -/
theorem readList_texts {items : List Reply} {texts : List String}
    (h : items.Perm (texts.map Reply.text)) :
    PresenceCall.readList (.list items) = .ok (PresenceMemory.sorted texts) := by
  obtain ⟨others, rfl, hothers⟩ := (congrFun₂ (List.eq_map_comp_perm Reply.text) items texts).mpr h
  rw [PresenceCall.readList, mapM_readText, ← PresenceMemory.sorted_eq_of_perm hothers]
  rfl

/-! ### Calls -/

namespace Mirrors

/-- Somebody starts to type on both sides. -/
theorem addTyping (h : s.Mirrors p now) (room user : String) :
    (s.executeAll now [.sadd (typingKey room) user,
      .expire (typingKey room) typingLifetime]).2.Mirrors (p.addTyping now room user) now := by
  have hentries := executeAll_start (h.typing room) user
  have hlifetime : 0 < p.lifetime := by
    rw [h.lifetime]
    decide
  have hlive := PresenceMemory.live?_addTyping hlifetime now room user
  refine h.of_typing room rfl rfl (fun other hne => ?_) (fun r hne => ?_) ?_
  · exact (hentries other).trans (if_neg hne.symm)
  · exact (hlive r).trans (if_neg hne.symm)
  · rw [hlive room, if_pos rfl, PresenceMemory.typists_eq, Option.map_some, get?, hentries,
      if_pos rfl]
    -- The new set has its whole life before it.
    exact Option.filter_some_pos (by simp [TypingSet.entry, typingLifetime])

/-- Somebody stops typing on both sides. -/
theorem removeTyping (h : s.Mirrors p now) (room user : String) :
    (s.execute now (.srem (typingKey room) user)).2.Mirrors (p.removeTyping room user) now := by
  have hlive := p.live?_removeTyping now room user
  refine h.of_typing room ?_ ?_ (fun other hne => ?_) (fun r hne => ?_) ?_
  · exact @PresenceMemory.lifetime_answer p now (.removeTyping room user)
  · exact PresenceMemory.online_removeTyping
  · exact entries_execute_srem user hne
  · exact (hlive r).trans (if_neg hne.symm)
  · rw [hlive room, if_pos rfl]
    exact get?_execute_srem (h.typing room) user

/-- Listing a room leaves the key server as it is; in memory a set that has lapsed is thrown away,
but then there was nothing left of it. -/
theorem listTyping (h : s.Mirrors p now) (room : String) :
    (s.execute now (.smembers (typingKey room))).2.Mirrors (p.listTyping now room).2 now := by
  have hlive := p.live?_listTyping now room
  rw [execute_smembers_state]
  refine h.of_typing room ?_ PresenceMemory.online_listTyping (fun _ _ => rfl)
    (fun r _ => hlive r) ?_
  · exact PresenceMemory.lifetime_answer (.listTyping room)
  · rw [hlive, h.typing room]

/-- A call is answered alike by a key server, which then holds what is left in memory. -/
theorem step {c : TimedCall} (h : s.Mirrors p c.time) :
    (c.remotely s).1 = .ok (p.answer c.time c.call).1 ∧
      (c.remotely s).2.Mirrors (p.answer c.time c.call).2 c.time := by
  obtain ⟨now, call, stamp, arrange, hperm⟩ := c
  cases call with
  | setOnline user => exact ⟨rfl, h.setOnline user stamp⟩
  | setOffline user => exact ⟨rfl, h.setOffline user⟩
  | isOnline user =>
    refine ⟨?_, h⟩
    show PresenceCall.readFlag (count (s.get? now (onlineKey user)).isSome) = _
    rw [h.isSome_get?_onlineKey user]
    by_cases huser : user ∈ p.online <;>
      simp [PresenceCall.readFlag, count, PresenceMemory.answer, huser]
  | addTyping room user => exact ⟨rfl, h.addTyping room user⟩
  | removeTyping room user =>
    refine ⟨?_, h.removeTyping room user⟩
    obtain ⟨b, hreply⟩ := execute_srem_reply (h.typing room) user
    simp only [TimedCall.remotely, PresenceCall.request, serve, hreply]
    rfl
  | listTyping room =>
    refine ⟨?_, h.listTyping room⟩
    have hreply := execute_smembers (h.typing room)
    simp only [TimedCall.remotely, PresenceCall.request, serve, hreply, Reply.arranged,
      PresenceCall.read, readList_texts (hperm _), PresenceMemory.answer,
      PresenceMemory.listTyping_fst, PresenceMemory.typists_eq]

/-- So are any number of calls, as time passes. -/
theorem answers_eq {calls : List TimedCall} (h : s.Mirrors p now)
    (hlater : ∀ c ∈ calls, now ≤ c.time) (hordered : calls.Pairwise (·.time ≤ ·.time)) :
    s.answers calls = p.answers calls := by
  induction calls generalizing s p now with
  | nil => rfl
  | cons c calls ih =>
    rw [List.pairwise_cons] at hordered
    obtain ⟨hanswer, hmirrors⟩ := (h.later (hlater c List.mem_cons_self)).step
    rw [answers, PresenceMemory.answers, hanswer, ih hmirrors hordered.1 hordered.2]

end Mirrors

end KeyServer

/-! ### What a start leaves -/

namespace PresenceMemory

/-- If a room has a typing set, somebody has last started there at a time, and only some are left
in it. -/
def Leaves (p : PresenceMemory) (since : Nat) (roomId : String) (left : String → Prop) : Prop :=
  ∀ set, p.typing.get? roomId = some set → set.touched = since ∧ ∀ user ∈ set.users, left user

variable {since : Nat} {left : String → Prop}

theorem Leaves.mono {fewer : String → Prop} (h : p.Leaves since roomId fewer)
    (himp : ∀ user, fewer user → left user) : p.Leaves since roomId left := by
  intro set hset
  exact ⟨(h set hset).1, fun user huser => himp user ((h set hset).2 user huser)⟩

theorem Leaves.congr {q : PresenceMemory} (h : p.Leaves since roomId left)
    (hset : q.typing.get? roomId = p.typing.get? roomId) : q.Leaves since roomId left := by
  intro set hq
  exact h set (hset ▸ hq)

/-- A stop takes one out, and leaves the time of the last start as it is. -/
theorem Leaves.removeTyping (h : p.Leaves since roomId left) (user : String) :
    (p.removeTyping roomId user).Leaves since roomId fun other => left other ∧ user ≠ other := by
  unfold PresenceMemory.removeTyping
  split
  · rename_i hnone
    intro set hset
    rw [hnone] at hset
    cases hset
  · rename_i before hbefore
    obtain ⟨htouched, hleft⟩ := h before hbefore
    split
    · intro set hset
      simp at hset
    · intro set hset
      simp only [Table.get?_insert, if_pos, Option.some.injEq] at hset
      subst hset
      refine ⟨htouched, fun other hother => ?_⟩
      rw [FinSet.mem_erase] at hother
      exact ⟨hleft other hother.2, hother.1.symm⟩

theorem get?_removeTyping {room : String} (user : String) (hne : room ≠ roomId) :
    (p.removeTyping room user).typing.get? roomId = p.typing.get? roomId := by
  unfold PresenceMemory.removeTyping
  split
  · rfl
  · split <;> simp [hne]

theorem Leaves.listTyping (h : p.Leaves since roomId left) (room : String) :
    (p.listTyping now room).2.Leaves since roomId left := by
  unfold PresenceMemory.listTyping
  split
  · exact h
  · split
    · intro set hset
      simp only [Table.get?_erase] at hset
      split at hset
      · cases hset
      · exact h set hset
    · exact h

/-- Unless somebody starts in the room, a call takes out who stops and nobody joins. -/
theorem Leaves.answer (h : p.Leaves since roomId left) {call : PresenceCall}
    (hcall : ∀ user, call ≠ .addTyping roomId user) :
    (p.answer now call).2.Leaves since roomId
      fun other => left other ∧ call ≠ .removeTyping roomId other := by
  cases call with
  | setOnline | setOffline | isOnline => exact h.mono fun user huser => ⟨huser, by simp⟩
  | addTyping room user =>
    have hne : room ≠ roomId := fun heq => hcall user (heq ▸ rfl)
    exact (h.congr (by simp [PresenceMemory.answer, PresenceMemory.addTyping, hne])).mono
      fun user huser => ⟨huser, by simp⟩
  | removeTyping room user =>
    by_cases hroom : room = roomId
    · subst hroom
      refine (h.removeTyping user).mono fun other hother => ⟨hother.1, ?_⟩
      simpa using hother.2
    · exact (h.congr (get?_removeTyping user hroom)).mono
        fun other hother => ⟨hother, by simp [hroom]⟩
  | listTyping room => exact (h.listTyping room).mono fun user huser => ⟨huser, by simp⟩

theorem Leaves.afterAll {calls : List TimedCall} (h : p.Leaves since roomId left)
    (hcalls : ∀ c ∈ calls, ∀ user, c.call ≠ .addTyping roomId user) :
    (p.afterAll calls).Leaves since roomId
      fun other => left other ∧ ∀ c ∈ calls, c.call ≠ .removeTyping roomId other := by
  induction calls generalizing p left with
  | nil => exact h.mono fun user huser => ⟨huser, by simp⟩
  | cons c calls ih =>
    rw [List.forall_mem_cons] at hcalls
    refine (ih (h.answer hcalls.1) hcalls.2).mono fun user huser => ⟨huser.1.1, ?_⟩
    exact List.forall_mem_cons.mpr ⟨huser.1.2, huser.2⟩

theorem Leaves.of_mem_listTyping (h : p.Leaves since roomId left)
    (hmem : userId ∈ (p.listTyping now roomId).1) : now < since + p.lifetime ∧ left userId := by
  rw [listTyping_fst, sorted, List.mem_mergeSort, typists] at hmem
  split at hmem
  · rename_i set hset
    split at hmem
    · exact absurd hmem (FinSet.not_mem_empty userId)
    · rename_i hlapsed
      obtain ⟨htouched, hleft⟩ := h set hset
      rw [hasLapsed, decide_eq_true_eq, htouched] at hlapsed
      exact ⟨by omega, hleft userId hmem⟩
  · exact absurd hmem (FinSet.not_mem_empty userId)

/-- After a start the typing set of its room is the one that is listed then. -/
theorem mem_listTyping_addTyping (h : 0 < p.lifetime) {user : String} :
    user ∈ ((p.addTyping now roomId userId).listTyping now roomId).1 ↔
      user ∈ (p.typists now roomId).insert userId := by
  have hlive := live?_addTyping h now roomId userId roomId
  rw [if_pos rfl] at hlive
  rw [listTyping_fst, typists_eq, hlive, sorted, List.mem_mergeSort]
  rfl

theorem leaves_addTyping (h : 0 < p.lifetime) (now : Nat) (roomId userId : String) :
    (p.addTyping now roomId userId).Leaves now roomId
      fun user => user ∈ ((p.addTyping now roomId userId).listTyping now roomId).1 := by
  intro set hset
  simp only [addTyping, Table.get?_insert, if_pos, Option.some.injEq] at hset
  subst hset
  exact ⟨rfl, fun user huser => (mem_listTyping_addTyping h).mpr huser⟩

theorem types_of_mem_listTyping (h : 0 < p.lifetime) {user : String}
    (hmem : user ∈ ((p.addTyping now roomId userId).listTyping now roomId).1) :
    (p.addTyping now roomId userId).Types now roomId user :=
  ⟨⟨(p.typists now roomId).insert userId, now⟩, by simp [addTyping],
    (mem_listTyping_addTyping h).mp hmem, Nat.le_refl now⟩

/-- Who is listed some time after the last start in a room: within the lifetime of the set all that
were listed then, except for those that have stopped, and nobody later. -/
theorem typing_set_lapses (h : 0 < p.lifetime) {time : Nat} {calls : List TimedCall}
    (hcalls : ∀ c ∈ calls, now ≤ c.time ∧ c.time ≤ time ∧ ∀ user, c.call ≠ .addTyping roomId user)
    (htime : now ≤ time) (userId user : String) :
    user ∈ (((p.addTyping now roomId userId).afterAll calls).listTyping time roomId).1 ↔
      time < now + p.lifetime ∧
        user ∈ ((p.addTyping now roomId userId).listTyping now roomId).1 ∧
        ∀ c ∈ calls, c.call ≠ .removeTyping roomId user := by
  have hlifetime : ((p.addTyping now roomId userId).afterAll calls).lifetime = p.lifetime :=
    (lifetime_afterCalls _).trans rfl
  constructor
  · intro hmem
    have hleaves := (leaves_addTyping h now roomId userId).afterAll
      fun c hc => (hcalls c hc).2.2
    obtain ⟨hfresh, hleft⟩ := hleaves.of_mem_listTyping hmem
    exact ⟨hlifetime ▸ hfresh, hleft⟩
  · rintro ⟨hfresh, hmem, hstays⟩
    refine Types.mem_listTyping (Types.afterCalls (types_of_mem_listTyping h hmem) ?_) htime ?_
    · intro call hcall
      obtain ⟨c, hc, rfl⟩ := List.mem_map.mp hcall
      have hbefore := (hcalls c hc).2.1
      exact ⟨(hcalls c hc).1, Nat.lt_of_le_of_lt hbefore hfresh, hstays c hc⟩
    · exact hlifetime ▸ hfresh

end PresenceMemory

/-- The presence store in memory and the one on a key server, both empty at first, answer any calls
alike; no two markers or typing sets share a key; and a typing set lapses as a whole once its
lifetime has passed since the last start, however many stop in the meantime. -/
theorem presence_answers_agree (calls : List TimedCall)
    (hordered : calls.Pairwise (·.time ≤ ·.time)) :
    KeyServer.answers {} calls = PresenceMemory.answers {} calls ∧
    ((∀ u v, onlineKey u = onlineKey v → u = v) ∧ (∀ r q, typingKey r = typingKey q → r = q) ∧
      ∀ u r, onlineKey u ≠ typingKey r) ∧
    ∀ (before after : List TimedCall) (start : TimedCall) (roomId userId : String) (now : Nat),
      calls = before ++ start :: after → start.call = .addTyping roomId userId →
      (∀ c ∈ after, ∀ user, c.call ≠ .addTyping roomId user) → (∀ c ∈ calls, c.time ≤ now) →
      ∀ user,
        user ∈ ((PresenceMemory.afterAll {} calls).listTyping now roomId).1 ↔
          now < start.time + typingLifetime * 1000 ∧
          user ∈ ((PresenceMemory.afterAll {} (before ++ [start])).listTyping
            start.time roomId).1 ∧
          ∀ c ∈ after, c.call ≠ .removeTyping roomId user := by
  refine ⟨(KeyServer.mirrors_empty 0).answers_eq (fun _ _ => Nat.zero_le _) hordered,
    ⟨fun u v h => onlineKey_injective h, fun r q h => typingKey_injective h,
      onlineKey_ne_typingKey⟩, ?_⟩
  rintro before after start roomId userId now rfl hstart hafter hnow user
  rw [List.pairwise_append, List.pairwise_cons] at hordered
  have hsplit (rest : List TimedCall) : PresenceMemory.afterAll {} (before ++ start :: rest) =
      PresenceMemory.afterAll ((PresenceMemory.afterAll {} before).addTyping start.time
        roomId userId) rest := by
    simp [PresenceMemory.afterAll, PresenceMemory.afterCalls, hstart, PresenceMemory.answer]
  have hlifetime : (PresenceMemory.afterAll {} before).lifetime = typingLifetime * 1000 :=
    PresenceMemory.lifetime_afterCalls _
  have hpositive : 0 < (PresenceMemory.afterAll {} before).lifetime := by
    rw [hlifetime]
    decide
  have hcalls : ∀ c ∈ after, start.time ≤ c.time ∧ c.time ≤ now ∧
      ∀ other, c.call ≠ .addTyping roomId other :=
    fun c hc => ⟨hordered.2.1.1 c hc, hnow c (by simp [hc]), hafter c hc⟩
  have hlapses := PresenceMemory.typing_set_lapses hpositive hcalls (hnow start (by simp))
    userId user
  rw [hlifetime] at hlapses
  rw [hsplit after, hsplit []]
  exact hlapses

/-- Two start to type, one stops, and the other is listed for ten seconds in all. -/
def evening : List TimedCall :=
  [{ time := 0, call := .addTyping "tea" "bob", stamp := "0" },
    { time := 500, call := .addTyping "tea" "alice", stamp := "0", arrange := List.reverse,
      arrange_perm := List.reverse_perm },
    { time := 600, call := .listTyping "tea", stamp := "0", arrange := List.reverse,
      arrange_perm := List.reverse_perm },
    { time := 700, call := .removeTyping "tea" "bob", stamp := "0" },
    { time := 10499, call := .listTyping "tea", stamp := "10" },
    { time := 10500, call := .listTyping "tea", stamp := "10" }]

/-- Both are listed in order at first, then the one that is left, and nobody in the end. The last of
them is listed within ten seconds of her start, and not later. -/
theorem evening_answers_agree :
    KeyServer.answers {} evening = PresenceMemory.answers {} evening ∧
    PresenceMemory.answers {} evening =
      [⟨.addTyping "tea" "bob", .ok ()⟩, ⟨.addTyping "tea" "alice", .ok ()⟩,
        ⟨.listTyping "tea", .ok ["alice", "bob"]⟩, ⟨.removeTyping "tea" "bob", .ok ()⟩,
        ⟨.listTyping "tea", .ok ["alice"]⟩, ⟨.listTyping "tea", .ok []⟩] ∧
    "alice" ∈ ((PresenceMemory.afterAll {} (evening.take 5)).listTyping 10499 "tea").1 ∧
    ("alice" ∈ ((PresenceMemory.afterAll {} evening).listTyping 10500 "tea").1 ↔
      10500 < 500 + typingLifetime * 1000 ∧
      "alice" ∈ ((PresenceMemory.afterAll {} (evening.take 2)).listTyping 500 "tea").1 ∧
      ∀ c ∈ evening.drop 2, c.call ≠ .removeTyping "tea" "alice") := by
  have hagree := presence_answers_agree evening (by simp [evening])
  have hearlier := presence_answers_agree (evening.take 5) (by simp [evening])
  have hboth : PresenceMemory.sorted ["bob", "alice"] = ["alice", "bob"] :=
    PresenceMemory.sorted_eq_of_pairwise (.swap _ _ _) (by decide)
  have hone : PresenceMemory.sorted ["alice"] = ["alice"] :=
    PresenceMemory.sorted_eq_of_pairwise (.refl _) (List.pairwise_singleton _ _)
  have hstart : ((PresenceMemory.afterAll {} (evening.take 2)).listTyping 500 "tea").1 =
      ["alice", "bob"] := hboth
  refine ⟨hagree.1, ?_, ?_, ?_⟩
  · rw [← hone, ← hboth]
    rfl
  · refine (hearlier.2.2 (evening.take 1) ((evening.take 5).drop 2) evening[1] "tea" "alice" 10499
      rfl rfl (by simp [evening]) (by simp [evening]) "alice").mpr ⟨by decide, ?_, ?_⟩
    · exact hstart ▸ List.mem_cons_self
    · simp [evening]
  · exact hagree.2.2 (evening.take 1) (evening.drop 2) evening[1] "tea" "alice" 10500 rfl rfl
      (by simp [evening]) (by simp [evening]) "alice"

end RoomRelay
