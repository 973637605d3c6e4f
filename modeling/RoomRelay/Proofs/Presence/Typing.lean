import RoomRelay.Presence.Memory

/-!
# Who is listed as typing

An identity that starts to type in a room is listed there until it stops or the lifetime of the set
has passed, whatever else is asked of the presence store in the meantime. Others that start later
make the set live longer, never shorter.

## Main definitions

* `PresenceMemory.afterCalls` — several calls, each at a time of its own
* `PresenceMemory.Types` — an identity is in the set of a room, which has not lapsed since a time

## Main results

* `PresenceMemory.Types.answer`, `PresenceMemory.Types.afterCalls` — nothing but a stop ends it
* `PresenceMemory.Types.mem_listTyping` — who types is listed
-/

namespace RoomRelay.PresenceMemory

variable {p : PresenceMemory} {now since : Nat} {roomId userId : String}

/-- The presence store after several calls, each at a time given in milliseconds. -/
def afterCalls (p : PresenceMemory) (calls : List (Nat × PresenceCall)) : PresenceMemory :=
  calls.foldl (fun p call => (p.answer call.1 call.2).2) p

/-- An identity is in the set of a room, and somebody has started to type there since a time. -/
def Types (p : PresenceMemory) (since : Nat) (roomId userId : String) : Prop :=
  ∃ set, p.typing.get? roomId = some set ∧ userId ∈ set.users ∧ since ≤ set.touched

theorem types_addTyping : (p.addTyping now roomId userId).Types now roomId userId := by
  refine ⟨⟨(p.typists now roomId).insert userId, now⟩, ?_, ?_, Nat.le_refl now⟩
  · simp [addTyping]
  · simp

/-- A set somebody has started to type in for less than its lifetime is not thrown away. -/
theorem hasLapsed_eq_false {set : TypingSet} (h : since ≤ set.touched) (later : since ≤ now)
    (fresh : now < since + p.lifetime) : p.hasLapsed now set = false := by
  rw [hasLapsed, decide_eq_false_iff_not]
  omega

@[simp] theorem lifetime_answer (call : PresenceCall) :
    (p.answer now call).2.lifetime = p.lifetime := by
  cases call with
  | removeTyping room user =>
    simp only [answer, removeTyping]
    split
    · rfl
    · split <;> rfl
  | listTyping room =>
    simp only [answer, listTyping]
    split
    · rfl
    · split <;> rfl
  | _ => rfl

@[simp] theorem online_removeTyping :
    (p.removeTyping roomId userId).online = p.online := by
  unfold removeTyping
  split
  · rfl
  · split <;> rfl

@[simp] theorem online_listTyping : (p.listTyping now roomId).2.online = p.online := by
  unfold listTyping
  split
  · rfl
  · split <;> rfl

theorem Types.addTyping (h : p.Types since roomId userId) (later : since ≤ now)
    (fresh : now < since + p.lifetime) (room user : String) :
    (p.addTyping now room user).Types since roomId userId := by
  obtain ⟨set, hset, huser, htouched⟩ := h
  by_cases hroom : room = roomId
  · -- The set has not lapsed, so that whoever starts finds all others in it.
    subst hroom
    refine ⟨⟨(p.typists now room).insert user, now⟩, by simp [PresenceMemory.addTyping], ?_, later⟩
    have htypists : p.typists now room = set.users := by
      simp [typists, hset, hasLapsed_eq_false htouched later fresh]
    rw [htypists, FinSet.mem_insert]
    exact Or.inr huser
  · exact ⟨set, by simpa [PresenceMemory.addTyping, hroom] using hset, huser, htouched⟩

theorem Types.removeTyping (h : p.Types since roomId userId) {room user : String}
    (other : ¬ (room = roomId ∧ user = userId)) :
    (p.removeTyping room user).Types since roomId userId := by
  obtain ⟨set, hset, huser, htouched⟩ := h
  unfold PresenceMemory.removeTyping
  by_cases hroom : room = roomId
  · subst hroom
    have hmem : userId ∈ set.users.erase user :=
      FinSet.mem_erase.mpr ⟨fun heq => other ⟨rfl, heq.symm⟩, huser⟩
    have hne : (set.users.erase user).isEmpty = false := by
      rw [FinSet.isEmpty, List.isEmpty_eq_false_iff]
      exact List.ne_nil_of_mem hmem
    simp only [hset, hne]
    exact ⟨{ set with users := set.users.erase user }, by simp, hmem, htouched⟩
  · have hkept : ∀ t : Table String TypingSet, t.get? roomId = p.typing.get? roomId →
        ({ p with typing := t }).Types since roomId userId :=
      fun t ht => ⟨set, ht.trans hset, huser, htouched⟩
    split
    · exact ⟨set, hset, huser, htouched⟩
    · split
      · exact hkept _ (by simp [hroom])
      · exact hkept _ (by simp [hroom])

theorem Types.listTyping (h : p.Types since roomId userId) (later : since ≤ now)
    (fresh : now < since + p.lifetime) (room : String) :
    (p.listTyping now room).2.Types since roomId userId := by
  obtain ⟨set, hset, huser, htouched⟩ := h
  unfold PresenceMemory.listTyping
  split
  · exact ⟨set, hset, huser, htouched⟩
  · rename_i found hfound
    by_cases hroom : room = roomId
    · subst hroom
      obtain rfl := Option.some_inj.mp (hfound.symm.trans hset)
      rw [if_neg (by simp [hasLapsed_eq_false htouched later fresh])]
      exact ⟨_, hset, huser, htouched⟩
    · split
      · exact ⟨set, by simpa [hroom] using hset, huser, htouched⟩
      · exact ⟨set, hset, huser, htouched⟩

/-- Within the lifetime of the set nothing but a stop ends that an identity types. -/
theorem Types.answer (h : p.Types since roomId userId) {call : PresenceCall}
    (later : since ≤ now) (fresh : now < since + p.lifetime)
    (other : call ≠ .removeTyping roomId userId) :
    (p.answer now call).2.Types since roomId userId := by
  cases call with
  | setOnline | setOffline | isOnline => exact h
  | addTyping room user => exact h.addTyping later fresh room user
  | removeTyping room user =>
    refine h.removeTyping ?_
    rintro ⟨rfl, rfl⟩
    exact other rfl
  | listTyping room => exact h.listTyping later fresh room

theorem lifetime_afterCalls (calls : List (Nat × PresenceCall)) :
    (p.afterCalls calls).lifetime = p.lifetime := by
  induction calls generalizing p with
  | nil => rfl
  | cons call calls ih => exact ih.trans (lifetime_answer call.2)

theorem Types.afterCalls {calls : List (Nat × PresenceCall)} (h : p.Types since roomId userId)
    (within : ∀ call ∈ calls, since ≤ call.1 ∧ call.1 < since + p.lifetime ∧
      call.2 ≠ .removeTyping roomId userId) :
    (p.afterCalls calls).Types since roomId userId := by
  induction calls generalizing p with
  | nil => exact h
  | cons call calls ih =>
    rw [List.forall_mem_cons] at within
    obtain ⟨⟨later, fresh, other⟩, hrest⟩ := within
    refine ih (h.answer later fresh other) ?_
    rw [lifetime_answer]
    exact hrest

/-- Who types is listed, as long as the lifetime of the set has not passed. -/
theorem Types.mem_listTyping (h : p.Types since roomId userId) (later : since ≤ now)
    (fresh : now < since + p.lifetime) : userId ∈ (p.listTyping now roomId).1 := by
  obtain ⟨set, hset, huser, htouched⟩ := h
  simp only [PresenceMemory.listTyping, hset, hasLapsed_eq_false htouched later fresh]
  exact List.mem_mergeSort.mpr huser

/-- Who has stopped is not listed. -/
theorem not_mem_listTyping_removeTyping :
    userId ∉ ((p.removeTyping roomId userId).listTyping now roomId).1 := by
  unfold removeTyping
  split
  · rename_i hnone
    simp [listTyping, hnone]
  · rename_i set hset
    split
    · simp [listTyping]
    · simp only [listTyping, Table.get?_insert, if_pos]
      split
      · simp
      · simp [sorted, ← FinSet.mem_iff]

end RoomRelay.PresenceMemory
