/-
# Counts, one name at a time

What each operation does to the count of a name (`get_recordFailure`,
`get_recordUnknown_self`, `get_recordUnknown_other`, `get_reset`) and to the queue of
denied names. Only a name in the queue can lose its count to another name, and no
failure of a confirmed name leaves it in the queue.
-/

import Cashpoint.Attempts

namespace Cashpoint

/-- Erasing keys takes away what they had, and nothing else. -/
theorem Table.get?_foldl_erase {κ α : Type} [DecidableEq κ] (keys : List κ) (t : Table κ α) (key : κ) :
    (keys.foldl Table.erase t).get? key = if key ∈ keys then none else t.get? key := by
  induction keys generalizing t with
  | nil => simp
  | cons k rest ih =>
    rw [List.foldl_cons, ih, Table.get?_erase]
    by_cases hk : k = key
    · simp [hk]
    · simp [hk, Ne.symm hk]

namespace Attempts

/-- Leaving the queue of denied names changes no count. -/
theorem get_confirm (a : Attempts) (user other : String) : (a.confirm user).get other = a.get other := rfl

/-- A failure of a confirmed name adds one to its count, up to the largest, and changes no other. -/
theorem get_recordFailure (a : Attempts) (user other : String) :
    (a.recordFailure user).get other =
      if user = other then min (a.get user + 1) largestCount else a.get other := by
  rw [recordFailure, get_bump, get_confirm, get_confirm]

/-- A confirmed name leaves the queue, and every other stays. -/
theorem mem_unknown_recordFailure {a : Attempts} {user other : String} :
    other ∈ (a.recordFailure user).unknown ↔ other ∈ a.unknown ∧ other ≠ user := by
  simp [recordFailure, bump, confirm]

/-- A reset takes away the count of a name, and changes no other. -/
theorem get_reset (a : Attempts) (user other : String) :
    (a.reset user).get other = if user = other then 0 else a.get other := by
  simp only [get, reset, Table.get?_erase]
  split <;> rfl

/-- A name that is reset leaves the queue, and every other stays. -/
theorem mem_unknown_reset {a : Attempts} {user other : String} :
    other ∈ (a.reset user).unknown ↔ other ∈ a.unknown ∧ other ≠ user := by
  simp [reset, confirm]

/-- The count of a name survives a new name in the queue, unless it leaves the queue itself. -/
theorem get_enqueue (a : Attempts) (user other : String) :
    (a.enqueue user).get other =
      if other ∈ a.unknown.take (a.unknown.length + 1 - a.capacity) then 0 else a.get other := by
  simp only [get, enqueue, makeRoom, Table.get?_foldl_erase]
  split <;> rfl

/-- A name without a count has failed no times. -/
theorem get_of_not_contains {a : Attempts} {user : String} (h : a.counts.contains user = false) :
    a.get user = 0 := by
  have hn : a.counts.get? user = none := by simpa [Table.contains] using h
  simp [get, hn]

/-- A failure counts, whether the name is known or not. -/
theorem get_recordUnknown_self (a : Attempts) (user : String) :
    (a.recordUnknown user).get user = min (a.get user + 1) largestCount := by
  unfold recordUnknown
  split
  · rw [get_bump, if_pos rfl]
  · rename_i h
    rw [Bool.not_eq_true] at h
    rw [get_bump, if_pos rfl, get_enqueue, get_of_not_contains h]
    simp

/-- **Only a name in the queue can lose its count to another.** -/
theorem get_recordUnknown_other {a : Attempts} {user other : String} (hne : user ≠ other) :
    (a.recordUnknown user).get other = a.get other ∨
      other ∈ a.unknown ∧ (a.recordUnknown user).get other = 0 := by
  unfold recordUnknown
  split
  · exact Or.inl (by rw [get_bump, if_neg hne])
  · rw [get_bump, if_neg hne, get_enqueue]
    split
    · rename_i hm
      exact Or.inr ⟨List.mem_of_mem_take hm, rfl⟩
    · exact Or.inl rfl

/-- Nothing enters the queue but the name that failed, and that only if it had no count. -/
theorem mem_unknown_recordUnknown {a : Attempts} {user other : String}
    (h : other ∈ (a.recordUnknown user).unknown) :
    other ∈ a.unknown ∨ other = user ∧ a.counts.contains user = false := by
  unfold recordUnknown at h
  split at h
  · exact Or.inl h
  · rename_i hc
    rw [Bool.not_eq_true] at hc
    simp only [bump, enqueue, makeRoom, List.mem_append, List.mem_singleton] at h
    rcases h with h | rfl
    · exact Or.inl (List.mem_of_mem_drop h)
    · exact Or.inr ⟨rfl, hc⟩

end Attempts
end Cashpoint
