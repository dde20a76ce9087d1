import TimerAndCallback.Platform.TimerMinHeapContents

/-! # How often a timer is in the heap

Operations elsewhere add and remove timers under different assumptions about
whether they are in the heap already. What insertion and removal do to the number
of times a timer is there is all that those arguments need.
-/

namespace TimerAndCallback

namespace TimerMinHeap

open SlotEntries

variable {Ptr : Type} {pTimer other : Ptr} {before after : TimerMinHeap Ptr} {result : Result}

/-- The search finds a stale pointer to the timer past another one that is alone. -/
def Drops (pTimer : Ptr) (minheap : TimerMinHeap Ptr) : Prop :=
  minheap.numberOfTimersBeingManaged = 1 ∧ minheap.heap 0 ≠ some pTimer ∧
    minheap.heap 1 = some pTimer

/-- The search does not reach the timer: it is in the last slot of four or more. -/
def Misses (pTimer : Ptr) (minheap : TimerMinHeap Ptr) : Prop :=
  4 ≤ minheap.numberOfTimersBeingManaged ∧
    minheap.heap (minheap.numberOfTimersBeingManaged - 1) = some pTimer

/-- An empty heap has no contents. -/
theorem contents_eq_zero {minheap : TimerMinHeap Ptr}
    (none : minheap.numberOfTimersBeingManaged = 0) : minheap.contents = 0 := by
  rw [← Multiset.card_eq_zero, card_contents, none]

/-- A heap of one timer has its root as contents. -/
theorem contents_eq_singleton {minheap : TimerMinHeap Ptr}
    (single : minheap.numberOfTimersBeingManaged = 1) : minheap.contents = {minheap.heap 0} := by
  unfold contents
  rw [single, entries_succ, entries_zero]
  rfl

/-- A removal leaves a part of the contents. -/
theorem Removal.contents_le (removal : Removal pTimer before result after) :
    after.contents ≤ before.contents := by
  cases removal with
  | removed _ _ _ contents =>
      rw [contents]
      exact Multiset.le_cons_self _ _
  | missed => exact le_rfl
  | dropped _ _ _ _ count =>
      rw [contents_eq_zero count]
      exact Multiset.zero_le _

/-- A removal leaves no more timers. -/
theorem Removal.count_le (removal : Removal pTimer before result after) :
    after.numberOfTimersBeingManaged ≤ before.numberOfTimersBeingManaged := by
  rw [← card_contents, ← card_contents]
  exact Multiset.card_le_card removal.contents_le

/-- A removal leaves the slots in use filled. -/
theorem Removal.filled (removal : Removal pTimer before result after)
    (filled : before.Filled before.numberOfTimersBeingManaged) :
    after.Filled after.numberOfTimersBeingManaged := by
  rw [filled_iff] at filled ⊢
  exact fun null => filled (Multiset.mem_of_le removal.contents_le null)

/-- An insertion leaves the slots in use filled. -/
theorem Inserted.filled (inserted : Inserted pTimer before after)
    (filled : before.Filled before.numberOfTimersBeingManaged) :
    after.Filled after.numberOfTimersBeingManaged := by
  rw [filled_iff] at filled ⊢
  rw [inserted.contents, Multiset.mem_cons, not_or]
  exact ⟨(Option.some_ne_none pTimer).symm, filled⟩

/-- A search of an empty heap that stays inside the array met no stale pointer. -/
theorem Removal.inside (removal : Removal pTimer before result after)
    (empty : before.numberOfTimersBeingManaged = 0) :
    ∀ index < 3, before.heap index ≠ some pTimer := by
  cases removal with
  | removed _ _ count => omega
  | missed _ _ _ inside => exact inside empty
  | dropped _ single => omega

/-- The timer on top is found. -/
theorem Removal.of_top (removal : Removal pTimer before result after)
    (positive : 0 < before.numberOfTimersBeingManaged) (holds : before.heap 0 = some pTimer) :
    after.numberOfTimersBeingManaged + 1 = before.numberOfTimersBeingManaged ∧
      before.contents = some pTimer ::ₘ after.contents := by
  cases removal with
  | removed _ _ count contents => exact ⟨count, contents⟩
  | missed elsewhere last =>
      rcases Nat.eq_or_lt_of_le positive with single | many
      · have four := last 0 single holds
        omega
      · exact absurd holds (elsewhere 0 many)
  | dropped _ _ different => exact absurd holds different

/-- A search that goes astray leaves nothing in the heap. -/
theorem Removal.contents_of_drops (removal : Removal pTimer before result after)
    (drops : before.Drops pTimer) : after.contents = 0 := by
  obtain ⟨single, top, stale⟩ := drops
  cases removal with
  | removed _ _ count taken =>
      refine absurd ?_ top
      rw [contents_eq_singleton single, contents_eq_zero (by omega)] at taken
      exact Multiset.singleton_inj.mp taken
  | missed _ _ absent _ => exact absurd stale (absent single)
  | dropped _ _ _ _ count => exact contents_eq_zero count

variable [DecidableEq Ptr]

instance (pTimer : Ptr) (minheap : TimerMinHeap Ptr) : Decidable (minheap.Drops pTimer) := by
  unfold Drops
  infer_instance

instance (pTimer : Ptr) (minheap : TimerMinHeap Ptr) : Decidable (minheap.Misses pTimer) := by
  unfold Misses
  infer_instance

/-- A removal adds no entry. -/
theorem Removal.occurrences_le (removal : Removal pTimer before result after) (entry : Option Ptr) :
    after.contents.count entry ≤ before.contents.count entry :=
  Multiset.count_le_of_le entry removal.contents_le

/-- A removal that drops nothing leaves every other timer where it was. -/
theorem Removal.occurrences_other (removal : Removal pTimer before result after)
    (different : other ≠ pTimer) (kept : ¬ before.Drops pTimer) :
    after.contents.count (some other) = before.contents.count (some other) := by
  cases removal with
  | removed _ _ _ contents =>
      rw [contents, Multiset.count_cons_of_ne]
      exact fun same => different (Option.some.inj same)
  | missed => rfl
  | dropped _ single top stale => exact absurd ⟨single, top, stale⟩ kept

/-- A removal that reaches a timer that is there at most once leaves it out. -/
theorem Removal.occurrences_self (removal : Removal pTimer before result after)
    (once : before.contents.count (some pTimer) ≤ 1) (reached : ¬ before.Misses pTimer) :
    after.contents.count (some pTimer) = 0 := by
  cases removal with
  | removed _ _ _ contents =>
      rw [contents, Multiset.count_cons_self] at once
      omega
  | missed elsewhere last =>
      rw [Multiset.count_eq_zero, mem_contents]
      rintro ⟨index, bound, holds⟩
      rcases Nat.eq_or_lt_of_le (Nat.succ_le_of_lt bound) with final | inner
      · refine reached ⟨last index final holds, ?_⟩
        rw [← final, Nat.succ_sub_one]
        exact holds
      · exact elsewhere index inner holds
  | dropped _ _ _ _ count => rw [contents_eq_zero count, Multiset.count_zero]

/-- A removal takes a timer out once at most. -/
theorem Removal.occurrences_ge (removal : Removal pTimer before result after) :
    before.contents.count (some pTimer) ≤ after.contents.count (some pTimer) + 1 := by
  cases removal with
  | removed _ _ _ contents => rw [contents, Multiset.count_cons_self]
  | missed => exact Nat.le_succ _
  | dropped _ single =>
      have atMost := Multiset.count_le_card (some pTimer) before.contents
      rw [card_contents, single] at atMost
      omega

/-- A timer that is there once, in the last slot of four or more, stays. -/
theorem Removal.occurrences_of_misses (removal : Removal pTimer before result after)
    (once : before.contents.count (some pTimer) ≤ 1) (missed : before.Misses pTimer) :
    some pTimer ∈ after.contents := by
  cases removal with
  | removed _ found count contents =>
      obtain ⟨index, bound, holds, within⟩ := found
      obtain ⟨four, last⟩ := missed
      have twice := one_lt_count_entries
        (show index < before.numberOfTimersBeingManaged - 1 by omega)
        (holds.trans last.symm)
      rw [Nat.sub_add_cancel (by omega), last] at twice
      exact absurd once (Nat.not_le.mpr twice)
  | missed =>
      obtain ⟨four, last⟩ := missed
      exact mem_contents.mpr ⟨_, by omega, last⟩
  | dropped _ single =>
      obtain ⟨four, _⟩ := missed
      omega

/-- An insertion leaves the entries of other timers. -/
theorem Inserted.occurrences_other (inserted : Inserted pTimer before after)
    (different : other ≠ pTimer) :
    after.contents.count (some other) = before.contents.count (some other) := by
  rw [inserted.contents, Multiset.count_cons_of_ne]
  exact fun same => different (Option.some.inj same)

/-- An insertion adds one entry of its timer. -/
theorem Inserted.occurrences_self (inserted : Inserted pTimer before after) :
    after.contents.count (some pTimer) = before.contents.count (some pTimer) + 1 := by
  rw [inserted.contents, Multiset.count_cons_self]

/-- A timer that was not in the heap is there once. -/
theorem Inserted.once (inserted : Inserted pTimer before after)
    (outside : before.contents.count (some pTimer) = 0) :
    after.contents.count (some pTimer) = 1 := by
  rw [inserted.occurrences_self, outside]

end TimerMinHeap

end TimerAndCallback
