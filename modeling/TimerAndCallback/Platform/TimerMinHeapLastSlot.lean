import TimerAndCallback.Platform.TimerMinHeapChange

/-! # The last slot and the stale slots

Whether a search finds a timer, and whether it stays in the array, depends on two
things besides how often the timer is in the heap: whether the timer is in the last
slot, and which of the three slots that the search compares in an empty heap still
point to it. Insertion and removal change both in a known way, except that the sift
of a removal may leave any of the timers that remain in the last slot.
-/

namespace TimerAndCallback

namespace TimerMinHeap

open HeapOrder

variable {Ptr : Type} {pTimer : Ptr}

/-- The timer is in the last slot below the count. -/
def Ends (pTimer : Ptr) (minheap : TimerMinHeap Ptr) : Prop :=
  0 < minheap.numberOfTimersBeingManaged ∧
    minheap.heap (minheap.numberOfTimersBeingManaged - 1) = some pTimer

/-- The search misses the timer in the last slot of four or more. -/
theorem misses_iff {minheap : TimerMinHeap Ptr} :
    minheap.Misses pTimer ↔ 4 ≤ minheap.numberOfTimersBeingManaged ∧ minheap.Ends pTimer :=
  and_congr_right fun four => (and_iff_right (by omega)).symm

/-- The timer in the last slot is in the heap. -/
theorem Ends.mem {minheap : TimerMinHeap Ptr} (ends : minheap.Ends pTimer) :
    some pTimer ∈ minheap.contents :=
  mem_contents.mpr ⟨minheap.numberOfTimersBeingManaged - 1, by have positive := ends.1; omega,
    ends.2⟩

section Operations

variable {capacity : Nat} {whenToFire : Ptr → UInt64} {minheap after : TimerMinHeap Ptr}
  {result : Result}

/-- Taking a timer out leaves every slot from the last one on as it is. -/
theorem removeAtIndex_past {index : Nat} (bound : index < minheap.numberOfTimersBeingManaged)
    (room : minheap.numberOfTimersBeingManaged ≤ capacity)
    (filled : minheap.Filled minheap.numberOfTimersBeingManaged)
    (ran : minheap.removeAtIndex capacity whenToFire index = some after) :
    ∀ other, minheap.numberOfTimersBeingManaged - 1 ≤ other →
      after.heap other = minheap.heap other := by
  intro other past
  obtain ⟨remaining, found, rearranged⟩ := removeAtIndex_eq whenToFire bound room filled
  cases ran.symm.trans found
  rw [rearranged.outside other past, vacated]
  by_cases same : other = index
  · have last : minheap.numberOfTimersBeingManaged - 1 = other := by omega
    dsimp only
    rw [same, Function.update_self, ← same, last]
  · exact Function.update_of_ne same _ _

/-- Insertion leaves the slots past the first stale one as they are. -/
theorem addToHeap_past (filled : minheap.Filled minheap.numberOfTimersBeingManaged)
    (ran : minheap.addToHeap capacity whenToFire pTimer = some (result, after)) :
    ∀ other, minheap.numberOfTimersBeingManaged < other →
      after.heap other = minheap.heap other := by
  intro other past
  obtain ⟨room, _⟩ := addToHeap_inserted filled ran
  obtain ⟨sifted, added, rearranged⟩ := addToHeap_eq whenToFire room filled pTimer
  cases ran.symm.trans added
  exact (rearranged.outside other past).trans (Function.update_of_ne (by omega) _ _)

/-- Added to others, a timer that was not in the heap stays in the last slot when the
timer above it fires earlier. -/
theorem ends_inserted_iff (positive : 0 < minheap.numberOfTimersBeingManaged)
    (absent : some pTimer ∉ minheap.contents)
    (filled : minheap.Filled minheap.numberOfTimersBeingManaged)
    (ran : minheap.addToHeap capacity whenToFire pTimer = some (result, after)) :
    after.Ends pTimer ↔
      minheap.keyAt whenToFire (parent minheap.numberOfTimersBeingManaged) <
        (whenToFire pTimer).toNat := by
  obtain ⟨room, _⟩ := addToHeap_inserted filled ran
  have above := parent_lt positive
  have other : minheap.heap (parent minheap.numberOfTimersBeingManaged) ≠ some pTimer :=
    fun holds => absent (mem_contents.mpr ⟨_, above, holds⟩)
  have parentKey : (minheap.extended pTimer).keyAt whenToFire
      (parent minheap.numberOfTimersBeingManaged) =
        minheap.keyAt whenToFire (parent minheap.numberOfTimersBeingManaged) := by
    simp only [keyAt, extended, Function.update_of_ne above.ne]
  have timerKey : (minheap.extended pTimer).keyAt whenToFire minheap.numberOfTimersBeingManaged =
      (whenToFire pTimer).toNat :=
    keyAt_of_eq_some (Function.update_self _ _ _)
  rw [addToHeap_of_pos room positive] at ran
  obtain ⟨sifted, moved, same⟩ := Option.map_eq_some_iff.mp ran
  cases same
  have count : sifted.numberOfTimersBeingManaged =
      (minheap.extended pTimer).numberOfTimersBeingManaged := upHeapifyFromIndex_count moved
  have ends : Ends pTimer { sifted with
      numberOfTimersBeingManaged := sifted.numberOfTimersBeingManaged + 1 } ↔
        sifted.heap minheap.numberOfTimersBeingManaged = some pTimer := by
    rw [Ends]
    dsimp only
    rw [Nat.add_sub_cancel, count]
    exact and_iff_right (Nat.succ_pos _)
  rw [upHeapifyFromIndex_eq room (filled.extended pTimer), parentKey, timerKey] at moved
  rw [ends]
  -- Exchanged with the timer above it, the added timer leaves the last slot for good.
  have exchanged : ((minheap.extended pTimer).swap minheap.numberOfTimersBeingManaged
      (parent minheap.numberOfTimersBeingManaged)).heap minheap.numberOfTimersBeingManaged =
        minheap.heap (parent minheap.numberOfTimersBeingManaged) := by
    rw [swap_heap, Function.comp_apply, Equiv.swap_apply_left]
    exact Function.update_of_ne above.ne _ _
  split_ifs at moved with earlier top
  · cases moved
    exact iff_of_true (Function.update_self _ _ _) earlier
  · cases moved
    rw [exchanged]
    exact iff_of_false other earlier
  · have swapped := (filled.extended pTimer).swap
      (Nat.lt_succ_self minheap.numberOfTimersBeingManaged) (above.trans (Nat.lt_succ_self _))
    obtain ⟨final, ran, rearranged⟩ := upHeapifyFromIndex_rearranged whenToFire
      (Nat.pos_of_ne_zero top) (above.trans room) (swapped.mono (above.trans (Nat.lt_succ_self _)))
    cases moved.symm.trans ran
    rw [rearranged.outside _ above, exchanged]
    exact iff_of_false other earlier

variable [DecidableEq Ptr]

instance (pTimer : Ptr) (minheap : TimerMinHeap Ptr) : Decidable (minheap.Ends pTimer) := by
  unfold Ends
  infer_instance

/-- A heap in which every slot holds the timer ends with it. -/
theorem ends_of_only {minheap : TimerMinHeap Ptr}
    (positive : 0 < minheap.numberOfTimersBeingManaged)
    (only : minheap.contents.count (some pTimer) = minheap.numberOfTimersBeingManaged) :
    minheap.Ends pTimer := by
  rw [← card_contents, Multiset.count_eq_card] at only
  exact ⟨positive, (only _ (mem_contents.mpr ⟨_, by omega, rfl⟩)).symm⟩

/-- The slots past the count, of the three that a search of an empty heap compares,
that still point to the timer. -/
def stale (pTimer : Ptr) (minheap : TimerMinHeap Ptr) : Finset Nat :=
  {index ∈ Finset.range 3 | minheap.numberOfTimersBeingManaged ≤ index ∧
    minheap.heap index = some pTimer}

/-- The stale slots are those past the last that hold the timer. -/
theorem mem_stale {minheap : TimerMinHeap Ptr} {index : Nat} :
    index ∈ minheap.stale pTimer ↔
      index < 3 ∧ minheap.numberOfTimersBeingManaged ≤ index ∧
        minheap.heap index = some pTimer := by
  rw [stale, Finset.mem_filter, Finset.mem_range]

/-- With no timer left, the search stays in the array when no stale slot leads out of it. -/
theorem stale_eq_empty_iff {minheap : TimerMinHeap Ptr}
    (none : minheap.numberOfTimersBeingManaged = 0) :
    minheap.stale pTimer = ∅ ↔ ∀ index < 3, minheap.heap index ≠ some pTimer := by
  rw [Finset.eq_empty_iff_forall_notMem]
  simp only [mem_stale, none, Nat.zero_le, true_and, not_and]

/-- Searching for a timer that is in the heap leaves those slots as they are. -/
theorem removeFromHeap_past (member : some pTimer ∈ minheap.contents)
    (room : minheap.numberOfTimersBeingManaged ≤ capacity) (two : 2 ≤ capacity)
    (filled : minheap.Filled minheap.numberOfTimersBeingManaged)
    (ran : minheap.removeFromHeap capacity whenToFire pTimer = some (result, after)) :
    ∀ other, minheap.numberOfTimersBeingManaged - 1 ≤ other →
      after.heap other = minheap.heap other := by
  obtain ⟨index, bound, holds⟩ := mem_contents.mp member
  rcases Nat.lt_or_ge minheap.numberOfTimersBeingManaged 2 with few | many
  · obtain rfl : index = 0 := by omega
    rw [removeFromHeap_of_one (by omega) two, if_pos holds] at ran
    obtain ⟨remaining, removed, same⟩ := Option.map_eq_some_iff.mp ran
    cases same
    exact removeAtIndex_past bound room filled removed
  · rcases removeSpecificFromIndex_search whenToFire many room (Nat.zero_le _)
        pTimer with ⟨visited, inside, _, _, found⟩ | ⟨missed, _⟩
    · rw [removeFromHeap, found] at ran
      obtain ⟨remaining, removed, same⟩ := Option.map_eq_some_iff.mp ran
      cases same
      exact removeAtIndex_past inside room filled removed
    · rw [removeFromHeap, missed] at ran
      cases ran
      exact fun _ _ => rfl

/-- Dropping the only entry writes it to the slot of the stale pointer. -/
theorem removeFromHeap_of_drops (drops : minheap.Drops pTimer) (two : 2 ≤ capacity)
    (filled : minheap.Filled minheap.numberOfTimersBeingManaged) :
    minheap.removeFromHeap capacity whenToFire pTimer =
      some (.OK, ⟨Function.update minheap.heap 1 (minheap.heap 0), 0⟩) := by
  obtain ⟨single, top, pointer⟩ := drops
  rw [removeFromHeap_of_one single two, if_neg top, if_pos pointer,
    removeAtIndex_stale single two filled, Option.map_some]

/-- The stale pointer that the search found is overwritten, and no other is written. -/
theorem mem_stale_dropped {index : Nat} (drops : minheap.Drops pTimer) :
    index ∈ stale pTimer ⟨Function.update minheap.heap 1 (minheap.heap 0), 0⟩ ↔
      index ≠ 1 ∧ index ∈ minheap.stale pTimer := by
  obtain ⟨single, top, _⟩ := drops
  rw [mem_stale, mem_stale, single]
  by_cases same : index = 1
  · subst same
    simp only [Function.update_self, top, and_false, ne_eq, not_true_eq_false, false_and]
  · simp only [Function.update_of_ne same, Nat.zero_le, true_and, ne_eq, same, not_false_eq_true]
    refine and_congr_right fun _ => (and_iff_right_of_imp fun holds => ?_).symm
    rcases Nat.eq_zero_or_pos index with rfl | positive
    · exact absurd holds top
    · exact positive

/-- A timer in the last slot is stale there once it was taken out. -/
theorem mem_stale_removed {index : Nat} (count : after.numberOfTimersBeingManaged + 1 =
      minheap.numberOfTimersBeingManaged)
    (past : ∀ other, minheap.numberOfTimersBeingManaged - 1 ≤ other →
      after.heap other = minheap.heap other) :
    index ∈ after.stale pTimer ↔ index ∈ minheap.stale pTimer ∨
      index + 1 = minheap.numberOfTimersBeingManaged ∧
        minheap.numberOfTimersBeingManaged ≤ 3 ∧ minheap.Ends pTimer := by
  rw [mem_stale, mem_stale]
  constructor
  · rintro ⟨three, beyond, holds⟩
    rw [past index (by omega)] at holds
    rcases Nat.eq_or_lt_of_le beyond with last | later
    · refine Or.inr ⟨by omega, by omega, by omega, ?_⟩
      rw [← count, Nat.add_sub_cancel, last]
      exact holds
    · exact Or.inl ⟨three, by omega, holds⟩
  · rintro (⟨three, beyond, holds⟩ | ⟨last, three, _, holds⟩)
    · exact ⟨three, by omega, (past index (by omega)).trans holds⟩
    · refine ⟨by omega, by omega, (past index (by omega)).trans ?_⟩
      rw [← last, Nat.add_sub_cancel] at holds
      exact holds

/-- The slot that a timer was added in is not stale. -/
theorem mem_stale_inserted {index : Nat} (count : after.numberOfTimersBeingManaged =
      minheap.numberOfTimersBeingManaged + 1)
    (past : ∀ other, minheap.numberOfTimersBeingManaged < other →
      after.heap other = minheap.heap other) :
    index ∈ after.stale pTimer ↔
      index ≠ minheap.numberOfTimersBeingManaged ∧ index ∈ minheap.stale pTimer := by
  rw [mem_stale, mem_stale]
  constructor
  · rintro ⟨three, beyond, holds⟩
    exact ⟨by omega, three, by omega, (past index (by omega)).symm.trans holds⟩
  · rintro ⟨different, three, beyond, holds⟩
    exact ⟨three, by omega, (past index (by omega)).trans holds⟩

end Operations

end TimerMinHeap

end TimerAndCallback
