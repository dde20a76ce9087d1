import TimerAndCallback.Platform.TimerMinHeapChange

/-! # What the search for a timer finds

The search stops at a slot that holds the timer, at a stale slot that does, or
nowhere. Which of these happens can be told from the slots before the removal: a
timer in the last slot of four or more is passed over, and a stale pointer to a
timer that is not in the heap counts with one timer left, or with none.
-/

namespace TimerAndCallback

namespace TimerMinHeap

open SlotEntries

variable {Ptr : Type} {pTimer : Ptr}

/-- With no timer left, the search finds a stale pointer to the timer and goes on to
the slot before the first. -/
def Overruns (pTimer : Ptr) (minheap : TimerMinHeap Ptr) : Prop :=
  minheap.numberOfTimersBeingManaged = 0 ∧ ∃ index < 3, minheap.heap index = some pTimer

/-- The search compares the timer with a slot that holds it. -/
def Finds (pTimer : Ptr) (minheap : TimerMinHeap Ptr) : Prop :=
  (∃ index < minheap.numberOfTimersBeingManaged, minheap.heap index = some pTimer ∧
    (index + 1 < minheap.numberOfTimersBeingManaged ∨ minheap.numberOfTimersBeingManaged < 4)) ∨
  minheap.Drops pTimer ∨ minheap.Overruns pTimer

instance [DecidableEq Ptr] (pTimer : Ptr) (minheap : TimerMinHeap Ptr) :
    Decidable (minheap.Finds pTimer) := by
  unfold Finds Overruns
  infer_instance

/-- A heap that holds these timers in this order, and never held another. -/
def ofList (timers : List Ptr) : TimerMinHeap Ptr := ⟨fun index => timers[index]?, timers.length⟩

/-- A heap made of a list is filled. -/
theorem filled_ofList (timers : List Ptr) :
    (ofList timers).Filled (ofList timers).numberOfTimersBeingManaged := by
  intro index bound
  exact Option.isSome_iff_exists.mpr ⟨timers[index], List.getElem?_eq_getElem bound⟩

section Operations

variable {whenToFire : Ptr → UInt64} {minheap : TimerMinHeap Ptr}

/-- A removal reports an error when the search does not find the timer. -/
theorem Removal.error_iff {result : Result} {after : TimerMinHeap Ptr}
    (removal : Removal pTimer minheap result after) : result = .ERROR ↔ ¬ minheap.Finds pTimer := by
  cases removal with
  | removed after found => exact iff_of_false Result.noConfusion (not_not.mpr (Or.inl found))
  | missed elsewhere last stale empty =>
      refine iff_of_true rfl ?_
      rintro (⟨index, bound, holds, within⟩ | ⟨single, _, staleSlot⟩ | ⟨none, index, below, holds⟩)
      · by_cases inner : index + 1 < minheap.numberOfTimersBeingManaged
        · exact elsewhere index inner holds
        · have four := last index (by omega) holds
          omega
      · exact stale single staleSlot
      · exact empty none index below holds
  | dropped after single other stale =>
      exact iff_of_false Result.noConfusion (not_not.mpr (Or.inr (Or.inl ⟨single, other, stale⟩)))

/-- A search that finds the timer takes an entry out. -/
theorem Removal.count_ne {result : Result} {after : TimerMinHeap Ptr}
    (removal : Removal pTimer minheap result after) (found : minheap.Finds pTimer) :
    after.numberOfTimersBeingManaged ≠ minheap.numberOfTimersBeingManaged := by
  have passed := removal.error_iff
  cases removal with
  | removed _ _ count => omega
  | missed => exact absurd found (passed.mp rfl)
  | dropped _ single _ _ count => omega

variable [DecidableEq Ptr]

variable (whenToFire) in
/-- A removal answers, unless it leaves the array. -/
theorem removeFromHeap_answers
    (room : minheap.numberOfTimersBeingManaged ≤ MAX_NUMBER_OF_TIMERS)
    (filled : minheap.Filled minheap.numberOfTimersBeingManaged)
    (inside : ¬ minheap.Overruns pTimer) :
    ∃ result after, minheap.removeFromHeap MAX_NUMBER_OF_TIMERS whenToFire pTimer =
        some (result, after) ∧ Removal pTimer minheap result after := by
  have taken : (minheap.removeFromHeap MAX_NUMBER_OF_TIMERS whenToFire pTimer).isSome := by
    rw [removeFromHeap_isSome whenToFire room (by decide) (by decide) filled]
    exact fun none index below holds => inside ⟨none, index, below, holds⟩
  obtain ⟨⟨result, after⟩, ran⟩ := Option.isSome_iff_exists.mp taken
  exact ⟨result, after, ran,
    removeFromHeap_removal room (by decide) (by decide) filled ran⟩

variable (whenToFire) in
/-- The search answers an error, and leaves the heap alone, exactly when it compares
the timer with no slot that holds it. -/
theorem removeFromHeap_eq_error_iff
    (room : minheap.numberOfTimersBeingManaged ≤ MAX_NUMBER_OF_TIMERS)
    (filled : minheap.Filled minheap.numberOfTimersBeingManaged) :
    minheap.removeFromHeap MAX_NUMBER_OF_TIMERS whenToFire pTimer = some (.ERROR, minheap) ↔
      ¬ minheap.Finds pTimer := by
  constructor
  · intro ran
    exact (removeFromHeap_removal room (by decide) (by decide) filled ran).error_iff.mp rfl
  · intro passed
    have inside : ¬ minheap.Overruns pTimer := fun overruns => passed (Or.inr (Or.inr overruns))
    obtain ⟨result, after, ran, removal⟩ := removeFromHeap_answers whenToFire room filled inside
    obtain rfl := removal.error_iff.mpr passed
    cases removal with
    | missed => exact ran

/-- Whether a removal takes a timer of the heap out of it: not from the last slot of
four or more. -/
theorem removeFromHeap_takes_out_iff
    (room : minheap.numberOfTimersBeingManaged ≤ MAX_NUMBER_OF_TIMERS)
    (filled : minheap.Filled minheap.numberOfTimersBeingManaged)
    (distinct : minheap.contents.Nodup) (member : some pTimer ∈ minheap.contents) :
    (∃ after, minheap.removeFromHeap MAX_NUMBER_OF_TIMERS whenToFire pTimer = some (.OK, after) ∧
        after.numberOfTimersBeingManaged = minheap.numberOfTimersBeingManaged - 1 ∧
        after.contents = minheap.contents.erase (some pTimer)) ↔
      ¬ (4 ≤ minheap.numberOfTimersBeingManaged ∧
        minheap.heap (minheap.numberOfTimersBeingManaged - 1) = some pTimer) := by
  have once : minheap.contents.count (some pTimer) ≤ 1 :=
    Multiset.nodup_iff_count_le_one.mp distinct (some pTimer)
  constructor
  · rintro ⟨after, ran, _, contents⟩ missed
    have stays := (removeFromHeap_removal room (by decide) (by decide) filled
      ran).occurrences_of_misses once missed
    rw [contents, distinct.mem_erase_iff] at stays
    exact stays.1 rfl
  · intro reached
    have inside : ¬ minheap.Overruns pTimer := by
      rintro ⟨none, _⟩
      rw [contents_eq_zero none] at member
      exact Multiset.notMem_zero _ member
    obtain ⟨result, after, ran, removal⟩ := removeFromHeap_answers whenToFire room filled inside
    have gone := removal.occurrences_self once reached
    cases removal with
    | removed after found count contents =>
        refine ⟨after, ran, by omega, ?_⟩
        rw [contents, Multiset.erase_cons_head]
    | missed => exact absurd member (Multiset.count_eq_zero.mp gone)
    | dropped after single other stale =>
        rw [contents_eq_singleton single, Multiset.mem_singleton] at member
        exact absurd member.symm other

/-- The last of three timers is taken out. -/
theorem removeFromHeap_takes_out_last_of_three :
    ∃ after, (ofList [10, 20, 30]).removeFromHeap MAX_NUMBER_OF_TIMERS id (30 : UInt64) =
        some (.OK, after) ∧
      after.numberOfTimersBeingManaged = 2 ∧
      after.contents = (ofList [10, 20, 30]).contents.erase (some 30) :=
  (removeFromHeap_takes_out_iff (by decide) (filled_ofList _) (by decide) (by decide)).mpr
    (by decide)

/-- The last of four timers is not found. -/
theorem removeFromHeap_last_of_four :
    let minheap : TimerMinHeap UInt64 := ofList [10, 20, 30, 40]
    minheap.contents.Nodup ∧
      (∀ index < 4, 0 < index →
        minheap.keyAt id ((index - 1) / 2) ≤ minheap.keyAt id index) ∧
      minheap.heap 3 = some 40 ∧
      ¬ ∃ after, minheap.removeFromHeap MAX_NUMBER_OF_TIMERS id 40 = some (.OK, after) ∧
        after.numberOfTimersBeingManaged = 3 ∧
        after.contents = minheap.contents.erase (some 40) := by
  refine ⟨by decide, by decide, by decide, ?_⟩
  rintro ⟨after, ran, _⟩
  have answered : ((ofList [10, 20, 30, 40]).removeFromHeap MAX_NUMBER_OF_TIMERS id
      (40 : UInt64)).map Prod.fst = some .ERROR := by decide +kernel
  rw [ran] at answered
  cases answered

/-- Whether removing a timer that is not in the heap answers an error and leaves the
heap alone: no stale pointer to it lies where the search looks. -/
theorem removeFromHeap_absent_iff
    (room : minheap.numberOfTimersBeingManaged ≤ MAX_NUMBER_OF_TIMERS)
    (filled : minheap.Filled minheap.numberOfTimersBeingManaged)
    (absent : some pTimer ∉ minheap.contents) :
    (∃ after, minheap.removeFromHeap MAX_NUMBER_OF_TIMERS whenToFire pTimer =
          some (.ERROR, after) ∧
        after.numberOfTimersBeingManaged = minheap.numberOfTimersBeingManaged ∧
        ∀ index < minheap.numberOfTimersBeingManaged, after.heap index = minheap.heap index) ↔
      ¬ (minheap.numberOfTimersBeingManaged = 0 ∧
          ∃ index < 3, minheap.heap index = some pTimer) ∧
        ¬ (minheap.numberOfTimersBeingManaged = 1 ∧ minheap.heap 1 = some pTimer) := by
  have finds : minheap.Finds pTimer ↔ minheap.Overruns pTimer ∨
      minheap.numberOfTimersBeingManaged = 1 ∧ minheap.heap 1 = some pTimer := by
    constructor
    · rintro (⟨index, bound, holds, _⟩ | ⟨single, _, stale⟩ | overruns)
      · exact absurd (mem_contents.mpr ⟨index, bound, holds⟩) absent
      · exact Or.inr ⟨single, stale⟩
      · exact Or.inl overruns
    · rintro (overruns | ⟨single, stale⟩)
      · exact Or.inr (Or.inr overruns)
      · refine Or.inr (Or.inl ⟨single, fun top => absent ?_, stale⟩)
        exact mem_contents.mpr ⟨0, by omega, top⟩
  rw [← not_or]
  constructor
  · rintro ⟨after, ran, _⟩ found
    exact (removeFromHeap_removal room (by decide) (by decide) filled ran).error_iff.mp rfl
      (finds.mpr found)
  · intro clear
    have ran := (removeFromHeap_eq_error_iff whenToFire room filled).mpr
      fun found => clear (finds.mp found)
    exact ⟨minheap, ran, rfl, fun _ _ => rfl⟩

/-- An absent timer leaves a heap of two as it is. -/
theorem removeFromHeap_absent_of_two :
    ∃ after, (ofList [10, 20]).removeFromHeap MAX_NUMBER_OF_TIMERS id (30 : UInt64) =
        some (.ERROR, after) ∧
      after.numberOfTimersBeingManaged = 2 ∧
      ∀ index < 2, after.heap index = (ofList [10, 20]).heap index :=
  (removeFromHeap_absent_iff (by decide) (filled_ofList _) (by decide)).mpr (by decide)

/-- With timer 10 alone in the heap and a stale pointer to timer 20 behind it, removing
timer 20 drops timer 10. -/
theorem removeFromHeap_drops_other :
    let minheap : TimerMinHeap UInt64 := { ofList [10, 20] with numberOfTimersBeingManaged := 1 }
    some 20 ∉ minheap.contents ∧
      (minheap.removeFromHeap MAX_NUMBER_OF_TIMERS id 20).map Prod.fst = some .OK ∧
      (minheap.removeFromHeap MAX_NUMBER_OF_TIMERS id 20).map
        (fun outcome => outcome.2.numberOfTimersBeingManaged) = some 0 :=
  ⟨by decide, by decide +kernel, by decide +kernel⟩

end Operations

end TimerMinHeap

end TimerAndCallback
