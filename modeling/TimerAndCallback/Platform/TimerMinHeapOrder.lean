import TimerAndCallback.Platform.TimerMinHeapContents
import TimerAndCallback.Foundation.Execution

/-! # The heap as a priority queue

Insertion keeps the heap order. Removing the top keeps it too unless the sift
comes to rest on the one slot that may have a left child and no right child: the
downward loop leaves that slot as it is, even when its child is due earlier. A run
in which no removal ends that way always has an earliest timer on top.
-/

namespace TimerAndCallback

namespace TimerMinHeap

open SlotEntries HeapOrder

variable {Ptr : Type} {capacity : Nat} {whenToFire : Ptr → UInt64} {minheap : TimerMinHeap Ptr}

/-- The upward loop settles the slot it starts from. -/
theorem upHeapifyFromIndex_ordered {index count : Nat} {after : TimerMinHeap Ptr}
    (positive : 0 < index) (bound : index < capacity) (inside : index < count)
    (filled : minheap.Filled (index + 1))
    (up : UpOrdered count index (minheap.keyAt whenToFire))
    (ran : minheap.upHeapifyFromIndex capacity whenToFire index = some after) :
    Ordered count (after.keyAt whenToFire) := by
  induction index using Nat.strongRecOn generalizing minheap with
  | ind index ih =>
      have above := parent_lt positive
      rw [upHeapifyFromIndex_eq bound filled] at ran
      split_ifs at ran with settled top
      · cases ran
        exact up.settle fun _ => Nat.le_of_lt settled
      all_goals
        have ascended := up.ascend positive inside (Nat.le_of_not_lt settled)
        rw [← keyAt_swap] at ascended
      · cases ran
        exact ascended.settle fun higher => absurd top (Nat.ne_of_gt higher)
      · have exchanged := filled.swap (by omega : index < index + 1)
          (by omega : parent index < index + 1)
        exact ih (parent index) above (Nat.pos_of_ne_zero top) (by omega) (by omega)
          (exchanged.mono (by omega)) ascended ran

/-- Insertion keeps the heap order. -/
theorem addToHeap_ordered {pTimer : Ptr} {result : Result} {after : TimerMinHeap Ptr}
    (filled : minheap.Filled minheap.numberOfTimersBeingManaged)
    (ordered : Ordered minheap.numberOfTimersBeingManaged (minheap.keyAt whenToFire))
    (ran : minheap.addToHeap capacity whenToFire pTimer = some (result, after)) :
    Ordered after.numberOfTimersBeingManaged (after.keyAt whenToFire) := by
  obtain ⟨room, _, inserted⟩ := addToHeap_inserted filled ran
  rw [inserted.count]
  have agree : ∀ index < minheap.numberOfTimersBeingManaged,
      (minheap.extended pTimer).keyAt whenToFire index = minheap.keyAt whenToFire index := by
    intro index below
    simp only [keyAt, extended, Function.update_of_ne (Nat.ne_of_lt below)]
  have up := ordered.upOrdered_last agree
  rcases Nat.eq_zero_or_pos minheap.numberOfTimersBeingManaged with first | positive
  · intro index above bound
    omega
  · rw [addToHeap_of_pos room positive] at ran
    obtain ⟨sifted, moved, finished⟩ := Option.map_eq_some_iff.mp ran
    rw [Prod.mk.injEq] at finished
    obtain ⟨_, rfl⟩ := finished
    have settled : Ordered (minheap.numberOfTimersBeingManaged + 1)
        (sifted.keyAt whenToFire) :=
      upHeapifyFromIndex_ordered positive room (Nat.lt_succ_self _) (filled.extended pTimer) up
        moved
    exact settled

/-- Insertion into a min-heap with room returns `OK` and leaves a min-heap with the timer
added, whose slots past the new count are as before. An array of one slot more than the
heap has timers would do, so that no slot past it is touched. -/
theorem addToHeap_keeps_heap (whenToFire : Ptr → UInt64) (minheap : TimerMinHeap Ptr)
    (room : minheap.numberOfTimersBeingManaged < MAX_NUMBER_OF_TIMERS)
    (filled : minheap.Filled minheap.numberOfTimersBeingManaged)
    (ordered : Ordered minheap.numberOfTimersBeingManaged (minheap.keyAt whenToFire))
    (pTimer : Ptr) : ∃ after,
      minheap.addToHeap MAX_NUMBER_OF_TIMERS whenToFire pTimer = some (.OK, after) ∧
        after.numberOfTimersBeingManaged = minheap.numberOfTimersBeingManaged + 1 ∧
        after.contents = some pTimer ::ₘ minheap.contents ∧
        Ordered after.numberOfTimersBeingManaged (after.keyAt whenToFire) ∧
        (∀ index, minheap.numberOfTimersBeingManaged < index →
          after.heap index = minheap.heap index) ∧
        minheap.addToHeap (minheap.numberOfTimersBeingManaged + 1) whenToFire pTimer =
          some (.OK, after) := by
  obtain ⟨sifted, ran, rearranged⟩ := addToHeap_eq whenToFire room filled pTimer
  obtain ⟨_, _, inserted⟩ := addToHeap_inserted filled ran
  refine ⟨_, ran, inserted.count, inserted.contents, addToHeap_ordered filled ordered ran, ?_, ?_⟩
  · intro index past
    have outside : sifted.heap index = (minheap.extended pTimer).heap index :=
      rearranged.outside index past
    rw [outside]
    exact Function.update_of_ne (Nat.ne_of_gt past) _ _
  · rw [← addToHeap_congr room (Nat.lt_succ_self _) filled]
    exact ran

/-- A timer due at the same time as two others, with stale slots past it. -/
theorem addToHeap_keeps_heap_tie :
    let minheap : TimerMinHeap UInt64 := ⟨fun index => [5, 7, 5, 9, 1][index]?, 3⟩
    ∃ after, minheap.addToHeap MAX_NUMBER_OF_TIMERS id 5 = some (.OK, after) ∧
      after.numberOfTimersBeingManaged = 4 ∧
      after.contents = some 5 ::ₘ minheap.contents ∧
      Ordered after.numberOfTimersBeingManaged (after.keyAt id) ∧
      (∀ index, 3 < index → after.heap index = minheap.heap index) ∧
      minheap.addToHeap 4 id 5 = some (.OK, after) := by
  let minheap : TimerMinHeap UInt64 := ⟨fun index => [5, 7, 5, 9, 1][index]?, 3⟩
  have inOrder : ∀ index < 3, 0 < index →
      minheap.keyAt id (parent index) ≤ minheap.keyAt id index := by decide
  have filled : ∀ index < 3, (minheap.heap index).isSome := by decide
  exact addToHeap_keeps_heap id minheap (by decide) filled
    (fun index positive bound => inOrder index bound positive) 5

/-- The downward loop settles its slot, unless it comes to rest on a slot with a
left child only that is due earlier. `origin` is the order of the array before the
loop; below the loop's slot it still holds. -/
theorem downHeapifyFromIndex_ordered {index : Nat} {after : TimerMinHeap Ptr}
    {origin : Nat → Nat} (room : minheap.numberOfTimersBeingManaged < capacity)
    (filled : minheap.Filled (minheap.numberOfTimersBeingManaged + 1))
    (bound : index ≤ minheap.numberOfTimersBeingManaged)
    (below : ∀ other, index < other → minheap.keyAt whenToFire other = origin other)
    (path : onLesserPath origin index = true)
    (down : DownOrdered minheap.numberOfTimersBeingManaged index (minheap.keyAt whenToFire))
    (ran : minheap.downHeapifyFromIndex capacity whenToFire index = some after) :
    Ordered minheap.numberOfTimersBeingManaged (after.keyAt whenToFire) ∨
      ∃ lone, onLesserPath origin lone = true ∧
        2 * lone + 2 = minheap.numberOfTimersBeingManaged ∧
        origin (2 * lone + 1) < minheap.keyAt whenToFire index := by
  induction remaining : minheap.numberOfTimersBeingManaged - index using Nat.strongRecOn
    generalizing minheap index with
  | ind remaining ih =>
      have descends : ∀ child, child = 2 * index + 1 ∨ child = 2 * index + 2 →
          child < minheap.numberOfTimersBeingManaged →
          (∀ other, 0 < other → other < minheap.numberOfTimersBeingManaged →
            parent other = index →
            minheap.keyAt whenToFire child ≤ minheap.keyAt whenToFire other) →
          minheap.keyAt whenToFire child ≤ minheap.keyAt whenToFire index →
          onLesserPath origin child = true →
          (minheap.swap child index).downHeapifyFromIndex capacity whenToFire child =
            some after →
          Ordered minheap.numberOfTimersBeingManaged (after.keyAt whenToFire) ∨
            ∃ lone, onLesserPath origin lone = true ∧
              2 * lone + 2 = minheap.numberOfTimersBeingManaged ∧
              origin (2 * lone + 1) < minheap.keyAt whenToFire index := by
        intro child isChild inside least le childPath moved
        have childOf : parent child = index := by
          rcases isChild with rfl | rfl
          · exact parent_left index
          · exact parent_right index
        have descended := down.descend (by omega) inside childOf least le
        rw [← keyAt_swap] at descended
        have exchangedRoom : (minheap.swap child index).numberOfTimersBeingManaged < capacity :=
          room
        have exchangedFilled := filled.swap (by omega : child < _) (by omega : index < _)
        have carried : (minheap.swap child index).keyAt whenToFire child =
            minheap.keyAt whenToFire index := by
          rw [keyAt_swap, Function.comp_apply, Equiv.swap_apply_left]
        have exchangedBelow : ∀ other, child < other →
            (minheap.swap child index).keyAt whenToFire other = origin other := by
          intro other lower
          rw [keyAt_swap, Function.comp_apply,
            Equiv.swap_apply_of_ne_of_ne (by omega) (by omega)]
          exact below other (by omega)
        have settled := ih (minheap.numberOfTimersBeingManaged - child) (by omega) exchangedRoom
          exchangedFilled (Nat.le_of_lt inside) exchangedBelow childPath descended moved rfl
        rwa [carried] at settled
      rw [downHeapifyFromIndex_eq room filled bound] at ran
      split_ifs at ran with exits smaller left
      · have same := Option.some.inj ran
        subst same
        by_cases skipped : 2 * index + 2 = minheap.numberOfTimersBeingManaged ∧
            minheap.keyAt whenToFire (2 * index + 1) < minheap.keyAt whenToFire index
        · refine Or.inr ⟨index, path, skipped.1, ?_⟩
          rw [← below (2 * index + 1) (by omega)]
          exact skipped.2
        · refine Or.inl (down.settle fun child positive inside childOf => ?_)
          rcases eq_child_of_parent positive childOf with rfl | rfl
          · exact Nat.le_of_not_lt fun earlier => skipped ⟨by omega, earlier⟩
          · omega
      · refine descends _ (Or.inl rfl) (by omega) ?_ (by omega) ?_ ran
        · intro other positive inside otherOf
          rcases eq_child_of_parent positive otherOf with rfl | rfl
          · exact le_rfl
          · exact Nat.le_of_lt left
        · rw [onLesserPath_left, ← below (2 * index + 1) (by omega),
            ← below (2 * index + 2) (by omega)]
          exact ⟨left, path⟩
      · refine descends _ (Or.inr rfl) (by omega) ?_ (by omega) ?_ ran
        · intro other positive inside otherOf
          rcases eq_child_of_parent positive otherOf with rfl | rfl
          · exact Nat.le_of_not_lt left
          · exact le_rfl
        · rw [onLesserPath_right, ← below (2 * index + 1) (by omega),
            ← below (2 * index + 2) (by omega)]
          exact ⟨Nat.le_of_not_lt left, path⟩
      · have same := Option.some.inj ran
        subst same
        refine Or.inl (down.settle fun child positive inside childOf => ?_)
        rcases eq_child_of_parent positive childOf with rfl | rfl
        · omega
        · omega

/-- The branch of the downward loop that leaves the order broken, told from the
heap before its top is removed: the slots that remain are even in number, so that
their last internal slot has a left child only; that child is due before the timer
in the last slot, which the removal puts on top; and the path of lesser children
runs from the top to the child's parent. -/
def SkipsLoneChild (whenToFire : Ptr → UInt64) (minheap : TimerMinHeap Ptr) : Prop :=
  let remaining := minheap.numberOfTimersBeingManaged - 1
  2 ≤ remaining ∧ remaining % 2 = 0 ∧
    minheap.keyAt whenToFire (remaining - 1) < minheap.keyAt whenToFire remaining ∧
    onLesserPath (minheap.keyAt whenToFire) (parent (remaining - 1)) = true

instance (whenToFire : Ptr → UInt64) (minheap : TimerMinHeap Ptr) :
    Decidable (minheap.SkipsLoneChild whenToFire) := by
  unfold SkipsLoneChild
  infer_instance

variable [DecidableEq Ptr]

/-- The search finds the timer on top at once. -/
theorem removeFromHeap_top {top : Ptr} (room : 0 < capacity) (holds : minheap.heap 0 = some top) :
    minheap.removeFromHeap capacity whenToFire top =
      (minheap.removeAtIndex capacity whenToFire 0).map (Result.OK, ·) := by
  rw [removeFromHeap, removeSpecificFromIndex]
  simp only [slot_eq room, holds, Option.bind_eq_bind, Option.bind_some, ↓reduceIte]

/-- Removing the top succeeds, and keeps the heap order unless it takes the branch
that skips a lone child. -/
theorem removeTop_ordered {top : Ptr} (positive : 0 < minheap.numberOfTimersBeingManaged)
    (room : minheap.numberOfTimersBeingManaged ≤ capacity)
    (filled : minheap.Filled minheap.numberOfTimersBeingManaged)
    (ordered : Ordered minheap.numberOfTimersBeingManaged (minheap.keyAt whenToFire))
    (compared : ¬ minheap.SkipsLoneChild whenToFire) (holds : minheap.heap 0 = some top) :
    ∃ after, minheap.removeFromHeap capacity whenToFire top = some (.OK, after) ∧
      after.numberOfTimersBeingManaged + 1 = minheap.numberOfTimersBeingManaged ∧
      minheap.contents = some top ::ₘ after.contents ∧
      Ordered after.numberOfTimersBeingManaged (after.keyAt whenToFire) := by
  let vacated := minheap.vacated 0
  obtain ⟨after, taken, rearranged⟩ := removeAtIndex_eq whenToFire positive room filled
  have count : after.numberOfTimersBeingManaged = minheap.numberOfTimersBeingManaged - 1 :=
    rearranged.count
  have sifted : vacated.downHeapifyFromIndex capacity whenToFire 0 = some after := by
    rwa [removeAtIndex_of_lt positive room] at taken
  have below : ∀ other, 0 < other →
      vacated.keyAt whenToFire other = minheap.keyAt whenToFire other :=
    fun other lower => keyAt_vacated_of_ne whenToFire minheap (Nat.ne_of_gt lower)
  have down : DownOrdered vacated.numberOfTimersBeingManaged 0 (vacated.keyAt whenToFire) :=
    (ordered.mono (Nat.sub_le _ 1)).downOrdered_root fun index lower _ => below index lower
  refine ⟨after, ?_, by omega, ?_, ?_⟩
  · rw [removeFromHeap_top (by omega) holds, taken, Option.map_some]
  · rw [← holds]
    exact contents_of_vacated positive rearranged
  · rw [count]
    rcases downHeapifyFromIndex_ordered
        (show minheap.numberOfTimersBeingManaged - 1 < capacity by omega)
        (filled.vacated positive) (Nat.zero_le _) below (onLesserPath_root _) down sifted with
      settled | ⟨lone, path, last, earlier⟩
    · exact settled
    · -- the sift rests on `lone`, whose one child is the last slot that remains
      have remaining : minheap.numberOfTimersBeingManaged - 1 = 2 * lone + 2 := last.symm
      refine absurd ⟨?_, ?_, ?_, ?_⟩ compared
      · omega
      · omega
      · rw [keyAt_vacated_hole, remaining] at earlier
        rw [remaining]
        exact earlier
      · rw [remaining, show 2 * lone + 2 - 1 = 2 * lone + 1 from rfl, parent_left]
        exact path

end TimerMinHeap

end TimerAndCallback
