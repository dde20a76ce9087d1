import TimerAndCallback.Platform.TimerMinHeapRemoval

/-! # Removal from the middle of the heap

The timer that fills the hole comes from the last slot, which may lie in another
subtree, and is only sifted down. The sift stays in the subtree under the hole, so
that the timer above the hole is in order with everything below it exactly when it
was in order with the last timer.
-/

namespace TimerAndCallback

namespace TimerMinHeap

open HeapOrder

variable {Ptr : Type} {whenToFire : Ptr → UInt64} {minheap : TimerMinHeap Ptr}

/-- A permutation that leaves alone what is outside moves nothing out. -/
theorem inside_of_fixes {moved : Equiv.Perm Nat} {inside : Nat → Prop}
    (fixes : ∀ index, ¬ inside index → moved index = index) {index : Nat} (here : inside index) :
    inside (moved index) := by
  by_contra out
  have same : moved index = index := moved.injective (fixes (moved index) out)
  rw [same] at out
  exact out here

/-- The downward loop rearranges the subtree under the slot it starts from. -/
theorem downHeapifyFromIndex_below {capacity index : Nat} {after : TimerMinHeap Ptr}
    (room : minheap.numberOfTimersBeingManaged < capacity)
    (filled : minheap.Filled (minheap.numberOfTimersBeingManaged + 1))
    (bound : index ≤ minheap.numberOfTimersBeingManaged)
    (ran : minheap.downHeapifyFromIndex capacity whenToFire index = some after) :
    ∃ moved : Equiv.Perm Nat, after.heap = minheap.heap ∘ moved ∧
      ∀ other, ¬ (Below index other ∧ other < minheap.numberOfTimersBeingManaged) →
        moved other = other := by
  induction remaining : minheap.numberOfTimersBeingManaged - index using Nat.strongRecOn
    generalizing minheap index with
  | ind remaining ih =>
      have rests : some minheap = some after → ∃ moved : Equiv.Perm Nat,
          after.heap = minheap.heap ∘ moved ∧
          ∀ other, ¬ (Below index other ∧ other < minheap.numberOfTimersBeingManaged) →
            moved other = other := by
        intro same
        cases same
        exact ⟨Equiv.refl Nat, rfl, fun _ _ => rfl⟩
      have descends : ∀ child, parent child = index → index < child →
          child < minheap.numberOfTimersBeingManaged →
          (minheap.swap child index).downHeapifyFromIndex capacity whenToFire child = some after →
          ∃ moved : Equiv.Perm Nat, after.heap = minheap.heap ∘ moved ∧
            ∀ other, ¬ (Below index other ∧ other < minheap.numberOfTimersBeingManaged) →
              moved other = other := by
        intro child childOf above inside moves
        have exchangedRoom : (minheap.swap child index).numberOfTimersBeingManaged < capacity :=
          room
        have exchangedFilled := filled.swap (by omega : child < _) (by omega : index < _)
        obtain ⟨moved, heap, fixes⟩ :=
          ih (minheap.numberOfTimersBeingManaged - child) (by omega) exchangedRoom exchangedFilled
            (Nat.le_of_lt inside) moves rfl
        have childBelow : Below index child := .child child (by omega) (childOf ▸ .root)
        refine ⟨moved.trans (Equiv.swap child index), ?_, fun other out => ?_⟩
        · rw [heap, swap_heap]
          rfl
        · have stays : moved other = other :=
            fixes other fun within => out ⟨childBelow.trans within.1, within.2⟩
          have notChild : other ≠ child := fun same => out (same ▸ ⟨childBelow, inside⟩)
          have notIndex : other ≠ index := fun same => out (same ▸ ⟨.root, by omega⟩)
          rw [Equiv.trans_apply, stays, Equiv.swap_apply_of_ne_of_ne notChild notIndex]
      rw [downHeapifyFromIndex_eq room filled bound] at ran
      split_ifs at ran with exits smaller left
      · exact rests ran
      · exact descends _ (parent_left index) (by omega) (by omega) ran
      · exact descends _ (parent_right index) (by omega) (by omega) ran
      · exact rests ran

variable [DecidableEq Ptr] {pTimer : Ptr}

variable (whenToFire) in
/-- The search stops at the first slot that holds the timer, when it stops at one.
`ahead` says that no turn before compared a slot as far as that one. -/
theorem removeSpecificFromIndex_first {parent index : Nat}
    (room : minheap.numberOfTimersBeingManaged ≤ MAX_NUMBER_OF_TIMERS)
    (bound : index < minheap.numberOfTimersBeingManaged)
    (holds : minheap.heap index = some pTimer)
    (first : ∀ earlier < index, minheap.heap earlier ≠ some pTimer)
    (within : index + 1 < minheap.numberOfTimersBeingManaged ∨
      minheap.numberOfTimersBeingManaged < 4)
    (start : parent ≤ index)
    (ahead : parent = index ∨ 2 * parent < index ∨ minheap.numberOfTimersBeingManaged < 4) :
    minheap.removeSpecificFromIndex MAX_NUMBER_OF_TIMERS whenToFire pTimer parent =
      (minheap.removeAtIndex MAX_NUMBER_OF_TIMERS whenToFire index).map (Result.OK, ·) := by
  induction remaining : index - parent using Nat.strongRecOn generalizing parent with
  | ind remaining ih =>
      have atLeast : ∀ found, minheap.heap found = some pTimer → index ≤ found :=
        fun found found_holds => Nat.le_of_not_lt fun earlier => first found earlier found_holds
      rw [removeSpecificFromIndex_eq (by omega) (by omega) room]
      split_ifs with atParent atLeft atRight stop
      · obtain rfl : parent = index := le_antisymm start (atLeast parent atParent)
        rfl
      all_goals
        have passed : parent ≠ index := fun same => atParent (same ▸ holds)
      · have reached := atLeast _ atLeft.2
        obtain rfl : index = 2 * parent + 1 := by omega
        rfl
      · have reached := atLeast _ atRight.2
        have notLeft : index ≠ 2 * parent + 1 := fun same => atLeft ⟨by omega, same ▸ holds⟩
        obtain rfl : index = 2 * parent + 2 := by omega
        rfl
      · omega
      · have notLeft : index = 2 * parent + 1 → ¬ index < minheap.numberOfTimersBeingManaged - 1 :=
          fun same inner => atLeft (same ▸ ⟨inner, holds⟩)
        have notRight : index = 2 * parent + 2 → ¬ index < minheap.numberOfTimersBeingManaged - 1 :=
          fun same inner => atRight (same ▸ ⟨inner, holds⟩)
        exact ih (index - (parent + 1)) (by omega) (by omega) (by omega) rfl

/-- Whether a timer removed from a slot other than the first leaves its slot's subtree
in order with the timer above: the last timer must not be due before that one. The
slot is the first to hold the timer, which is where the search finds it. -/
theorem removeFromHeap_middle_iff {index : Nat} {after : TimerMinHeap Ptr}
    (room : minheap.numberOfTimersBeingManaged ≤ MAX_NUMBER_OF_TIMERS)
    (filled : minheap.Filled minheap.numberOfTimersBeingManaged)
    (ordered : Ordered minheap.numberOfTimersBeingManaged (minheap.keyAt whenToFire))
    (positive : 1 ≤ index) (bound : index < minheap.numberOfTimersBeingManaged)
    (holds : minheap.heap index = some pTimer)
    (first : ∀ earlier < index, minheap.heap earlier ≠ some pTimer)
    (ran : minheap.removeFromHeap MAX_NUMBER_OF_TIMERS whenToFire pTimer = some (.OK, after)) :
    (∀ other, Below index other → other < after.numberOfTimersBeingManaged →
        ¬ after.keyAt whenToFire other < after.keyAt whenToFire ((index - 1) / 2)) ↔
      minheap.keyAt whenToFire ((index - 1) / 2) ≤
        minheap.keyAt whenToFire (minheap.numberOfTimersBeingManaged - 1) := by
  have removal := removeFromHeap_removal room (by decide) (by decide) filled ran
  have count : after.numberOfTimersBeingManaged = minheap.numberOfTimersBeingManaged - 1 := by
    cases removal with
    | removed after found count contents => omega
    | dropped after single other stale count => omega
  have within : index + 1 < minheap.numberOfTimersBeingManaged ∨
      minheap.numberOfTimersBeingManaged < 4 := by
    cases removal with
    | removed after found =>
        obtain ⟨found, foundBound, foundHolds, foundWithin⟩ := found
        have reached : index ≤ found :=
          Nat.le_of_not_lt fun earlier => first found earlier foundHolds
        omega
    | dropped after single => omega
  rw [removeFromHeap, removeSpecificFromIndex_first whenToFire room bound holds first within
    (Nat.zero_le _) (by omega)] at ran
  obtain ⟨remaining, removed, same⟩ := Option.map_eq_some_iff.mp ran
  cases same
  rw [removeAtIndex_of_lt bound room] at removed
  have fewer : (minheap.vacated index).numberOfTimersBeingManaged =
      minheap.numberOfTimersBeingManaged - 1 := rfl
  obtain ⟨moved, heap, fixes⟩ :=
    downHeapifyFromIndex_below (by omega) (filled.vacated bound) (by omega) removed
  have keys : ∀ other, after.keyAt whenToFire other =
      (minheap.vacated index).keyAt whenToFire (moved other) := by
    intro other
    unfold keyAt
    rw [heap, Function.comp_apply]
  have above : (index - 1) / 2 < index := by omega
  have aboveKept : after.keyAt whenToFire ((index - 1) / 2) =
      minheap.keyAt whenToFire ((index - 1) / 2) := by
    have outside := fixes ((index - 1) / 2) fun inside => Nat.not_le.mpr above inside.1.le
    rw [keys, outside, keyAt_vacated_of_ne _ _ (Nat.ne_of_lt above)]
  by_cases last : index + 1 = minheap.numberOfTimersBeingManaged
  · refine iff_of_true (fun other below inside => ?_) ?_
    · have deeper := below.le
      omega
    · rw [show minheap.numberOfTimersBeingManaged - 1 = index by omega]
      exact ordered index positive bound
  · rw [aboveKept]
    constructor
    · intro inOrder
      have fixesBack : ∀ other, ¬ (Below index other ∧
          other < (minheap.vacated index).numberOfTimersBeingManaged) →
          moved.symm other = other := by
        intro other outside
        rw [Equiv.symm_apply_eq, fixes other outside]
      have source := inside_of_fixes fixesBack ⟨Below.root, by omega⟩
      have settled := inOrder (moved.symm index) source.1 (by omega)
      rw [keys, Equiv.apply_symm_apply, keyAt_vacated_hole] at settled
      exact Nat.le_of_not_lt settled
    · intro le other below inside
      obtain ⟨sourceBelow, sourceBound⟩ := inside_of_fixes fixes ⟨below, by omega⟩
      apply Nat.not_lt.mpr
      rw [keys]
      by_cases hole : moved other = index
      · rw [hole, keyAt_vacated_hole]
        exact le
      · rw [keyAt_vacated_of_ne _ _ hole]
        exact ordered.parent_le_of_below positive sourceBelow (by omega)

/-- Removing the slot in the middle of seven timers. -/
theorem removeFromHeap_middle_of_seven :
    ∃ after, (ofList [1, 2, 3, 4, 5, 6, 7]).removeFromHeap MAX_NUMBER_OF_TIMERS id (4 : UInt64) =
        some (.OK, after) ∧
      ∀ other, Below 3 other → other < after.numberOfTimersBeingManaged →
        ¬ after.keyAt id other < after.keyAt id 1 := by
  have answered : ((ofList [1, 2, 3, 4, 5, 6, 7]).removeFromHeap MAX_NUMBER_OF_TIMERS id
      (4 : UInt64)).map Prod.fst = some .OK := by decide +kernel
  obtain ⟨⟨result, after⟩, ran, rfl⟩ := Option.map_eq_some_iff.mp answered
  have inOrder : ∀ index < 7, 0 < index → (ofList [1, 2, 3, 4, 5, 6, (7 : UInt64)]).keyAt id
      (parent index) ≤ (ofList [1, 2, 3, 4, 5, 6, 7]).keyAt id index := by decide
  exact ⟨after, ran, (removeFromHeap_middle_iff (by decide) (filled_ofList _)
    (fun index positive bound => inOrder index bound positive) (by decide)
    (show 3 < (ofList [1, 2, 3, 4, 5, 6, (7 : UInt64)]).numberOfTimersBeingManaged by decide)
    (by decide) (by decide) ran).mpr (by decide)⟩

/-- The timer due at 3 moves from under the timer due at 2 to under the one due at 10. -/
theorem removeFromHeap_breaks_order :
    let minheap : TimerMinHeap UInt64 := ofList [1, 10, 2, 11, 12, 3]
    (∀ index < 6, 0 < index →
        minheap.keyAt id ((index - 1) / 2) ≤ minheap.keyAt id index) ∧
      minheap.heap 3 = some 11 ∧
      ∃ after, minheap.removeFromHeap MAX_NUMBER_OF_TIMERS id 11 = some (.OK, after) ∧
        Below 3 3 ∧ 3 < after.numberOfTimersBeingManaged ∧
        after.keyAt id 3 < after.keyAt id ((3 - 1) / 2) := by
  refine ⟨by decide, by decide, ?_⟩
  have answered : ((ofList [1, 10, 2, 11, 12, 3]).removeFromHeap MAX_NUMBER_OF_TIMERS id
      (11 : UInt64)).map (fun outcome => (outcome.1, outcome.2.numberOfTimersBeingManaged,
        outcome.2.keyAt id 3, outcome.2.keyAt id 1)) = some (.OK, 5, 3, 10) := by decide +kernel
  obtain ⟨⟨result, after⟩, ran, values⟩ := Option.map_eq_some_iff.mp answered
  simp only [Prod.mk.injEq] at values
  obtain ⟨rfl, count, lower, upper⟩ := values
  refine ⟨after, ran, .root, ?_, ?_⟩
  · omega
  · rw [lower, upper]
    decide

end TimerMinHeap

end TimerAndCallback
