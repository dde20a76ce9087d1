import TimerAndCallback.Platform.TimerMinHeapSift

/-! # What insertion and removal do to the contents

The contents of the heap are the timers in the slots below the count. Insertion
adds one timer. Removal has three outcomes: it takes the timer out; or it misses
it, which for a timer in the heap happens in the last slot of four or more; or,
with a single timer left, it finds a stale pointer in slot one and drops the
timer that is there instead. With no timer left a stale pointer takes it outside
the array.
-/

namespace TimerAndCallback

namespace TimerMinHeap

open SlotEntries

variable {Ptr : Type}

/-- The pointers in the slots below the count, as a multiset. -/
def contents (minheap : TimerMinHeap Ptr) : Multiset (Option Ptr) :=
  entries minheap.numberOfTimersBeingManaged minheap.heap

/-- The contents are as many as the timers managed. -/
theorem card_contents (minheap : TimerMinHeap Ptr) :
    minheap.contents.card = minheap.numberOfTimersBeingManaged := card_entries _ _

/-- The contents are what the slots in use hold. -/
theorem mem_contents {minheap : TimerMinHeap Ptr} {pTimer : Option Ptr} :
    pTimer ∈ minheap.contents ↔
      ∃ index < minheap.numberOfTimersBeingManaged, minheap.heap index = pTimer := mem_entries

/-- A heap is filled below its count when no pointer in it is null. -/
theorem filled_iff {minheap : TimerMinHeap Ptr} :
    minheap.Filled minheap.numberOfTimersBeingManaged ↔ none ∉ minheap.contents := by
  rw [mem_contents]
  constructor
  · rintro filled ⟨index, bound, null⟩
    have holds := filled index bound
    rw [null] at holds
    cases holds
  · intro absent index bound
    rw [Option.isSome_iff_ne_none]
    exact fun null => absent ⟨index, bound, null⟩

section Operations

variable {capacity : Nat} {whenToFire : Ptr → UInt64} {minheap : TimerMinHeap Ptr}

/-- The heap with a timer written into the first stale slot. -/
def extended (minheap : TimerMinHeap Ptr) (pTimer : Ptr) : TimerMinHeap Ptr :=
  { minheap with
    heap := Function.update minheap.heap minheap.numberOfTimersBeingManaged (some pTimer) }

/-- The heap is filled with the new timer in the next slot. -/
theorem Filled.extended (filled : minheap.Filled minheap.numberOfTimersBeingManaged)
    (pTimer : Ptr) :
    (minheap.extended pTimer).Filled (minheap.numberOfTimersBeingManaged + 1) := by
  intro index below
  unfold TimerMinHeap.extended
  by_cases last : index = minheap.numberOfTimersBeingManaged
  · simp only [last, Function.update_self, Option.isSome_some]
  · simp only [Function.update_of_ne last]
    exact filled index (by omega)

/-- Into a heap that has a timer, insertion sifts the first stale slot up. -/
theorem addToHeap_of_pos (room : minheap.numberOfTimersBeingManaged < capacity)
    (positive : 0 < minheap.numberOfTimersBeingManaged) (pTimer : Ptr) :
    minheap.addToHeap capacity whenToFire pTimer =
      ((minheap.extended pTimer).upHeapifyFromIndex capacity whenToFire
        minheap.numberOfTimersBeingManaged).map fun sifted =>
          (.OK, { sifted with
            numberOfTimersBeingManaged := sifted.numberOfTimersBeingManaged + 1 }) := by
  simp only [addToHeap, upHeapify, setSlot_eq room, Option.bind_eq_bind, Option.bind_some,
    if_neg (Nat.ne_of_gt positive), Option.map_eq_bind]
  rfl

variable (whenToFire) in
/-- Insertion writes the first stale slot and rearranges up to it. -/
theorem addToHeap_eq (room : minheap.numberOfTimersBeingManaged < capacity)
    (filled : minheap.Filled minheap.numberOfTimersBeingManaged) (pTimer : Ptr) :
    ∃ sifted, minheap.addToHeap capacity whenToFire pTimer =
        some (.OK, { sifted with
          numberOfTimersBeingManaged := minheap.numberOfTimersBeingManaged + 1 }) ∧
      Rearranged (minheap.numberOfTimersBeingManaged + 1) (minheap.extended pTimer) sifted := by
  rcases Nat.eq_zero_or_pos minheap.numberOfTimersBeingManaged with first | positive
  · refine ⟨minheap.extended pTimer, ?_, Rearranged.refl _ _⟩
    simp only [addToHeap, upHeapify, setSlot_eq room, Option.bind_eq_bind, Option.bind_some,
      if_pos first, extended]
  · obtain ⟨sifted, ran, rearranged⟩ := upHeapifyFromIndex_rearranged whenToFire positive room
      (filled.extended pTimer)
    have count : sifted.numberOfTimersBeingManaged = minheap.numberOfTimersBeingManaged :=
      rearranged.count
    refine ⟨sifted, ?_, rearranged⟩
    rw [addToHeap_of_pos room positive, ran, Option.map_some, count]

/-- Insertion stays within the slots up to the first stale one. -/
theorem addToHeap_congr {wider : Nat} (room : minheap.numberOfTimersBeingManaged < capacity)
    (wide : minheap.numberOfTimersBeingManaged < wider)
    (filled : minheap.Filled minheap.numberOfTimersBeingManaged) (pTimer : Ptr) :
    minheap.addToHeap capacity whenToFire pTimer =
      minheap.addToHeap wider whenToFire pTimer := by
  rcases Nat.eq_zero_or_pos minheap.numberOfTimersBeingManaged with first | positive
  · simp only [addToHeap, upHeapify, setSlot_eq room, setSlot_eq wide, Option.bind_eq_bind,
      Option.bind_some, if_pos first]
  · rw [addToHeap_of_pos room positive, addToHeap_of_pos wide positive,
      upHeapifyFromIndex_congr room wide (filled.extended pTimer)]

/-- A full array is written past its end. -/
theorem addToHeap_eq_none (full : capacity ≤ minheap.numberOfTimersBeingManaged) (pTimer : Ptr) :
    minheap.addToHeap capacity whenToFire pTimer = none := by
  have outside : ¬ minheap.numberOfTimersBeingManaged < capacity := by omega
  simp only [addToHeap, upHeapify, setSlot, outside, ↓reduceIte, Option.bind_eq_bind,
    Option.bind_none]

/-- An insertion that stays inside the array adds one to the count. -/
theorem addToHeap_count {pTimer : Ptr} {result : Result} {after : TimerMinHeap Ptr}
    (ran : minheap.addToHeap capacity whenToFire pTimer = some (result, after)) :
    after.numberOfTimersBeingManaged = minheap.numberOfTimersBeingManaged + 1 := by
  by_cases room : minheap.numberOfTimersBeingManaged < capacity
  · by_cases first : minheap.numberOfTimersBeingManaged = 0
    · simp only [addToHeap, upHeapify, setSlot_eq room, Option.bind_eq_bind, Option.bind_some,
        if_pos first, Option.some.injEq, Prod.mk.injEq] at ran
      obtain ⟨_, rfl⟩ := ran
      rfl
    · simp only [addToHeap, upHeapify, setSlot_eq room, Option.bind_eq_bind, Option.bind_some,
        if_neg first] at ran
      obtain ⟨sifted, moved, finished⟩ := Option.bind_eq_some_iff.mp ran
      cases finished
      have counted := upHeapifyFromIndex_count moved
      exact congrArg (· + 1) counted
  · rw [addToHeap_eq_none (by omega)] at ran
    cases ran

/-- The heap after a timer was added. -/
structure Inserted (pTimer : Ptr) (before after : TimerMinHeap Ptr) : Prop where
  count : after.numberOfTimersBeingManaged = before.numberOfTimersBeingManaged + 1
  contents : after.contents = some pTimer ::ₘ before.contents

/-- `addToHeap` inserts its timer where there is room. -/
theorem addToHeap_inserted {pTimer : Ptr} {result : Result} {after : TimerMinHeap Ptr}
    (filled : minheap.Filled minheap.numberOfTimersBeingManaged)
    (ran : minheap.addToHeap capacity whenToFire pTimer = some (result, after)) :
    minheap.numberOfTimersBeingManaged < capacity ∧ result = .OK ∧
      Inserted pTimer minheap after := by
  by_cases room : minheap.numberOfTimersBeingManaged < capacity
  · obtain ⟨sifted, added, rearranged⟩ := addToHeap_eq whenToFire room filled pTimer
    rw [added, Option.some.injEq, Prod.mk.injEq] at ran
    obtain ⟨rfl, rfl⟩ := ran
    refine ⟨room, rfl, rfl, ?_⟩
    unfold contents
    rw [rearranged.inside]
    exact entries_append _ _ _
  · rw [addToHeap_eq_none (by omega)] at ran
    cases ran

/-- The heap with the timer of its last slot moved into a hole. -/
def vacated (minheap : TimerMinHeap Ptr) (hole : Nat) : TimerMinHeap Ptr :=
  { heap := Function.update minheap.heap hole
      (minheap.heap (minheap.numberOfTimersBeingManaged - 1))
    numberOfTimersBeingManaged := minheap.numberOfTimersBeingManaged - 1 }

/-- The slot that was the last one still holds its timer. -/
theorem Filled.vacated {hole : Nat} (filled : minheap.Filled minheap.numberOfTimersBeingManaged)
    (bound : hole < minheap.numberOfTimersBeingManaged) :
    (minheap.vacated hole).Filled ((minheap.vacated hole).numberOfTimersBeingManaged + 1) := by
  intro index below
  unfold TimerMinHeap.vacated at below ⊢
  dsimp only at below ⊢
  by_cases same : index = hole
  · rw [same, Function.update_self]
    exact filled _ (by omega)
  · rw [Function.update_of_ne same]
    exact filled index (by omega)

variable (whenToFire) in
/-- The vacated slot takes the key of the last. -/
theorem keyAt_vacated_hole (minheap : TimerMinHeap Ptr) (hole : Nat) :
    (minheap.vacated hole).keyAt whenToFire hole =
      minheap.keyAt whenToFire (minheap.numberOfTimersBeingManaged - 1) := by
  simp only [keyAt, TimerMinHeap.vacated, Function.update_self]

variable (whenToFire) in
/-- Vacating a slot leaves the keys of the others. -/
theorem keyAt_vacated_of_ne (minheap : TimerMinHeap Ptr) {hole other : Nat}
    (different : other ≠ hole) :
    (minheap.vacated hole).keyAt whenToFire other = minheap.keyAt whenToFire other := by
  simp only [keyAt, TimerMinHeap.vacated, Function.update_of_ne different]

/-- The timer of the hole leaves the heap, however the others are rearranged. -/
theorem contents_of_vacated {hole : Nat} {after : TimerMinHeap Ptr}
    (bound : hole < minheap.numberOfTimersBeingManaged)
    (rearranged : Rearranged (minheap.numberOfTimersBeingManaged - 1) (minheap.vacated hole)
      after) : minheap.contents = minheap.heap hole ::ₘ after.contents := by
  have count : after.numberOfTimersBeingManaged = minheap.numberOfTimersBeingManaged - 1 :=
    rearranged.count
  have split := entries_fill
    (show hole ≤ minheap.numberOfTimersBeingManaged - 1 by omega) minheap.heap
  rw [Nat.sub_add_cancel (by omega)] at split
  unfold contents
  rw [split, count, rearranged.inside]
  rfl

/-- Inside the array, a slot is vacated and sifted down. -/
theorem removeAtIndex_of_lt {index : Nat} (bound : index < minheap.numberOfTimersBeingManaged)
    (room : minheap.numberOfTimersBeingManaged ≤ capacity) :
    minheap.removeAtIndex capacity whenToFire index =
      (minheap.vacated index).downHeapifyFromIndex capacity whenToFire index := by
  rw [removeAtIndex, predUINT32_of_pos (by omega), slot_eq (by omega), Option.bind_eq_bind,
    Option.bind_some, setSlot_eq (by omega), Option.bind_eq_bind, Option.bind_some]
  dsimp only
  rw [predUINT32_of_pos (by omega)]
  rfl

variable (whenToFire) in
/-- A hole below the count is filled from the last slot: its timer leaves the heap. -/
theorem removeAtIndex_eq {index : Nat} (bound : index < minheap.numberOfTimersBeingManaged)
    (room : minheap.numberOfTimersBeingManaged ≤ capacity)
    (filled : minheap.Filled minheap.numberOfTimersBeingManaged) :
    ∃ after, minheap.removeAtIndex capacity whenToFire index = some after ∧
      Rearranged (minheap.numberOfTimersBeingManaged - 1) (minheap.vacated index) after := by
  have fewer : (minheap.vacated index).numberOfTimersBeingManaged =
      minheap.numberOfTimersBeingManaged - 1 := rfl
  rw [removeAtIndex_of_lt bound room]
  exact downHeapifyFromIndex_rearranged whenToFire (by omega) (filled.vacated bound) (by omega)

/-- Without a timer in the heap the last slot is outside the array. -/
theorem removeAtIndex_eq_none (none : minheap.numberOfTimersBeingManaged = 0)
    (representable : capacity < 2 ^ 32) (index : Nat) :
    minheap.removeAtIndex capacity whenToFire index = .none := by
  have outside : ¬ (2 ^ 32 - 1 : Nat) < capacity := by omega
  simp only [removeAtIndex, predUINT32, none, ↓reduceIte, slot, outside, Option.bind_eq_bind,
    Option.bind_none]

variable [DecidableEq Ptr]

/-- One turn of the search, when the children it compares are in the array. -/
theorem removeSpecificFromIndex_eq {parent : Nat} (bound : parent < capacity)
    (positive : 0 < minheap.numberOfTimersBeingManaged)
    (room : minheap.numberOfTimersBeingManaged ≤ capacity) (pTimer : Ptr) :
    minheap.removeSpecificFromIndex capacity whenToFire pTimer parent =
      if minheap.heap parent = some pTimer then
        (minheap.removeAtIndex capacity whenToFire parent).map (Result.OK, ·)
      else if 2 * parent + 1 < minheap.numberOfTimersBeingManaged - 1 ∧
          minheap.heap (2 * parent + 1) = some pTimer then
        (minheap.removeAtIndex capacity whenToFire (2 * parent + 1)).map (Result.OK, ·)
      else if 2 * parent + 2 < minheap.numberOfTimersBeingManaged - 1 ∧
          minheap.heap (2 * parent + 2) = some pTimer then
        (minheap.removeAtIndex capacity whenToFire (2 * parent + 2)).map (Result.OK, ·)
      else if minheap.numberOfTimersBeingManaged < 2 * parent + 1 then
        some (.ERROR, minheap)
      else
        minheap.removeSpecificFromIndex capacity whenToFire pTimer (parent + 1) := by
  have compares : ∀ index, minheap.matchesBelow capacity
      (predUINT32 minheap.numberOfTimersBeingManaged) index pTimer =
        some (decide (index < minheap.numberOfTimersBeingManaged - 1 ∧
          minheap.heap index = some pTimer)) := by
    intro index
    rw [matchesBelow, predUINT32_of_pos positive]
    by_cases inside : index < minheap.numberOfTimersBeingManaged - 1
    · rw [if_pos inside, slot_eq (by omega)]
      simp only [Option.map_some, inside, true_and]
    · rw [if_neg inside]
      simp only [inside, false_and, decide_false]
  rw [removeSpecificFromIndex]
  simp only [slot_eq bound, compares, Option.bind_eq_bind, Option.bind_some, Nat.mul_comm parent 2,
    decide_eq_true_eq, dite_eq_ite]

variable (whenToFire) in
/-- With two timers or more the search either finds the timer below the count, or
has compared every slot it visits with it. -/
theorem removeSpecificFromIndex_search {parent : Nat}
    (many : 2 ≤ minheap.numberOfTimersBeingManaged)
    (room : minheap.numberOfTimersBeingManaged ≤ capacity)
    (bound : parent ≤ (minheap.numberOfTimersBeingManaged - 1) / 2 + 1) (pTimer : Ptr) :
    (∃ index < minheap.numberOfTimersBeingManaged, minheap.heap index = some pTimer ∧
        (index + 1 < minheap.numberOfTimersBeingManaged ∨
          minheap.numberOfTimersBeingManaged < 4) ∧
        minheap.removeSpecificFromIndex capacity whenToFire pTimer parent =
          (minheap.removeAtIndex capacity whenToFire index).map (Result.OK, ·)) ∨
      (minheap.removeSpecificFromIndex capacity whenToFire pTimer parent =
          some (.ERROR, minheap) ∧
        ∀ visited, parent ≤ visited →
          visited ≤ (minheap.numberOfTimersBeingManaged - 1) / 2 + 1 →
          minheap.heap visited ≠ some pTimer ∧
          ∀ child, child = 2 * visited + 1 ∨ child = 2 * visited + 2 →
            child < minheap.numberOfTimersBeingManaged - 1 →
            minheap.heap child ≠ some pTimer) := by
  induction remaining : minheap.numberOfTimersBeingManaged - parent using Nat.strongRecOn
    generalizing parent with
  | ind remaining ih =>
      rw [removeSpecificFromIndex_eq (by omega) (by omega) room]
      split_ifs with atParent atLeft atRight stop
      · exact Or.inl ⟨parent, by omega, atParent, by omega, rfl⟩
      · exact Or.inl ⟨2 * parent + 1, by omega, atLeft.2, by omega, rfl⟩
      · exact Or.inl ⟨2 * parent + 2, by omega, atRight.2, by omega, rfl⟩
      all_goals
        have here : ∀ child, child = 2 * parent + 1 ∨ child = 2 * parent + 2 →
            child < minheap.numberOfTimersBeingManaged - 1 →
            minheap.heap child ≠ some pTimer := by
          rintro child (rfl | rfl) inside holds
          · exact atLeft ⟨inside, holds⟩
          · exact atRight ⟨inside, holds⟩
      · refine Or.inr ⟨rfl, fun visited lower upper => ?_⟩
        obtain rfl : visited = parent := by omega
        exact ⟨atParent, here⟩
      · rcases ih (minheap.numberOfTimersBeingManaged - (parent + 1)) (by omega) (by omega) rfl with
          found | ⟨missed, compared⟩
        · exact Or.inl found
        · refine Or.inr ⟨missed, fun visited lower upper => ?_⟩
          rcases Nat.eq_or_lt_of_le lower with rfl | above
          · exact ⟨atParent, here⟩
          · exact compared visited above upper

/-- The three ways a removal can end. -/
inductive Removal (pTimer : Ptr) (before : TimerMinHeap Ptr) :
    Result → TimerMinHeap Ptr → Prop
  /-- The timer was in the heap, not only in the last slot of four or more, and left it. -/
  | removed (after : TimerMinHeap Ptr)
      (found : ∃ index < before.numberOfTimersBeingManaged, before.heap index = some pTimer ∧
        (index + 1 < before.numberOfTimersBeingManaged ∨ before.numberOfTimersBeingManaged < 4))
      (count : after.numberOfTimersBeingManaged + 1 = before.numberOfTimersBeingManaged)
      (contents : before.contents = some pTimer ::ₘ after.contents) :
      Removal pTimer before .OK after
  /-- The timer was not found: it is not in the heap, or it is in the last slot of
  four or more. -/
  | missed (elsewhere : ∀ index, index + 1 < before.numberOfTimersBeingManaged →
        before.heap index ≠ some pTimer)
      (last : ∀ index, index + 1 = before.numberOfTimersBeingManaged →
        before.heap index = some pTimer → 4 ≤ before.numberOfTimersBeingManaged)
      (stale : before.numberOfTimersBeingManaged = 1 → before.heap 1 ≠ some pTimer)
      (empty : before.numberOfTimersBeingManaged = 0 →
        ∀ index < 3, before.heap index ≠ some pTimer) :
      Removal pTimer before .ERROR before
  /-- A stale pointer to the timer was found past the only timer in the heap, and
  that other timer was dropped. -/
  | dropped (after : TimerMinHeap Ptr) (single : before.numberOfTimersBeingManaged = 1)
      (other : before.heap 0 ≠ some pTimer) (stale : before.heap 1 = some pTimer)
      (count : after.numberOfTimersBeingManaged = 0) : Removal pTimer before .OK after

/-- With no timer left, a stale pointer to the timer in one of the three slots the
search compares leads outside the array. -/
theorem removeFromHeap_of_zero (none : minheap.numberOfTimersBeingManaged = 0)
    (room : 3 ≤ capacity) (representable : capacity < 2 ^ 32) (pTimer : Ptr) :
    minheap.removeFromHeap capacity whenToFire pTimer =
      if minheap.heap 0 = some pTimer ∨ minheap.heap 1 = some pTimer ∨
          minheap.heap 2 = some pTimer then .none
      else some (.ERROR, minheap) := by
  have compares : ∀ index < 3, minheap.matchesBelow capacity
      (predUINT32 minheap.numberOfTimersBeingManaged) index pTimer =
        some (decide (minheap.heap index = some pTimer)) := by
    intro index below
    have admitted : index < 2 ^ 32 - 1 := by omega
    rw [matchesBelow, predUINT32, if_pos none, if_pos admitted, slot_eq (by omega),
      Option.map_some]
  have outside : ∀ index, minheap.removeAtIndex capacity whenToFire index = Option.none :=
    removeAtIndex_eq_none none representable
  have stop : minheap.numberOfTimersBeingManaged < 0 * 2 + 1 := by omega
  rw [removeFromHeap, removeSpecificFromIndex]
  simp only [slot_eq (show 0 < capacity by omega), Option.bind_eq_bind, Option.bind_some,
    compares (0 * 2 + 1) (by omega), compares (0 * 2 + 1 + 1) (by omega), decide_eq_true_eq,
    outside, Option.map_none, stop, ↓reduceDIte, Nat.zero_mul, Nat.zero_add, Nat.reduceAdd]
  split_ifs <;> simp_all only [true_or, or_true, or_self, not_true_eq_false]

/-- With a single timer the search also compares slot one, which is stale. -/
theorem removeFromHeap_of_one (single : minheap.numberOfTimersBeingManaged = 1)
    (room : 2 ≤ capacity) (pTimer : Ptr) :
    minheap.removeFromHeap capacity whenToFire pTimer =
      if minheap.heap 0 = some pTimer then
        (minheap.removeAtIndex capacity whenToFire 0).map (Result.OK, ·)
      else if minheap.heap 1 = some pTimer then
        (minheap.removeAtIndex capacity whenToFire 1).map (Result.OK, ·)
      else some (.ERROR, minheap) := by
  have noChild : ∀ index, ¬ index < minheap.numberOfTimersBeingManaged - 1 := by omega
  have goesOn : ¬ minheap.numberOfTimersBeingManaged < 2 * 0 + 1 := by omega
  have stops : minheap.numberOfTimersBeingManaged < 2 * (0 + 1) + 1 := by omega
  rw [removeFromHeap, removeSpecificFromIndex_eq (by omega) (by omega) (by omega),
    removeSpecificFromIndex_eq (by omega) (by omega) (by omega)]
  simp only [noChild, false_and, ↓reduceIte, goesOn, stops, Nat.zero_add]

omit [DecidableEq Ptr] in
/-- Filling the stale slot one moves the only timer out of the heap. -/
theorem removeAtIndex_stale (single : minheap.numberOfTimersBeingManaged = 1)
    (room : 2 ≤ capacity) (filled : minheap.Filled minheap.numberOfTimersBeingManaged) :
    minheap.removeAtIndex capacity whenToFire 1 =
      some ⟨Function.update minheap.heap 1 (minheap.heap 0), 0⟩ := by
  let moved : TimerMinHeap Ptr := ⟨Function.update minheap.heap 1 (minheap.heap 0), 0⟩
  have holds : (moved.heap 1).isSome := by
    simp only [moved, Function.update_self]
    exact filled 0 (by omega)
  obtain ⟨time, read, _⟩ := firingTime_eq whenToFire (show 1 < capacity by omega) holds
  simp only [moved] at read
  rw [removeAtIndex, predUINT32_of_pos (by omega), single, slot_eq (by omega),
    Option.bind_eq_bind, Option.bind_some, setSlot_eq (by omega), Option.bind_eq_bind,
    Option.bind_some]
  dsimp only
  rw [predUINT32_of_pos (by omega), single, downHeapifyFromIndex]
  simp only [read, Option.bind_eq_bind, Option.bind_some, Nat.not_lt_zero, ↓reduceIte,
    Nat.reduceMul, Nat.reduceAdd, Nat.reduceLeDiff, Nat.zero_le, true_or, ↓reduceDIte, Nat.sub_self]

variable (whenToFire) in
/-- A removal leaves the array only with no timer left and a stale pointer to the
timer in one of the first three slots. -/
theorem removeFromHeap_isSome {pTimer : Ptr}
    (room : minheap.numberOfTimersBeingManaged ≤ capacity) (three : 3 ≤ capacity)
    (representable : capacity < 2 ^ 32)
    (filled : minheap.Filled minheap.numberOfTimersBeingManaged) :
    (minheap.removeFromHeap capacity whenToFire pTimer).isSome ↔
      (minheap.numberOfTimersBeingManaged = 0 → ∀ index < 3, minheap.heap index ≠ some pTimer) := by
  have taken : ∀ index < minheap.numberOfTimersBeingManaged,
      ((minheap.removeAtIndex capacity whenToFire index).map (Result.OK, ·)).isSome := by
    intro index bound
    obtain ⟨remaining, found, _⟩ := removeAtIndex_eq whenToFire bound room filled
    rw [found]
    rfl
  rcases Nat.eq_zero_or_pos minheap.numberOfTimersBeingManaged with none | positive
  · rw [removeFromHeap_of_zero none three representable]
    simp only [none, forall_const]
    split_ifs with stale
    · refine iff_of_false (by simp only [Option.isSome_none, Bool.false_eq_true, not_false_eq_true])
        fun absent => ?_
      rcases stale with holds | holds | holds
      · exact absent 0 (by omega) holds
      · exact absent 1 (by omega) holds
      · exact absent 2 (by omega) holds
    · refine iff_of_true rfl fun index below holds => stale ?_
      have cases : index = 0 ∨ index = 1 ∨ index = 2 := by omega
      rcases cases with rfl | rfl | rfl
      · exact Or.inl holds
      · exact Or.inr (Or.inl holds)
      · exact Or.inr (Or.inr holds)
  · refine iff_of_true ?_ fun none => absurd none (by omega)
    rcases Nat.lt_or_ge minheap.numberOfTimersBeingManaged 2 with few | many
    · have single : minheap.numberOfTimersBeingManaged = 1 := by omega
      rw [removeFromHeap_of_one single (by omega)]
      split_ifs with top stale
      · exact taken 0 positive
      · rw [removeAtIndex_stale single (by omega) filled]
        rfl
      · rfl
    · rcases removeSpecificFromIndex_search whenToFire many room (Nat.zero_le _)
          pTimer with ⟨index, bound, _, _, found⟩ | ⟨missed, _⟩
      · rw [removeFromHeap, found]
        exact taken index bound
      · rw [removeFromHeap, missed]
        rfl

/-- Every removal that stays inside the array ends in one of the three ways. -/
theorem removeFromHeap_removal {pTimer : Ptr} {result : Result} {after : TimerMinHeap Ptr}
    (room : minheap.numberOfTimersBeingManaged ≤ capacity) (three : 3 ≤ capacity)
    (representable : capacity < 2 ^ 32)
    (filled : minheap.Filled minheap.numberOfTimersBeingManaged)
    (ran : minheap.removeFromHeap capacity whenToFire pTimer = some (result, after)) :
    Removal pTimer minheap result after := by
  have taken : ∀ index < minheap.numberOfTimersBeingManaged,
      minheap.heap index = some pTimer →
      (index + 1 < minheap.numberOfTimersBeingManaged ∨
        minheap.numberOfTimersBeingManaged < 4) →
      (minheap.removeAtIndex capacity whenToFire index).map (Result.OK, ·) = some (result, after) →
      Removal pTimer minheap result after := by
    intro index bound holds within removed
    obtain ⟨remaining, found, rearranged⟩ := removeAtIndex_eq whenToFire bound room filled
    rw [found, Option.map_some, Option.some.injEq, Prod.mk.injEq] at removed
    obtain ⟨rfl, rfl⟩ := removed
    have count : remaining.numberOfTimersBeingManaged = minheap.numberOfTimersBeingManaged - 1 :=
      rearranged.count
    refine .removed remaining ⟨index, bound, holds, within⟩ (by omega) ?_
    rw [← holds]
    exact contents_of_vacated bound rearranged
  rcases Nat.lt_or_ge minheap.numberOfTimersBeingManaged 2 with few | many
  · rcases Nat.eq_zero_or_pos minheap.numberOfTimersBeingManaged with none | positive
    · have inside := (removeFromHeap_isSome whenToFire room three representable filled).mp
        (Option.isSome_iff_exists.mpr ⟨_, ran⟩)
      rw [removeFromHeap_of_zero none three representable] at ran
      split_ifs at ran with stale
      rw [Option.some.injEq, Prod.mk.injEq] at ran
      obtain ⟨rfl, rfl⟩ := ran
      exact .missed (by omega) (by omega) (by omega) inside
    · have single : minheap.numberOfTimersBeingManaged = 1 := by omega
      rw [removeFromHeap_of_one single (by omega)] at ran
      split_ifs at ran with top stale
      · exact taken 0 positive top (by omega) ran
      · rw [removeAtIndex_stale single (by omega) filled, Option.map_some, Option.some.injEq,
          Prod.mk.injEq] at ran
        obtain ⟨rfl, rfl⟩ := ran
        exact .dropped _ single top stale rfl
      · rw [Option.some.injEq, Prod.mk.injEq] at ran
        obtain ⟨rfl, rfl⟩ := ran
        refine .missed (by omega) (fun index last holds => ?_) (fun _ => stale) (by omega)
        obtain rfl : index = 0 := by omega
        exact absurd holds top
  · rcases removeSpecificFromIndex_search whenToFire many room (Nat.zero_le _)
        pTimer with ⟨index, bound, holds, within, found⟩ | ⟨missed, compared⟩
    · rw [removeFromHeap, found] at ran
      exact taken index bound holds within ran
    · rw [removeFromHeap, missed, Option.some.injEq, Prod.mk.injEq] at ran
      obtain ⟨rfl, rfl⟩ := ran
      refine .missed (fun index inside holds => ?_) (fun index last holds => ?_)
        (fun single => absurd single (by omega)) (by omega)
      · rcases Nat.eq_zero_or_pos index with rfl | positive
        · exact (compared 0 le_rfl (Nat.zero_le _)).1 holds
        · have child : index = 2 * ((index - 1) / 2) + 1 ∨ index = 2 * ((index - 1) / 2) + 2 := by
            omega
          exact (compared ((index - 1) / 2) (Nat.zero_le _) (by omega)).2 index child
            (by omega) holds
      · by_contra fewer
        exact (compared index (Nat.zero_le _) (by omega)).1 holds

end Operations

end TimerMinHeap

end TimerAndCallback
