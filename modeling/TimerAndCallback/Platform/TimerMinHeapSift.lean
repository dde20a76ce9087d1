import TimerAndCallback.Platform.TimerMinHeap

/-! # What the sifts do to the slots

Both sifts only exchange slots, so they rearrange a prefix of the array and leave
the rest alone, whatever order the firing times are in. Neither fails while the
slots it may read hold timers.
-/

namespace TimerAndCallback

namespace TimerMinHeap

open SlotEntries HeapOrder

variable {Ptr : Type}

/-- Every slot below `bound` holds a timer. -/
def Filled (bound : Nat) (minheap : TimerMinHeap Ptr) : Prop :=
  ∀ index < bound, (minheap.heap index).isSome

/-- Fewer slots of a filled heap are filled. -/
theorem Filled.mono {bound fewer : Nat} {minheap : TimerMinHeap Ptr}
    (filled : minheap.Filled bound) (le : fewer ≤ bound) : minheap.Filled fewer :=
  fun index below => filled index (by omega)

/-- The firing time of the timer in a slot, as an integer. -/
def keyAt (whenToFire : Ptr → UInt64) (minheap : TimerMinHeap Ptr) (index : Nat) : Nat :=
  ((minheap.heap index).elim 0 whenToFire).toNat

/-- The key of a slot is the firing time of its timer. -/
theorem keyAt_of_eq_some {whenToFire : Ptr → UInt64} {minheap : TimerMinHeap Ptr} {index : Nat}
    {timer : Ptr} (holds : minheap.heap index = some timer) :
    minheap.keyAt whenToFire index = (whenToFire timer).toNat := by
  unfold keyAt
  rw [holds, Option.elim_some]

/-- A swap exchanges two slots. -/
theorem swap_heap (minheap : TimerMinHeap Ptr) (first second : Nat) :
    (minheap.swap first second).heap = minheap.heap ∘ Equiv.swap first second := by
  funext index
  simp only [swap, Function.comp_apply, Equiv.swap_apply_def, Function.update_apply]
  split_ifs <;> simp_all only

/-- A swap exchanges the keys of two slots. -/
theorem keyAt_swap (whenToFire : Ptr → UInt64) (minheap : TimerMinHeap Ptr)
    (first second : Nat) : (minheap.swap first second).keyAt whenToFire =
      minheap.keyAt whenToFire ∘ Equiv.swap first second := by
  funext index
  simp only [keyAt, swap_heap, Function.comp_apply]

/-- A swap of filled slots leaves the heap filled. -/
theorem Filled.swap {bound first second : Nat} {minheap : TimerMinHeap Ptr}
    (filled : minheap.Filled bound) (firstBound : first < bound) (secondBound : second < bound) :
    (minheap.swap first second).Filled bound := by
  intro index below
  rw [swap_heap, Function.comp_apply, Equiv.swap_apply_def]
  split_ifs
  · exact filled second secondBound
  · exact filled first firstBound
  · exact filled index below

/-- The slots below `bound` hold the same timers in some order, and nothing else
changed. -/
structure Rearranged (bound : Nat) (before after : TimerMinHeap Ptr) : Prop where
  count : after.numberOfTimersBeingManaged = before.numberOfTimersBeingManaged
  outside : ∀ index, bound ≤ index → after.heap index = before.heap index
  inside : entries bound after.heap = entries bound before.heap

/-- A heap is a rearrangement of itself. -/
theorem Rearranged.refl (bound : Nat) (minheap : TimerMinHeap Ptr) :
    Rearranged bound minheap minheap := ⟨rfl, fun _ _ => rfl, rfl⟩

/-- Two rearrangements in a row. -/
theorem Rearranged.trans {bound : Nat} {first second third : TimerMinHeap Ptr}
    (front : Rearranged bound first second) (back : Rearranged bound second third) :
    Rearranged bound first third where
  count := back.count.trans front.count
  outside index past := (back.outside index past).trans (front.outside index past)
  inside := back.inside.trans front.inside

/-- A rearrangement of the slots below a bound is one below any larger bound. -/
theorem Rearranged.mono {bound wider : Nat} {before after : TimerMinHeap Ptr}
    (rearranged : Rearranged bound before after) (le : bound ≤ wider) :
    Rearranged wider before after where
  count := rearranged.count
  outside index past := rearranged.outside index (by omega)
  inside := by
    induction wider, le using Nat.le_induction with
    | base => exact rearranged.inside
    | succ wider le ih => rw [entries_succ, entries_succ, ih, rearranged.outside wider le]

/-- A swap below the bound is a rearrangement. -/
theorem rearranged_swap {bound first second : Nat} (minheap : TimerMinHeap Ptr)
    (firstBound : first < bound) (secondBound : second < bound) :
    Rearranged bound minheap (minheap.swap first second) where
  count := rfl
  outside index past := by
    rw [swap_heap, Function.comp_apply, Equiv.swap_apply_of_ne_of_ne (by omega) (by omega)]
  inside := by rw [swap_heap, entries_swap firstBound secondBound]

section Operations

variable {capacity : Nat} {whenToFire : Ptr → UInt64} {minheap : TimerMinHeap Ptr}

/-- A slot within the array can be read. -/
theorem slot_eq {index : Nat} (bound : index < capacity) :
    minheap.slot capacity index = some (minheap.heap index) := if_pos bound

/-- A slot within the array can be written. -/
theorem setSlot_eq {index : Nat} (bound : index < capacity) (pTimer : Option Ptr) :
    minheap.setSlot capacity index pTimer =
      some { minheap with heap := Function.update minheap.heap index pTimer } := if_pos bound

variable (whenToFire) in
/-- The firing time in a filled slot can be read and is its key. -/
theorem firingTime_eq {index : Nat} (bound : index < capacity)
    (holds : (minheap.heap index).isSome) :
    ∃ time, minheap.firingTime capacity whenToFire index = some time ∧
      time.toNat = minheap.keyAt whenToFire index := by
  obtain ⟨timer, found⟩ := Option.isSome_iff_exists.mp holds
  refine ⟨whenToFire timer, ?_, (keyAt_of_eq_some found).symm⟩
  rw [firingTime, slot_eq bound, Option.bind_some, found, Option.map_some]

/-- One turn of the upward loop, when the slots it reads hold timers. -/
theorem upHeapifyFromIndex_eq {index : Nat} (bound : index < capacity)
    (filled : minheap.Filled (index + 1)) :
    minheap.upHeapifyFromIndex capacity whenToFire index =
      if minheap.keyAt whenToFire (parent index) < minheap.keyAt whenToFire index then some minheap
      else if parent index = 0 then some (minheap.swap index (parent index))
      else (minheap.swap index (parent index)).upHeapifyFromIndex capacity whenToFire
        (parent index) := by
  have above : (index - 1) / 2 ≤ index := by omega
  obtain ⟨parentTime, parentRead, parentKey⟩ :=
    firingTime_eq whenToFire (lt_of_le_of_lt above bound) (filled _ (by omega))
  obtain ⟨indexTime, indexRead, indexKey⟩ :=
    firingTime_eq whenToFire bound (filled index (by omega))
  rw [upHeapifyFromIndex]
  simp only [parentRead, indexRead, Option.bind_eq_bind, Option.bind_some, uint64LT_iff, parentKey,
    indexKey, dite_eq_ite]
  rfl

/-- The upward loop leaves the count alone, whatever the slots hold. -/
theorem upHeapifyFromIndex_count {index : Nat} {after : TimerMinHeap Ptr}
    (ran : minheap.upHeapifyFromIndex capacity whenToFire index = some after) :
    after.numberOfTimersBeingManaged = minheap.numberOfTimersBeingManaged := by
  induction index using Nat.strongRecOn generalizing minheap with
  | ind index ih =>
      rw [upHeapifyFromIndex] at ran
      obtain ⟨parentTime, _, ran⟩ := Option.bind_eq_some_iff.mp ran
      obtain ⟨indexTime, _, ran⟩ := Option.bind_eq_some_iff.mp ran
      split_ifs at ran with settled top
      · cases ran
        rfl
      · cases ran
        rfl
      · have counted := ih ((index - 1) / 2) (by omega) ran
        exact counted

/-- One turn of the downward loop, when the slots up to and including the first
stale one hold timers. -/
theorem downHeapifyFromIndex_eq {index : Nat}
    (room : minheap.numberOfTimersBeingManaged < capacity)
    (filled : minheap.Filled (minheap.numberOfTimersBeingManaged + 1))
    (bound : index ≤ minheap.numberOfTimersBeingManaged) :
    minheap.downHeapifyFromIndex capacity whenToFire index =
      if minheap.numberOfTimersBeingManaged ≤ 2 * index + 2 then some minheap
      else if minheap.keyAt whenToFire (2 * index + 1) < minheap.keyAt whenToFire index ∨
          minheap.keyAt whenToFire (2 * index + 2) < minheap.keyAt whenToFire index then
        if minheap.keyAt whenToFire (2 * index + 1) <
            minheap.keyAt whenToFire (2 * index + 2) then
          (minheap.swap (2 * index + 1) index).downHeapifyFromIndex capacity whenToFire
            (2 * index + 1)
        else
          (minheap.swap (2 * index + 2) index).downHeapifyFromIndex capacity whenToFire
            (2 * index + 2)
      else some minheap := by
  have readable : ∀ other ≤ minheap.numberOfTimersBeingManaged, ∃ time,
      minheap.firingTime capacity whenToFire other = some time ∧
        time.toNat = minheap.keyAt whenToFire other :=
    fun other le => firingTime_eq whenToFire (by omega) (filled other (by omega))
  obtain ⟨indexTime, indexRead, indexKey⟩ := readable index bound
  rw [downHeapifyFromIndex]
  simp only [indexRead, Option.bind_eq_bind, Option.bind_some]
  by_cases exits : minheap.numberOfTimersBeingManaged ≤ 2 * index + 2
  · have stops : minheap.numberOfTimersBeingManaged ≤ 2 * index + 1 ∨
        minheap.numberOfTimersBeingManaged ≤ 2 * index + 1 + 1 := Or.inr exits
    rw [if_pos exits]
    by_cases leftInside : 2 * index + 1 < minheap.numberOfTimersBeingManaged
    · obtain ⟨leftTime, leftRead, _⟩ := readable (2 * index + 1) (by omega)
      by_cases rightInside : 2 * index + 1 + 1 ≤ minheap.numberOfTimersBeingManaged
      · obtain ⟨rightTime, rightRead, _⟩ := readable (2 * index + 1 + 1) rightInside
        simp only [leftInside, rightInside, ↓reduceIte, leftRead, rightRead, Option.bind_some,
          stops, ↓reduceDIte]
      · simp only [leftInside, rightInside, ↓reduceIte, leftRead, Option.bind_some,
          stops, ↓reduceDIte]
    · have rightOutside : ¬ 2 * index + 1 + 1 ≤ minheap.numberOfTimersBeingManaged := by omega
      simp only [leftInside, rightOutside, ↓reduceIte, stops, ↓reduceDIte]
  · have inside : ¬ (minheap.numberOfTimersBeingManaged ≤ 2 * index + 1 ∨
        minheap.numberOfTimersBeingManaged ≤ 2 * index + 1 + 1) := by omega
    have leftInside : 2 * index + 1 < minheap.numberOfTimersBeingManaged := by omega
    have rightInside : 2 * index + 1 + 1 ≤ minheap.numberOfTimersBeingManaged := by omega
    obtain ⟨leftTime, leftRead, leftKey⟩ := readable (2 * index + 1) (by omega)
    obtain ⟨rightTime, rightRead, rightKey⟩ := readable (2 * index + 1 + 1) rightInside
    rw [if_neg exits]
    simp only [leftInside, rightInside, ↓reduceIte, leftRead, rightRead, Option.bind_some, inside,
      ↓reduceDIte, Bool.or_eq_true, uint64LT_iff, indexKey, leftKey, rightKey]

variable (whenToFire) in
/-- The upward loop succeeds and rearranges the slots up to where it starts. -/
theorem upHeapifyFromIndex_rearranged {index : Nat} (positive : 0 < index)
    (bound : index < capacity) (filled : minheap.Filled (index + 1)) :
    ∃ after, minheap.upHeapifyFromIndex capacity whenToFire index = some after ∧
      Rearranged (index + 1) minheap after := by
  induction index using Nat.strongRecOn generalizing minheap with
  | ind index ih =>
      have above := parent_lt positive
      have exchanged := rearranged_swap minheap (by omega : index < index + 1)
        (by omega : parent index < index + 1)
      rw [upHeapifyFromIndex_eq bound filled]
      split_ifs with settled top
      · exact ⟨minheap, rfl, Rearranged.refl _ _⟩
      · exact ⟨_, rfl, exchanged⟩
      · have exchangedFilled := filled.swap (by omega : index < index + 1)
          (by omega : parent index < index + 1)
        obtain ⟨after, ran, rearranged⟩ := ih (parent index) above (Nat.pos_of_ne_zero top)
          (by omega) (exchangedFilled.mono (by omega))
        exact ⟨after, ran, exchanged.trans (rearranged.mono (by omega))⟩

/-- The upward loop stays within the slots up to where it starts: an array of any size
that has them serves. -/
theorem upHeapifyFromIndex_congr {index wider : Nat} (bound : index < capacity)
    (wide : index < wider) (filled : minheap.Filled (index + 1)) :
    minheap.upHeapifyFromIndex capacity whenToFire index =
      minheap.upHeapifyFromIndex wider whenToFire index := by
  induction index using Nat.strongRecOn generalizing minheap with
  | ind index ih =>
      rw [upHeapifyFromIndex_eq bound filled, upHeapifyFromIndex_eq wide filled]
      refine if_congr Iff.rfl rfl (ite_congr rfl (fun _ => rfl) fun top => ?_)
      have above : parent index < index := by
        unfold parent at top ⊢
        omega
      have exchanged := filled.swap (by omega : index < index + 1)
        (by omega : parent index < index + 1)
      exact ih (parent index) above (by omega) (by omega) (exchanged.mono (by omega))

variable (whenToFire) in
/-- The downward loop succeeds and rearranges the slots below the count. -/
theorem downHeapifyFromIndex_rearranged {index : Nat}
    (room : minheap.numberOfTimersBeingManaged < capacity)
    (filled : minheap.Filled (minheap.numberOfTimersBeingManaged + 1))
    (bound : index ≤ minheap.numberOfTimersBeingManaged) :
    ∃ after, minheap.downHeapifyFromIndex capacity whenToFire index = some after ∧
      Rearranged minheap.numberOfTimersBeingManaged minheap after := by
  induction remaining : minheap.numberOfTimersBeingManaged - index using Nat.strongRecOn
    generalizing minheap index with
  | ind remaining ih =>
      have descends : ∀ child, index < child → child < minheap.numberOfTimersBeingManaged →
          ∃ after, (minheap.swap child index).downHeapifyFromIndex capacity whenToFire child =
            some after ∧ Rearranged minheap.numberOfTimersBeingManaged minheap after := by
        intro child below inside
        have exchangedRoom : (minheap.swap child index).numberOfTimersBeingManaged < capacity :=
          room
        have exchangedFilled := filled.swap (by omega : child < _) (by omega : index < _)
        obtain ⟨after, ran, rearranged⟩ :=
          ih (minheap.numberOfTimersBeingManaged - child) (by omega) exchangedRoom exchangedFilled
            (Nat.le_of_lt inside) rfl
        exact ⟨after, ran, (rearranged_swap minheap inside (by omega)).trans rearranged⟩
      rw [downHeapifyFromIndex_eq room filled bound]
      split_ifs with exits smaller left
      · exact ⟨minheap, rfl, Rearranged.refl _ _⟩
      · exact descends _ (by omega) (by omega)
      · exact descends _ (by omega) (by omega)
      · exact ⟨minheap, rfl, Rearranged.refl _ _⟩

end Operations

end TimerMinHeap

end TimerAndCallback
