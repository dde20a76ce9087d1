import TimerAndCallback.Platform.TimerMinHeapChange
import TimerAndCallback.Foundation.EventLog

/-! # What a removal reads and writes

The operations that remove a timer, with every access to the array, every firing time
that is read and every activation of the search logged. Apart from the log they are the
operations of the heap. A removal of a timer that is in the heap stays within the slots
below the count, although the downward loop reads one slot past the count it has just
decremented: that is the slot the last timer was in.
-/

namespace TimerAndCallback

namespace TimerMinHeap

open SlotEntries HeapOrder Logged

variable {Ptr : Type}

/-- What is logged. -/
inductive Access (Ptr : Type)
  | readSlot (index : Nat)
  | writeSlot (index : Nat)
  | getWhenToFire (pTimer : Ptr)
  | removeSpecificFromIndex (index : Nat)

/-- An activation of the search. -/
def Access.isActivation : Access Ptr → Bool
  | .removeSpecificFromIndex _ => true
  | _ => false

/-- An access to a slot below a bound, or to the firing time of one of the timers given. -/
def Access.Within (bound : Nat) (timers : Multiset (Option Ptr)) : Access Ptr → Prop
  | .readSlot index => index < bound
  | .writeSlot index => index < bound
  | .getWhenToFire pTimer => some pTimer ∈ timers
  | .removeSpecificFromIndex _ => False

/-- What a removal may do: activate the search, or stay within the timers it started from. -/
def Access.Inside (minheap : TimerMinHeap Ptr) (access : Access Ptr) : Prop :=
  access.isActivation = true ∨
    access.Within minheap.numberOfTimersBeingManaged minheap.contents

namespace Accessed

section Operations

variable (capacity : Nat) (whenToFire : Ptr → UInt64)

/-- `minheap [index]`. -/
def slot (minheap : TimerMinHeap Ptr) (index : Nat) : Logged (Access Ptr) (Option Ptr) :=
  ⟨minheap.slot capacity index, [.readSlot index]⟩

/-- `minheap [index] = pTimer`. -/
def setSlot (minheap : TimerMinHeap Ptr) (index : Nat) (pTimer : Option Ptr) :
    Logged (Access Ptr) (TimerMinHeap Ptr) :=
  ⟨minheap.setSlot capacity index pTimer, [.writeSlot index]⟩

/-- `minheap [index]->getWhenToFire ()`. -/
def firingTime (minheap : TimerMinHeap Ptr) (index : Nat) : Logged (Access Ptr) UInt64 := do
  let pTimer ← slot capacity minheap index
  match pTimer with
  | none => ⟨none, []⟩
  | some pTimer => ⟨some (whenToFire pTimer), [.getWhenToFire pTimer]⟩

/-- The exchange of two slots through `tmp`. -/
def swapAccesses (index parent : Nat) : List (Access Ptr) :=
  [.readSlot index, .readSlot parent, .writeSlot index, .writeSlot parent]

/-- `downHeapifyFromIndex`. -/
def downHeapifyFromIndex (minheap : TimerMinHeap Ptr) (parent : Nat) :
    Logged (Access Ptr) (TimerMinHeap Ptr) := do
  let left := 2 * parent + 1
  let right := left + 1
  let parentFiringTime ← firingTime capacity whenToFire minheap parent
  let leftFiringTime ←
    if left < minheap.numberOfTimersBeingManaged then firingTime capacity whenToFire minheap left
    else pure 0
  let rightFiringTime ←
    if right ≤ minheap.numberOfTimersBeingManaged then firingTime capacity whenToFire minheap right
    else pure 0
  if _exit : minheap.numberOfTimersBeingManaged ≤ left ∨
      minheap.numberOfTimersBeingManaged ≤ right then
    pure minheap
  else if uint64LT leftFiringTime parentFiringTime || uint64LT rightFiringTime parentFiringTime then
    if uint64LT leftFiringTime rightFiringTime then do
      emit (swapAccesses left parent)
      downHeapifyFromIndex (minheap.swap left parent) left
    else do
      emit (swapAccesses right parent)
      downHeapifyFromIndex (minheap.swap right parent) right
  else
    pure minheap
termination_by minheap.numberOfTimersBeingManaged - parent
decreasing_by
  all_goals
    simp only [swap]
    omega

/-- What each of the three branches of the search does with the slot it found. -/
def removeAtIndex (minheap : TimerMinHeap Ptr) (index : Nat) :
    Logged (Access Ptr) (TimerMinHeap Ptr) := do
  let last ← slot capacity minheap (predUINT32 minheap.numberOfTimersBeingManaged)
  let minheap ← setSlot capacity minheap index last
  downHeapifyFromIndex capacity whenToFire
    { minheap with
      numberOfTimersBeingManaged := predUINT32 minheap.numberOfTimersBeingManaged } index

variable [DecidableEq Ptr]

/-- `(index < bound) && (minheap [index] == pTimer)`. -/
def matchesBelow (minheap : TimerMinHeap Ptr) (bound index : Nat) (pTimer : Ptr) :
    Logged (Access Ptr) Bool :=
  if index < bound then do
    let found ← slot capacity minheap index
    pure (decide (found = some pTimer))
  else
    pure false

/-- `removeSpecificFromIndex`. -/
def removeSpecificFromIndex (minheap : TimerMinHeap Ptr) (pTimer : Ptr) (parent : Nat) :
    Logged (Access Ptr) (Result × TimerMinHeap Ptr) := do
  emit [.removeSpecificFromIndex parent]
  let left := parent * 2 + 1
  let right := left + 1
  let numberOfTimers := minheap.numberOfTimersBeingManaged
  let found ← slot capacity minheap parent
  if found = some pTimer then do
    let minheap ← removeAtIndex capacity whenToFire minheap parent
    pure (.OK, minheap)
  else if ← matchesBelow capacity minheap (predUINT32 numberOfTimers) left pTimer then do
    let minheap ← removeAtIndex capacity whenToFire minheap left
    pure (.OK, minheap)
  else if ← matchesBelow capacity minheap (predUINT32 numberOfTimers) right pTimer then do
    let minheap ← removeAtIndex capacity whenToFire minheap right
    pure (.OK, minheap)
  else if _stop : numberOfTimers < left then
    pure (.ERROR, minheap)
  else
    removeSpecificFromIndex minheap pTimer (parent + 1)
termination_by minheap.numberOfTimersBeingManaged - parent
decreasing_by omega

/-- `removeFromHeap`. -/
def removeFromHeap (minheap : TimerMinHeap Ptr) (pTimer : Ptr) :
    Logged (Access Ptr) (Result × TimerMinHeap Ptr) :=
  removeSpecificFromIndex capacity whenToFire minheap pTimer 0

end Operations

section Outcomes

variable {capacity : Nat} {whenToFire : Ptr → UInt64} {minheap : TimerMinHeap Ptr}

@[simp] theorem outcome_slot (index : Nat) :
    (slot capacity minheap index).outcome = minheap.slot capacity index := rfl

@[simp] theorem outcome_setSlot (index : Nat) (pTimer : Option Ptr) :
    (setSlot capacity minheap index pTimer).outcome = minheap.setSlot capacity index pTimer := rfl

@[simp] theorem outcome_firingTime (index : Nat) :
    (firingTime capacity whenToFire minheap index).outcome =
      minheap.firingTime capacity whenToFire index := by
  unfold firingTime TimerMinHeap.firingTime
  rw [outcome_bind, outcome_slot]
  refine congrArg (Option.bind _) (funext fun pTimer => ?_)
  cases pTimer <;> rfl

/-- Apart from the log the downward loop is the one of the heap. -/
theorem outcome_downHeapifyFromIndex (parent : Nat) :
    (downHeapifyFromIndex capacity whenToFire minheap parent).outcome =
      minheap.downHeapifyFromIndex capacity whenToFire parent := by
  induction remaining : minheap.numberOfTimersBeingManaged - parent using Nat.strongRecOn
    generalizing minheap parent with
  | ind remaining ih =>
      rw [downHeapifyFromIndex, TimerMinHeap.downHeapifyFromIndex]
      simp only [outcome_bind, outcome_firingTime, Option.bind_eq_bind]
      refine congrArg (Option.bind _) (funext fun parentTime => ?_)
      by_cases exits : minheap.numberOfTimersBeingManaged ≤ 2 * parent + 1 ∨
          minheap.numberOfTimersBeingManaged ≤ 2 * parent + 1 + 1
      · simp only [exits, ↓reduceDIte, apply_ite outcome, outcome_bind, outcome_firingTime,
          outcome_pure, Option.bind_some]
      · have leftInside : 2 * parent + 1 < minheap.numberOfTimersBeingManaged := by omega
        have rightInside : 2 * parent + 1 + 1 ≤ minheap.numberOfTimersBeingManaged := by omega
        have descends : ∀ child, parent < child → child < minheap.numberOfTimersBeingManaged →
            (do
              emit (swapAccesses child parent)
              downHeapifyFromIndex capacity whenToFire (minheap.swap child parent) child).outcome =
            (minheap.swap child parent).downHeapifyFromIndex capacity whenToFire child :=
          fun child below inside => ih (minheap.numberOfTimersBeingManaged - child) (by omega)
            child rfl
        simp only [exits, leftInside, rightInside, ↓reduceIte, ↓reduceDIte, outcome_bind,
          outcome_firingTime]
        refine congrArg (Option.bind _) (funext fun leftTime => ?_)
        refine congrArg (Option.bind _) (funext fun rightTime => ?_)
        split_ifs with smaller left
        · exact descends _ (by omega) (by omega)
        · exact descends _ (by omega) (by omega)
        · rfl

@[simp] theorem outcome_removeAtIndex (index : Nat) :
    (removeAtIndex capacity whenToFire minheap index).outcome =
      minheap.removeAtIndex capacity whenToFire index := by
  unfold removeAtIndex TimerMinHeap.removeAtIndex
  simp only [outcome_bind, outcome_slot, outcome_setSlot, outcome_downHeapifyFromIndex]
  rfl

variable [DecidableEq Ptr]

@[simp] theorem outcome_matchesBelow (bound index : Nat) (pTimer : Ptr) :
    (matchesBelow capacity minheap bound index pTimer).outcome =
      minheap.matchesBelow capacity bound index pTimer := by
  unfold matchesBelow TimerMinHeap.matchesBelow
  split_ifs with inside
  · rw [outcome_bind, outcome_slot]
    exact (Option.map_eq_bind).symm
  · rfl

/-- Apart from the log the search is the one of the heap. -/
theorem outcome_removeSpecificFromIndex (pTimer : Ptr) (parent : Nat) :
    (removeSpecificFromIndex capacity whenToFire minheap pTimer parent).outcome =
      minheap.removeSpecificFromIndex capacity whenToFire pTimer parent := by
  induction remaining : minheap.numberOfTimersBeingManaged - parent using Nat.strongRecOn
    generalizing parent with
  | ind remaining ih =>
      have found : ∀ index, (do
            let minheap ← removeAtIndex capacity whenToFire minheap index
            pure (Result.OK, minheap) : Logged (Access Ptr) _).outcome =
          (minheap.removeAtIndex capacity whenToFire index).map (Result.OK, ·) := by
        intro index
        rw [outcome_bind, outcome_removeAtIndex]
        exact (Option.map_eq_bind).symm
      rw [removeSpecificFromIndex, TimerMinHeap.removeSpecificFromIndex]
      simp only [outcome_bind, outcome_emit, outcome_slot, Option.bind_eq_bind, Option.bind_some]
      refine congrArg (Option.bind _) (funext fun held => ?_)
      refine (apply_ite outcome _ _ _).trans (if_congr Iff.rfl (found parent) ?_)
      rw [outcome_bind, outcome_matchesBelow]
      refine congrArg (Option.bind _) (funext fun onLeft => ?_)
      refine (apply_ite outcome _ _ _).trans (if_congr Iff.rfl (found (parent * 2 + 1)) ?_)
      rw [outcome_bind, outcome_matchesBelow]
      refine congrArg (Option.bind _) (funext fun onRight => ?_)
      refine (apply_ite outcome _ _ _).trans (if_congr Iff.rfl (found (parent * 2 + 1 + 1)) ?_)
      split_ifs with stop
      · rfl
      · exact ih (minheap.numberOfTimersBeingManaged - (parent + 1)) (by omega) (parent + 1) rfl

/-- `removeFromHeap` with its accesses logged computes what it computes without. -/
theorem outcome_removeFromHeap (pTimer : Ptr) :
    (removeFromHeap capacity whenToFire minheap pTimer).outcome =
      minheap.removeFromHeap capacity whenToFire pTimer :=
  outcome_removeSpecificFromIndex pTimer 0

end Outcomes

section Footprints

private theorem within_footprint {Value : Type} {minheap : TimerMinHeap Ptr}
    {computation : Logged (Access Ptr) Value}
    (within : computation.Only
      (Access.Within minheap.numberOfTimersBeingManaged minheap.contents)) :
    computation.Footprint (Access.Inside minheap) Access.isActivation 0 := by
  refine (within.mono fun access inside => ⟨Or.inr inside, ?_⟩).footprint
  cases access with
  | removeSpecificFromIndex => exact inside.elim
  | _ => rfl

/-- Entering the search is one activation. -/
theorem activation_footprint (minheap : TimerMinHeap Ptr) (parent : Nat) :
    (emit [Access.removeSpecificFromIndex parent]).Footprint (Access.Inside minheap)
      Access.isActivation 1 :=
  ⟨only_emit fun _ member => Or.inl (List.mem_singleton.mp member ▸ rfl), le_rfl⟩

variable {capacity : Nat} {whenToFire : Ptr → UInt64} {minheap : TimerMinHeap Ptr} {bound : Nat}
  {timers : Multiset (Option Ptr)}

private theorem slot_within {index : Nat} (below : index < bound) :
    (slot capacity minheap index).Only (Access.Within bound timers) := by
  intro access member
  cases List.mem_singleton.mp member
  exact below

private theorem setSlot_within {index : Nat} (below : index < bound) (pTimer : Option Ptr) :
    (setSlot capacity minheap index pTimer).Only (Access.Within bound timers) := by
  intro access member
  cases List.mem_singleton.mp member
  exact below

private theorem swapAccesses_within {index parent : Nat} (below : index < bound)
    (parentBelow : parent < bound) :
    (emit (swapAccesses index parent)).Only (Access.Within bound timers) := by
  refine only_emit fun access member => ?_
  simp only [swapAccesses, List.mem_cons, List.not_mem_nil, or_false] at member
  rcases member with rfl | rfl | rfl | rfl
  · exact below
  · exact parentBelow
  · exact below
  · exact parentBelow

private theorem eq_of_slot {index : Nat} {pTimer : Option Ptr}
    (read : minheap.slot capacity index = some pTimer) : minheap.heap index = pTimer :=
  Option.some.inj (Option.ite_none_right_eq_some.mp read).2

private theorem firingTime_within {index : Nat} (below : index < bound)
    (held : minheap.heap index ∈ timers) :
    (firingTime capacity whenToFire minheap index).Only (Access.Within bound timers) := by
  refine (slot_within below).bind fun pTimer read => ?_
  rw [eq_of_slot read] at held
  cases pTimer with
  | none => exact fun access member => absurd member List.not_mem_nil
  | some pTimer =>
      intro access member
      cases List.mem_singleton.mp member
      exact held

/-- The downward loop reads at most one slot past the count. -/
theorem downHeapifyFromIndex_within (fewer : minheap.numberOfTimersBeingManaged < bound)
    (held : ∀ index < bound, minheap.heap index ∈ timers) {parent : Nat} (below : parent < bound) :
    (downHeapifyFromIndex capacity whenToFire minheap parent).Only
      (Access.Within bound timers) := by
  induction remaining : minheap.numberOfTimersBeingManaged - parent using Nat.strongRecOn
    generalizing minheap parent with
  | ind remaining ih =>
      have descends : ∀ child, parent < child → child < minheap.numberOfTimersBeingManaged →
          (do
            emit (swapAccesses child parent)
            downHeapifyFromIndex capacity whenToFire (minheap.swap child parent) child).Only
              (Access.Within bound timers) := by
        intro child further inside
        have exchangedFewer : (minheap.swap child parent).numberOfTimersBeingManaged < bound :=
          fewer
        refine (swapAccesses_within (by omega) below).bind fun _ _ => ?_
        refine ih (minheap.numberOfTimersBeingManaged - child) (by omega) exchangedFewer
          (fun index indexBelow => ?_) (by omega) rfl
        rw [swap_heap, Function.comp_apply, Equiv.swap_apply_def]
        split_ifs
        · exact held parent below
        · exact held child (by omega)
        · exact held index indexBelow
      rw [downHeapifyFromIndex]
      refine (firingTime_within below (held parent below)).bind fun parentTime _ => ?_
      by_cases exits : minheap.numberOfTimersBeingManaged ≤ 2 * parent + 1 ∨
          minheap.numberOfTimersBeingManaged ≤ 2 * parent + 1 + 1
      · simp only [exits, ↓reduceDIte]
        have reads : ∀ index < bound,
            (firingTime capacity whenToFire minheap index).Only (Access.Within bound timers) :=
          fun index indexBelow => firingTime_within indexBelow (held index indexBelow)
        split_ifs with leftInside rightInside rightInside
        · exact (reads _ (by omega)).bind fun _ _ => (reads _ (by omega)).bind fun _ _ =>
            only_pure minheap
        · exact (reads _ (by omega)).bind fun _ _ => (only_pure 0).bind fun _ _ =>
            only_pure minheap
        · omega
        · exact (only_pure 0).bind fun _ _ => (only_pure 0).bind fun _ _ => only_pure minheap
      · have leftInside : 2 * parent + 1 < minheap.numberOfTimersBeingManaged := by omega
        have rightInside : 2 * parent + 1 + 1 ≤ minheap.numberOfTimersBeingManaged := by omega
        simp only [exits, leftInside, rightInside, ↓reduceIte, ↓reduceDIte]
        refine (firingTime_within (by omega) (held _ (by omega))).bind fun leftTime _ => ?_
        refine (firingTime_within (by omega) (held _ (by omega))).bind fun rightTime _ => ?_
        split_ifs with smaller left
        · exact descends _ (by omega) (by omega)
        · exact descends _ (by omega) (by omega)
        · exact only_pure minheap

/-- Removing at an index touches the slots in use and the timers of the heap only. -/
theorem removeAtIndex_within {index : Nat} (inside : index < minheap.numberOfTimersBeingManaged) :
    (removeAtIndex capacity whenToFire minheap index).Only
      (Access.Within minheap.numberOfTimersBeingManaged minheap.contents) := by
  have held : ∀ index < minheap.numberOfTimersBeingManaged,
      minheap.heap index ∈ minheap.contents :=
    fun index below => mem_contents.mpr ⟨index, below, rfl⟩
  unfold removeAtIndex
  rw [predUINT32_of_pos (by omega)]
  refine (slot_within (by omega)).bind fun last read => (setSlot_within inside last).bind ?_
  intro emptied written
  obtain rfl := Option.some.inj (Option.ite_none_right_eq_some.mp written).2
  dsimp only
  rw [predUINT32_of_pos (by omega)]
  refine downHeapifyFromIndex_within (Nat.sub_lt (by omega) Nat.one_pos)
    (fun other below => ?_) inside
  dsimp only
  by_cases same : other = index
  · rw [same, Function.update_self, ← eq_of_slot read]
    exact held _ (by omega)
  · rw [Function.update_of_ne same]
    exact held other below

variable [DecidableEq Ptr]

private theorem matchesBelow_within {below index : Nat} (le : below ≤ bound) (pTimer : Ptr) :
    (matchesBelow capacity minheap below index pTimer).Only (Access.Within bound timers) := by
  unfold matchesBelow
  split_ifs with inside
  · exact (slot_within (by omega)).bind fun _ _ => only_pure _
  · exact only_pure _

private theorem below_of_matches {below index : Nat} {pTimer : Ptr}
    (matched : (matchesBelow capacity minheap below index pTimer).outcome = some true) :
    index < below := by
  by_contra outside
  rw [matchesBelow, if_neg outside] at matched
  cases matched

/-- With two timers or more the search stays below the count, and is activated at most
once for each slot from where it starts. -/
theorem removeSpecificFromIndex_footprint {parent : Nat}
    (many : 2 ≤ minheap.numberOfTimersBeingManaged)
    (reaches : parent ≤ (minheap.numberOfTimersBeingManaged - 1) / 2 + 1) (pTimer : Ptr) :
    (removeSpecificFromIndex capacity whenToFire minheap pTimer parent).Footprint
      (Access.Inside minheap) Access.isActivation
      (minheap.numberOfTimersBeingManaged - parent) := by
  induction remaining : minheap.numberOfTimersBeingManaged - parent using Nat.strongRecOn
    generalizing parent with
  | ind remaining ih =>
      have found : ∀ index < minheap.numberOfTimersBeingManaged, (do
          let minheap ← removeAtIndex capacity whenToFire minheap index
          pure (Result.OK, minheap) : Logged (Access Ptr) _).Footprint
            (Access.Inside minheap) Access.isActivation
            (minheap.numberOfTimersBeingManaged - (parent + 1)) := by
        intro index inside
        refine (within_footprint (removeAtIndex_within inside)).bind_free fun _ _ => ?_
        exact (footprint_pure _).mono (Nat.zero_le _)
      have compares : ∀ index, (matchesBelow capacity minheap
          (minheap.numberOfTimersBeingManaged - 1) index pTimer).Footprint
            (Access.Inside minheap) Access.isActivation 0 :=
        fun index => within_footprint (matchesBelow_within (Nat.sub_le _ 1) pTimer)
      have turn : (removeSpecificFromIndex capacity whenToFire minheap pTimer parent).Footprint
          (Access.Inside minheap) Access.isActivation
          (1 + (minheap.numberOfTimersBeingManaged - (parent + 1))) := by
        have last := predUINT32_of_pos (show 0 < minheap.numberOfTimersBeingManaged by omega)
        rw [removeSpecificFromIndex]
        dsimp only
        rw [last]
        refine (activation_footprint minheap parent).bind fun _ _ => ?_
        refine (within_footprint (slot_within (by omega))).bind_free fun held _ => ?_
        refine Footprint.ite (fun _ => found parent (by omega)) fun _ => ?_
        refine (compares _).bind_free fun onLeft left => ?_
        refine Footprint.ite (fun atLeft => found _ ?_) fun _ => ?_
        · have below := below_of_matches (atLeft ▸ left)
          omega
        refine (compares _).bind_free fun onRight right => ?_
        refine Footprint.ite (fun atRight => found _ ?_) fun _ => ?_
        · have below := below_of_matches (atRight ▸ right)
          omega
        split_ifs with stop
        · exact (footprint_pure _).mono (Nat.zero_le _)
        · exact ih (minheap.numberOfTimersBeingManaged - (parent + 1)) (by omega) (by omega) rfl
      exact turn.mono (by omega)

/-- The search for a timer that is in the heap stays below the count, and is activated at
most once for each timer. -/
theorem removeFromHeap_footprint {pTimer : Ptr}
    (present : ∃ index < minheap.numberOfTimersBeingManaged, minheap.heap index = some pTimer) :
    (removeFromHeap capacity whenToFire minheap pTimer).Footprint (Access.Inside minheap)
      Access.isActivation minheap.numberOfTimersBeingManaged := by
  obtain ⟨index, bound, holds⟩ := present
  rcases Nat.lt_or_ge minheap.numberOfTimersBeingManaged 2 with few | many
  · have single : minheap.numberOfTimersBeingManaged = 1 := by omega
    obtain rfl : index = 0 := by omega
    unfold removeFromHeap
    rw [removeSpecificFromIndex, single]
    change Footprint _ _ (1 + 0) _
    refine (activation_footprint minheap 0).bind fun _ _ => ?_
    refine (within_footprint (slot_within bound)).bind_free fun held read => ?_
    rw [if_pos ((eq_of_slot read).symm.trans holds)]
    exact (within_footprint (removeAtIndex_within bound)).bind_free fun _ _ => footprint_pure _
  · exact removeSpecificFromIndex_footprint many (Nat.zero_le _) pTimer

end Footprints

end Accessed

section Stale

variable {capacity : Nat} {whenToFire : Ptr → UInt64} {one other : TimerMinHeap Ptr} {bound : Nat}

/-- Two heaps have the same count, and the same timers in the slots below a bound. -/
structure AgreeBelow (bound : Nat) (one other : TimerMinHeap Ptr) : Prop where
  count : other.numberOfTimersBeingManaged = one.numberOfTimersBeingManaged
  slots : ∀ index < bound, other.heap index = one.heap index

/-- Heaps that agree below a bound have the same firing times there. -/
theorem AgreeBelow.keyAt (agree : AgreeBelow bound one other) {index : Nat}
    (below : index < bound) :
    other.keyAt whenToFire index = one.keyAt whenToFire index := by
  unfold TimerMinHeap.keyAt
  rw [agree.slots index below]

/-- Heaps that agree below a bound are filled alike. -/
theorem AgreeBelow.filled {fewer : Nat} (agree : AgreeBelow bound one other) (le : fewer ≤ bound)
    (filled : one.Filled fewer) : other.Filled fewer := by
  intro index below
  rw [agree.slots index (by omega)]
  exact filled index below

/-- Agreement below a bound is agreement below a smaller one. -/
theorem AgreeBelow.mono {fewer : Nat} (agree : AgreeBelow bound one other) (le : fewer ≤ bound) :
    AgreeBelow fewer one other :=
  ⟨agree.count, fun index below => agree.slots index (by omega)⟩

/-- A swap below the bound keeps the agreement. -/
theorem AgreeBelow.swap (agree : AgreeBelow bound one other) {first second : Nat}
    (firstBelow : first < bound) (secondBelow : second < bound) :
    AgreeBelow bound (one.swap first second) (other.swap first second) where
  count := agree.count
  slots index below := by
    rw [swap_heap, swap_heap, Function.comp_apply, Function.comp_apply, Equiv.swap_apply_def]
    split_ifs
    · exact agree.slots second secondBelow
    · exact agree.slots first firstBelow
    · exact agree.slots index below

/-- Vacating the same slot keeps the agreement. -/
theorem AgreeBelow.vacated (agree : AgreeBelow one.numberOfTimersBeingManaged one other)
    (hole : Nat) :
    AgreeBelow one.numberOfTimersBeingManaged (one.vacated hole) (other.vacated hole) where
  count := congrArg (· - 1) agree.count
  slots index below := by
    unfold TimerMinHeap.vacated
    dsimp only
    rw [agree.count, agree.slots _ (show one.numberOfTimersBeingManaged - 1 < _ by omega)]
    by_cases same : index = hole
    · rw [same, Function.update_self, Function.update_self]
    · rw [Function.update_of_ne same, Function.update_of_ne same]
      exact agree.slots index below

/-- The downward loop does the same in two heaps that agree up to the slot past the count. -/
theorem downHeapifyFromIndex_agree {index : Nat} (room : one.numberOfTimersBeingManaged < capacity)
    (filled : one.Filled (one.numberOfTimersBeingManaged + 1))
    (inside : index ≤ one.numberOfTimersBeingManaged)
    (agree : AgreeBelow (one.numberOfTimersBeingManaged + 1) one other) :
    Option.Rel (AgreeBelow (one.numberOfTimersBeingManaged + 1))
      (one.downHeapifyFromIndex capacity whenToFire index)
      (other.downHeapifyFromIndex capacity whenToFire index) := by
  induction remaining : one.numberOfTimersBeingManaged - index using Nat.strongRecOn
    generalizing one other index with
  | ind remaining ih =>
      have otherFilled : other.Filled (other.numberOfTimersBeingManaged + 1) := by
        rw [agree.count]
        exact agree.filled le_rfl filled
      have descends : ∀ child, index < child → child < one.numberOfTimersBeingManaged →
          Option.Rel (AgreeBelow (one.numberOfTimersBeingManaged + 1))
            ((one.swap child index).downHeapifyFromIndex capacity whenToFire child)
            ((other.swap child index).downHeapifyFromIndex capacity whenToFire child) := by
        intro child further below
        have exchangedRoom : (one.swap child index).numberOfTimersBeingManaged < capacity := room
        exact ih (one.numberOfTimersBeingManaged - child) (by omega) exchangedRoom
          (filled.swap (by omega : child < _) (by omega : index < _)) (Nat.le_of_lt below)
          (agree.swap (by omega : child < _) (by omega : index < _)) rfl
      rw [downHeapifyFromIndex_eq room filled inside,
        downHeapifyFromIndex_eq (agree.count ▸ room) otherFilled (agree.count ▸ inside),
        agree.count]
      by_cases exits : one.numberOfTimersBeingManaged ≤ 2 * index + 2
      · rw [if_pos exits, if_pos exits]
        exact .some agree
      · rw [if_neg exits, if_neg exits, agree.keyAt (by omega), agree.keyAt (by omega),
          agree.keyAt (by omega)]
        split_ifs with smaller left
        · exact descends _ (by omega) (by omega)
        · exact descends _ (by omega) (by omega)
        · exact .some agree

/-- What removing at an index leaves depends on the slots in use only. -/
theorem removeAtIndex_agree {index : Nat} (inside : index < one.numberOfTimersBeingManaged)
    (room : one.numberOfTimersBeingManaged ≤ capacity)
    (filled : one.Filled one.numberOfTimersBeingManaged)
    (agree : AgreeBelow one.numberOfTimersBeingManaged one other) :
    Option.Rel (AgreeBelow one.numberOfTimersBeingManaged)
      (one.removeAtIndex capacity whenToFire index)
      (other.removeAtIndex capacity whenToFire index) := by
  have fewer : (one.vacated index).numberOfTimersBeingManaged + 1 =
      one.numberOfTimersBeingManaged := Nat.sub_add_cancel (by omega)
  have vacated := agree.vacated index
  rw [removeAtIndex_of_lt inside room,
    removeAtIndex_of_lt (agree.count ▸ inside) (agree.count ▸ room)]
  rw [← fewer] at vacated ⊢
  exact downHeapifyFromIndex_agree (by omega) (filled.vacated inside) (by omega) vacated

/-- Two removals answer the same, and leave heaps that agree. -/
def SameOutcome (bound : Nat) (one other : Result × TimerMinHeap Ptr) : Prop :=
  other.1 = one.1 ∧ AgreeBelow bound one.2 other.2

private theorem removeAtIndex_sameOutcome {index : Nat}
    (inside : index < one.numberOfTimersBeingManaged)
    (room : one.numberOfTimersBeingManaged ≤ capacity)
    (filled : one.Filled one.numberOfTimersBeingManaged)
    (agree : AgreeBelow one.numberOfTimersBeingManaged one other) :
    Option.Rel (SameOutcome one.numberOfTimersBeingManaged)
      ((one.removeAtIndex capacity whenToFire index).map (Result.OK, ·))
      ((other.removeAtIndex capacity whenToFire index).map (Result.OK, ·)) := by
  have agreed : Option.Rel (AgreeBelow one.numberOfTimersBeingManaged)
      (one.removeAtIndex capacity whenToFire index)
      (other.removeAtIndex capacity whenToFire index) :=
    removeAtIndex_agree inside room filled agree
  generalize one.removeAtIndex capacity whenToFire index = first at agreed ⊢
  generalize other.removeAtIndex capacity whenToFire index = second at agreed ⊢
  cases agreed with
  | none => exact .none
  | some both => exact .some ⟨rfl, both⟩

variable [DecidableEq Ptr]

/-- With two timers or more the search does the same in heaps that differ in stale slots. -/
theorem removeSpecificFromIndex_agree {parent : Nat} (many : 2 ≤ one.numberOfTimersBeingManaged)
    (room : one.numberOfTimersBeingManaged ≤ capacity)
    (filled : one.Filled one.numberOfTimersBeingManaged)
    (reaches : parent ≤ (one.numberOfTimersBeingManaged - 1) / 2 + 1)
    (agree : AgreeBelow one.numberOfTimersBeingManaged one other) (pTimer : Ptr) :
    Option.Rel (SameOutcome one.numberOfTimersBeingManaged)
      (one.removeSpecificFromIndex capacity whenToFire pTimer parent)
      (other.removeSpecificFromIndex capacity whenToFire pTimer parent) := by
  induction remaining : one.numberOfTimersBeingManaged - parent using Nat.strongRecOn
    generalizing parent with
  | ind remaining ih =>
      have compares : ∀ index,
          (index < one.numberOfTimersBeingManaged - 1 ∧ other.heap index = some pTimer) =
            (index < one.numberOfTimersBeingManaged - 1 ∧ one.heap index = some pTimer) :=
        fun index => propext (and_congr_right fun below => by rw [agree.slots index (by omega)])
      have visited : parent < capacity := by omega
      have positive : 0 < one.numberOfTimersBeingManaged := by omega
      rw [removeSpecificFromIndex_eq visited positive room,
        removeSpecificFromIndex_eq visited (agree.count ▸ positive) (agree.count ▸ room),
        agree.count, agree.slots parent (by omega)]
      simp only [compares]
      split_ifs with atParent atLeft atRight stop
      · exact removeAtIndex_sameOutcome (by omega) room filled agree
      · exact removeAtIndex_sameOutcome (by omega) room filled agree
      · exact removeAtIndex_sameOutcome (by omega) room filled agree
      · exact .some ⟨rfl, agree⟩
      · exact ih (one.numberOfTimersBeingManaged - (parent + 1)) (by omega) (by omega) rfl

/-- What removing a timer leaves depends on the slots in use only. -/
theorem removeFromHeap_agree {pTimer : Ptr}
    (room : one.numberOfTimersBeingManaged ≤ capacity)
    (filled : one.Filled one.numberOfTimersBeingManaged)
    (present : ∃ index < one.numberOfTimersBeingManaged, one.heap index = some pTimer)
    (agree : AgreeBelow one.numberOfTimersBeingManaged one other) :
    Option.Rel (SameOutcome one.numberOfTimersBeingManaged)
      (one.removeFromHeap capacity whenToFire pTimer)
      (other.removeFromHeap capacity whenToFire pTimer) := by
  obtain ⟨index, inside, holds⟩ := present
  unfold removeFromHeap
  rcases Nat.lt_or_ge one.numberOfTimersBeingManaged 2 with few | many
  · obtain rfl : index = 0 := by omega
    have otherHolds := (agree.slots 0 inside).trans holds
    rw [removeSpecificFromIndex_eq (by omega) inside room, if_pos holds,
      removeSpecificFromIndex_eq (by omega) (agree.count ▸ inside) (agree.count ▸ room),
      if_pos otherHolds]
    exact removeAtIndex_sameOutcome inside room filled agree
  · exact removeSpecificFromIndex_agree many room filled (Nat.zero_le _) agree pTimer

end Stale

variable [DecidableEq Ptr]

/-- Removing a timer that is in the heap answers; the slots it reads and writes are below the
count, the firing times it reads are of timers that were there, and the search is activated
at most once for each timer. What is past the count makes no difference to the answer, the
new count or the slots below it. -/
theorem removeFromHeap_stays_inside (whenToFire : Ptr → UInt64) (minheap : TimerMinHeap Ptr)
    (room : minheap.numberOfTimersBeingManaged ≤ MAX_NUMBER_OF_TIMERS)
    (filled : minheap.Filled minheap.numberOfTimersBeingManaged) (pTimer : Ptr)
    (present : ∃ index < minheap.numberOfTimersBeingManaged,
      minheap.heap index = some pTimer) :
    ∃ result after accesses,
      Accessed.removeFromHeap MAX_NUMBER_OF_TIMERS whenToFire minheap pTimer =
          ⟨some (result, after), accesses⟩ ∧
        minheap.removeFromHeap MAX_NUMBER_OF_TIMERS whenToFire pTimer = some (result, after) ∧
        accesses.countP Access.isActivation ≤ minheap.numberOfTimersBeingManaged ∧
        (∀ access ∈ accesses, access.isActivation = true ∨
          access.Within minheap.numberOfTimersBeingManaged minheap.contents) ∧
        ∀ other, AgreeBelow minheap.numberOfTimersBeingManaged minheap other →
          ∃ otherAfter,
            other.removeFromHeap MAX_NUMBER_OF_TIMERS whenToFire pTimer =
                some (result, otherAfter) ∧
              AgreeBelow after.numberOfTimersBeingManaged after otherAfter := by
  obtain ⟨index, bound, holds⟩ := present
  have taken : (minheap.removeFromHeap MAX_NUMBER_OF_TIMERS whenToFire pTimer).isSome :=
    (removeFromHeap_isSome whenToFire room (by decide) (by decide) filled).mpr
      fun none => absurd bound (by omega)
  obtain ⟨⟨result, after⟩, ran⟩ := Option.isSome_iff_exists.mp taken
  let accessed := Accessed.removeFromHeap MAX_NUMBER_OF_TIMERS whenToFire minheap pTimer
  have footprint : accessed.Footprint (Access.Inside minheap) Access.isActivation
      minheap.numberOfTimersBeingManaged :=
    Accessed.removeFromHeap_footprint ⟨index, bound, holds⟩
  have answered : accessed.outcome = some (result, after) :=
    (Accessed.outcome_removeFromHeap pTimer).trans ran
  refine ⟨result, after, accessed.events, ?_, ran, footprint.atMost, footprint.only, ?_⟩
  · rw [← answered]
  · intro other agree
    have fewer := (removeFromHeap_removal room (by decide) (by decide) filled ran).count_le
    have same : Option.Rel (SameOutcome minheap.numberOfTimersBeingManaged)
        (minheap.removeFromHeap MAX_NUMBER_OF_TIMERS whenToFire pTimer)
        (other.removeFromHeap MAX_NUMBER_OF_TIMERS whenToFire pTimer) :=
      removeFromHeap_agree room filled ⟨index, bound, holds⟩ agree
    rw [ran] at same
    cases otherRan : other.removeFromHeap MAX_NUMBER_OF_TIMERS whenToFire pTimer with
    | none =>
        rw [otherRan] at same
        cases same
    | some outcome =>
        rw [otherRan] at same
        cases same with
        | some both =>
            obtain ⟨otherResult, otherAfter⟩ := outcome
            obtain ⟨rfl, agreed⟩ := both
            exact ⟨otherAfter, rfl, agreed.mono fewer⟩

/-- A timer that is found in the last of three slots, with stale slots past them. -/
theorem removeFromHeap_stays_inside_last_of_three :
    let minheap : TimerMinHeap UInt64 := ⟨fun index => [8, 2, 5, 7, 1][index]?, 3⟩
    ∃ result after accesses,
      Accessed.removeFromHeap MAX_NUMBER_OF_TIMERS id minheap 5 =
          ⟨some (result, after), accesses⟩ ∧
        minheap.removeFromHeap MAX_NUMBER_OF_TIMERS id 5 = some (result, after) ∧
        accesses.countP Access.isActivation ≤ 3 ∧
        (∀ access ∈ accesses, access.isActivation = true ∨ access.Within 3 minheap.contents) ∧
        ∀ other, AgreeBelow 3 minheap other →
          ∃ otherAfter,
            other.removeFromHeap MAX_NUMBER_OF_TIMERS id 5 = some (result, otherAfter) ∧
              AgreeBelow after.numberOfTimersBeingManaged after otherAfter := by
  let minheap : TimerMinHeap UInt64 := ⟨fun index => [8, 2, 5, 7, 1][index]?, 3⟩
  have filled : ∀ index < 3, (minheap.heap index).isSome := by decide
  exact removeFromHeap_stays_inside id minheap (by decide) filled 5 ⟨2, by decide, rfl⟩

end TimerMinHeap

end TimerAndCallback
