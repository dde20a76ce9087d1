import TimerAndCallback.Common.Types
import TimerAndCallback.Foundation.SlotEntries
import TimerAndCallback.Foundation.HeapOrder

/-! # The timer min-heap

The heap is an array of timer pointers with a count. The operations are total in
the source and undefined outside the array; here they answer `none` when they
read or write a slot at or past the array's capacity, or read a firing time
through a null pointer. Reading the firing times of the timers pointed at is a
parameter, since callers change them while the timers are in the heap.
-/

namespace TimerAndCallback

/-- `TimerTaskShared`: the slots, where `none` is a null pointer, and the `UINT32`
count. Slots at or past the count keep what was last written to them. -/
structure TimerMinHeap (Ptr : Type) where
  heap : Nat → Option Ptr
  numberOfTimersBeingManaged : Nat

namespace TimerMinHeap

variable {Ptr : Type}

/-- The zero-filled shared memory. -/
def empty : TimerMinHeap Ptr := ⟨fun _ => none, 0⟩

/-- `UINT32` decrement, which wraps at zero. -/
def predUINT32 (value : Nat) : Nat := if value = 0 then 2 ^ 32 - 1 else value - 1

/-- Counting down from a positive number does not wrap. -/
theorem predUINT32_of_pos {value : Nat} (positive : 0 < value) :
    predUINT32 value = value - 1 := if_neg (by omega)

section Operations

variable (capacity : Nat) (whenToFire : Ptr → UInt64)

/-- `minheap [index]`. -/
def slot (minheap : TimerMinHeap Ptr) (index : Nat) : Option (Option Ptr) :=
  if index < capacity then some (minheap.heap index) else none

/-- `minheap [index] = pTimer`. -/
def setSlot (minheap : TimerMinHeap Ptr) (index : Nat) (pTimer : Option Ptr) :
    Option (TimerMinHeap Ptr) :=
  if index < capacity then
    some { minheap with heap := Function.update minheap.heap index pTimer }
  else
    none

/-- `minheap [index]->getWhenToFire ()`. -/
def firingTime (minheap : TimerMinHeap Ptr) (index : Nat) : Option UInt64 :=
  (minheap.slot capacity index).bind fun pTimer => pTimer.map whenToFire

/-- The exchange both sifts do through `tmp`, of two slots they have just read. -/
def swap (minheap : TimerMinHeap Ptr) (index parent : Nat) : TimerMinHeap Ptr :=
  { minheap with
    heap := Function.update (Function.update minheap.heap index (minheap.heap parent)) parent
      (minheap.heap index) }

/-- The loop of `upHeapify`, from a slot other than the root. -/
def upHeapifyFromIndex (minheap : TimerMinHeap Ptr) (index : Nat) :
    Option (TimerMinHeap Ptr) := do
  let parent := (index - 1) / 2
  let parentFiringTime ← minheap.firingTime capacity whenToFire parent
  let indexFiringTime ← minheap.firingTime capacity whenToFire index
  if uint64LT parentFiringTime indexFiringTime then
    some minheap
  else if _top : parent = 0 then
    some (minheap.swap index parent)
  else
    upHeapifyFromIndex (minheap.swap index parent) parent
termination_by index
decreasing_by omega

/-- `upHeapify`. The new timer goes into the first slot past the count, whether or
not the array has one. -/
def upHeapify (minheap : TimerMinHeap Ptr) (pTimer : Ptr) :
    Option (Result × TimerMinHeap Ptr) := do
  let index := minheap.numberOfTimersBeingManaged
  let minheap ← minheap.setSlot capacity index (some pTimer)
  let minheap ←
    if index = 0 then some minheap else minheap.upHeapifyFromIndex capacity whenToFire index
  some (.OK, { minheap with
    numberOfTimersBeingManaged := minheap.numberOfTimersBeingManaged + 1 })

/-- `downHeapifyFromIndex`. A firing time whose bound is not met stays
uninitialised in the source; it is `0` here and the loop returns before using it.
The right child is read one slot past the count, and a slot with a left child
only is left as it is. -/
def downHeapifyFromIndex (minheap : TimerMinHeap Ptr) (parent : Nat) :
    Option (TimerMinHeap Ptr) := do
  let left := 2 * parent + 1
  let right := left + 1
  let parentFiringTime ← minheap.firingTime capacity whenToFire parent
  let leftFiringTime ←
    if left < minheap.numberOfTimersBeingManaged then minheap.firingTime capacity whenToFire left
    else some 0
  let rightFiringTime ←
    if right ≤ minheap.numberOfTimersBeingManaged then minheap.firingTime capacity whenToFire right
    else some 0
  if _exit : minheap.numberOfTimersBeingManaged ≤ left ∨
      minheap.numberOfTimersBeingManaged ≤ right then
    some minheap
  else if uint64LT leftFiringTime parentFiringTime || uint64LT rightFiringTime parentFiringTime then
    if uint64LT leftFiringTime rightFiringTime then
      downHeapifyFromIndex (minheap.swap left parent) left
    else
      downHeapifyFromIndex (minheap.swap right parent) right
  else
    some minheap
termination_by minheap.numberOfTimersBeingManaged - parent
decreasing_by
  all_goals
    simp only [swap]
    omega

/-- What each of the three branches of the search does with the slot it found. -/
def removeAtIndex (minheap : TimerMinHeap Ptr) (index : Nat) : Option (TimerMinHeap Ptr) := do
  let last ← minheap.slot capacity (predUINT32 minheap.numberOfTimersBeingManaged)
  let minheap ← minheap.setSlot capacity index last
  downHeapifyFromIndex capacity whenToFire
    { minheap with
      numberOfTimersBeingManaged := predUINT32 minheap.numberOfTimersBeingManaged } index

variable [DecidableEq Ptr]

/-- `(index < bound) && (minheap [index] == pTimer)`; a slot past the bound is not read. -/
def matchesBelow (minheap : TimerMinHeap Ptr) (bound index : Nat) (pTimer : Ptr) : Option Bool :=
  if index < bound then
    (minheap.slot capacity index).map fun found => decide (found = some pTimer)
  else
    some false

/-- `removeSpecificFromIndex`. The children are compared up to `numberOfTimers - 1`
exclusive, and the recursion stops once the left child is past the count. -/
def removeSpecificFromIndex (minheap : TimerMinHeap Ptr) (pTimer : Ptr) (parent : Nat) :
    Option (Result × TimerMinHeap Ptr) := do
  let left := parent * 2 + 1
  let right := left + 1
  let numberOfTimers := minheap.numberOfTimersBeingManaged
  let found ← minheap.slot capacity parent
  if found = some pTimer then
    (minheap.removeAtIndex capacity whenToFire parent).map (Result.OK, ·)
  else if ← minheap.matchesBelow capacity (predUINT32 numberOfTimers) left pTimer then
    (minheap.removeAtIndex capacity whenToFire left).map (Result.OK, ·)
  else if ← minheap.matchesBelow capacity (predUINT32 numberOfTimers) right pTimer then
    (minheap.removeAtIndex capacity whenToFire right).map (Result.OK, ·)
  else if _stop : numberOfTimers < left then
    some (.ERROR, minheap)
  else
    removeSpecificFromIndex minheap pTimer (parent + 1)
termination_by minheap.numberOfTimersBeingManaged - parent
decreasing_by omega

/-- `addToHeap`. -/
def addToHeap (minheap : TimerMinHeap Ptr) (pTimer : Ptr) : Option (Result × TimerMinHeap Ptr) :=
  minheap.upHeapify capacity whenToFire pTimer

/-- `removeFromHeap`. -/
def removeFromHeap (minheap : TimerMinHeap Ptr) (pTimer : Ptr) :
    Option (Result × TimerMinHeap Ptr) :=
  minheap.removeSpecificFromIndex capacity whenToFire pTimer 0

end Operations

end TimerMinHeap

end TimerAndCallback
