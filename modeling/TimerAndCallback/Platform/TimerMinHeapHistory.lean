import TimerAndCallback.Platform.TimerMinHeapChange
import TimerAndCallback.Foundation.Execution

/-! # Timers added and timers removed

Callers set firing times while the timers are in the heap, so that the array need not
be in order when the next call sifts it. Each call here reads firing times of its own.
Whatever they are, what was added and not removed is what the heap holds.
-/

namespace TimerAndCallback

namespace TimerMinHeap

open Execution

variable {Ptr : Type}

/-- A call on the heap, with the firing times that are read during it. -/
inductive RekeyedCall (Ptr : Type)
  | addToHeap (whenToFire : Ptr → UInt64) (pTimer : Ptr)
  | removeFromHeap (whenToFire : Ptr → UInt64) (pTimer : Ptr)

/-- The heap with the timers added so far, and those whose removal returned `OK`. -/
structure HeapHistory (Ptr : Type) where
  minheap : TimerMinHeap Ptr
  added : Multiset Ptr
  removed : Multiset Ptr

namespace HeapHistory

/-- Nothing was called on the zero-filled heap. -/
def start : HeapHistory Ptr := ⟨empty, 0, 0⟩

/-- Every timer added is in the heap once for each time it was added and not removed. -/
structure Balanced [DecidableEq Ptr] (history : HeapHistory Ptr) : Prop where
  removed_le : history.removed ≤ history.added
  contents : history.minheap.contents = (history.added - history.removed).map some

/-- What every call keeps. -/
structure Kept (history : HeapHistory Ptr) : Prop where
  room : history.minheap.numberOfTimersBeingManaged ≤ MAX_NUMBER_OF_TIMERS
  held : ∃ held, history.minheap.contents = held.map some ∧ history.added = held + history.removed

variable {history next : HeapHistory Ptr}

private theorem start_kept : (start : HeapHistory Ptr).Kept := ⟨Nat.zero_le _, 0, rfl, rfl⟩

/-- A kept heap is filled. -/
theorem Kept.filled (kept : history.Kept) :
    history.minheap.Filled history.minheap.numberOfTimersBeingManaged := by
  obtain ⟨held, contents, _⟩ := kept.held
  rw [filled_iff, contents, Multiset.mem_map]
  rintro ⟨pTimer, _, null⟩
  cases null

variable [DecidableEq Ptr]

private theorem Kept.balanced (kept : history.Kept) : history.Balanced := by
  obtain ⟨held, contents, total⟩ := kept.held
  refine ⟨?_, ?_⟩
  · rw [total]
    exact Multiset.le_add_left _ _
  · rw [contents, total, Multiset.add_sub_cancel_right]

/-- One call, and the record of it. -/
def call (history : HeapHistory Ptr) : RekeyedCall Ptr → Option (HeapHistory Ptr)
  | .addToHeap whenToFire pTimer =>
      (history.minheap.addToHeap MAX_NUMBER_OF_TIMERS whenToFire pTimer).map fun outcome =>
        { history with minheap := outcome.2, added := pTimer ::ₘ history.added }
  | .removeFromHeap whenToFire pTimer =>
      (history.minheap.removeFromHeap MAX_NUMBER_OF_TIMERS whenToFire pTimer).map fun outcome =>
        { history with
          minheap := outcome.2
          removed := if outcome.1 = .OK then pTimer ::ₘ history.removed else history.removed }

/-- A timer is added while the array has room, and removed while it is in the heap. -/
def Admits (history : HeapHistory Ptr) : RekeyedCall Ptr → Prop
  | .addToHeap _ _ => history.minheap.numberOfTimersBeingManaged < MAX_NUMBER_OF_TIMERS
  | .removeFromHeap _ pTimer =>
      ∃ index < history.minheap.numberOfTimersBeingManaged,
        history.minheap.heap index = some pTimer

instance (history : HeapHistory Ptr) (call : RekeyedCall Ptr) : Decidable (history.Admits call) :=
  match call with
  | .addToHeap _ _ => by unfold Admits; infer_instance
  | .removeFromHeap _ _ => by unfold Admits; infer_instance

/-- A removal that returns `ERROR` leaves the count and the slots below it alone. -/
def KeepsOnError (history : HeapHistory Ptr) : RekeyedCall Ptr → Prop
  | .addToHeap _ _ => True
  | .removeFromHeap whenToFire pTimer =>
      ∀ after,
        history.minheap.removeFromHeap MAX_NUMBER_OF_TIMERS whenToFire pTimer =
            some (.ERROR, after) →
          after.numberOfTimersBeingManaged = history.minheap.numberOfTimersBeingManaged ∧
            ∀ index < history.minheap.numberOfTimersBeingManaged,
              after.heap index = history.minheap.heap index

/-- A timer can be added while there is room, and the heap is kept. -/
theorem Kept.addToHeap (kept : history.Kept) (whenToFire : Ptr → UInt64) (pTimer : Ptr)
    (room : history.minheap.numberOfTimersBeingManaged < MAX_NUMBER_OF_TIMERS) :
    ∃ next, history.call (.addToHeap whenToFire pTimer) = some next ∧ next.Kept := by
  obtain ⟨sifted, added, _⟩ := addToHeap_eq whenToFire room kept.filled pTimer
  obtain ⟨_, _, inserted⟩ := addToHeap_inserted kept.filled added
  obtain ⟨held, contents, total⟩ := kept.held
  refine ⟨_, Option.map_eq_some_iff.mpr ⟨_, added, rfl⟩, Nat.succ_le_of_lt room,
    pTimer ::ₘ held, ?_, ?_⟩
  · rw [inserted.contents, contents, Multiset.map_cons]
  · rw [total, Multiset.cons_add]

/-- A timer of the heap can be removed, and the heap is kept. -/
theorem Kept.removeFromHeap (kept : history.Kept) (whenToFire : Ptr → UInt64) {pTimer : Ptr}
    (present : ∃ index < history.minheap.numberOfTimersBeingManaged,
      history.minheap.heap index = some pTimer) :
    ∃ next, history.call (.removeFromHeap whenToFire pTimer) = some next ∧ next.Kept := by
  obtain ⟨index, bound, holds⟩ := present
  have taken : (history.minheap.removeFromHeap MAX_NUMBER_OF_TIMERS whenToFire pTimer).isSome :=
    (removeFromHeap_isSome whenToFire kept.room (by decide) (by decide) kept.filled).mpr
      fun none => absurd bound (by omega)
  obtain ⟨⟨result, after⟩, ran⟩ := Option.isSome_iff_exists.mp taken
  have removal := removeFromHeap_removal kept.room (by decide) (by decide) kept.filled ran
  refine ⟨_, Option.map_eq_some_iff.mpr ⟨_, ran, rfl⟩, removal.count_le.trans kept.room, ?_⟩
  obtain ⟨held, contents, total⟩ := kept.held
  cases removal with
  | removed _ _ _ split =>
      rw [contents] at split
      have member : pTimer ∈ held := by
        have inside : some pTimer ∈ held.map some := split ▸ Multiset.mem_cons_self _ _
        rwa [Multiset.mem_map_of_injective (Option.some_injective _)] at inside
      obtain ⟨rest, rfl⟩ := Multiset.exists_cons_of_mem member
      rw [Multiset.map_cons, Multiset.cons_inj_right] at split
      refine ⟨rest, split.symm, ?_⟩
      rw [total, if_pos rfl, Multiset.cons_add, Multiset.add_cons]
  | missed => exact ⟨held, contents, total⟩
  | dropped _ single other =>
      obtain rfl : index = 0 := by omega
      exact absurd holds other

/-- Every admitted call is taken and keeps the account. -/
theorem Kept.call (kept : history.Kept) (call : RekeyedCall Ptr) (admitted : history.Admits call) :
    ∃ next, history.call call = some next ∧ next.Kept := by
  cases call with
  | addToHeap whenToFire pTimer => exact kept.addToHeap whenToFire pTimer admitted
  | removeFromHeap whenToFire pTimer => exact kept.removeFromHeap whenToFire admitted

private theorem Kept.keepsOnError (kept : history.Kept) (call : RekeyedCall Ptr) :
    history.KeepsOnError call := by
  cases call with
  | addToHeap => trivial
  | removeFromHeap whenToFire pTimer =>
      intro after ran
      cases removeFromHeap_removal kept.room (by decide) (by decide) kept.filled ran with
      | missed => exact ⟨rfl, fun _ _ => rfl⟩

/-- Along every sequence of calls on the empty heap, whatever the firing times are at each
of them, no call leaves the array, the heap holds what was added and not removed, and a
removal that returns `ERROR` changes nothing. -/
theorem calls_balanced (calls : List (RekeyedCall Ptr))
    (admitted : Along HeapHistory.call Admits start calls) :
    (∃ final, exec HeapHistory.call start calls = some final) ∧
      Always HeapHistory.call Balanced start calls ∧
      Along HeapHistory.call KeepsOnError start calls := by
  have step : ∀ (history : HeapHistory Ptr) (call : RekeyedCall Ptr) (next : HeapHistory Ptr),
      history.Kept → history.Admits call → history.call call = some next → next.Kept := by
    intro history call next kept admitted called
    obtain ⟨other, same, after⟩ := kept.call call admitted
    cases called.symm.trans same
    exact after
  refine ⟨?_, ?_, ?_⟩
  · obtain ⟨final, executed, _⟩ :=
      exec_progress (fun _ call kept admitted => kept.call call admitted) start_kept admitted
    exact ⟨final, executed⟩
  · exact Always.of_along Kept (fun _ kept => kept.balanced) step start_kept admitted
  · exact Along.of_invariant Kept (fun _ call kept _ => kept.keepsOnError call) step start_kept
      admitted

/-- A timer that is in the heap twice and rekeyed to be last is taken out once; of four
timers the last is not found. -/
theorem calls_balanced_rekeyed :
    let calls : List (RekeyedCall Nat) :=
      [.addToHeap UInt64.ofNat 7, .addToHeap UInt64.ofNat 2, .addToHeap UInt64.ofNat 5,
        .addToHeap UInt64.ofNat 2, .removeFromHeap (fun pTimer => UInt64.ofNat (9 - pTimer)) 2,
        .addToHeap UInt64.ofNat 8, .removeFromHeap UInt64.ofNat 8]
    (∃ final, exec HeapHistory.call start calls = some final) ∧
      Always HeapHistory.call Balanced start calls ∧
      Along HeapHistory.call KeepsOnError start calls :=
  calls_balanced _ (by decide +kernel)

end HeapHistory

end TimerMinHeap

end TimerAndCallback
