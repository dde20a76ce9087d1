import TimerAndCallback.Platform.TimerMinHeapOrder
import TimerAndCallback.Platform.TimerMinHeapChange

/-! # The priority-queue contract

A client inserts timers with fixed firing times and takes the top out, as
`TimerTask::run` does when it fires. The top is earliest, and draining takes the
timers in order, over every run in which no removal skips a lone child.
-/

namespace TimerAndCallback

namespace TimerMinHeap

open SlotEntries HeapOrder Execution

variable {Ptr : Type}

/-- No timer below the count is due before the one on top. -/
structure TopIsEarliest (whenToFire : Ptr → UInt64) (minheap : TimerMinHeap Ptr) : Prop where
  filled : minheap.Filled minheap.numberOfTimersBeingManaged
  earliest : ∀ index < minheap.numberOfTimersBeingManaged,
    minheap.keyAt whenToFire 0 ≤ minheap.keyAt whenToFire index

/-- A heap in order, within the array. -/
structure PriorityQueue (whenToFire : Ptr → UInt64) (minheap : TimerMinHeap Ptr) : Prop where
  room : minheap.numberOfTimersBeingManaged ≤ MAX_NUMBER_OF_TIMERS
  filled : minheap.Filled minheap.numberOfTimersBeingManaged
  ordered : Ordered minheap.numberOfTimersBeingManaged (minheap.keyAt whenToFire)

variable {whenToFire : Ptr → UInt64} {minheap : TimerMinHeap Ptr}

private theorem empty_priorityQueue : PriorityQueue whenToFire (empty : TimerMinHeap Ptr) where
  room := Nat.zero_le _
  filled index bound := absurd bound (Nat.not_lt_zero index)
  ordered index _ bound := absurd bound (Nat.not_lt_zero index)

/-- The top of a priority queue is a timer that is due earliest. -/
theorem PriorityQueue.topIsEarliest (queue : minheap.PriorityQueue whenToFire) :
    minheap.TopIsEarliest whenToFire where
  filled := queue.filled
  earliest _ bound := queue.ordered.root_le bound

section Runs

variable [DecidableEq Ptr]

/-- The calls of the contract. -/
inductive HeapCall (Ptr : Type)
  | addToHeap (pTimer : Ptr)
  | removeTop

/-- One call on the heap of `TimerTaskShared`; nothing is removed from an empty heap. -/
def callHeap (whenToFire : Ptr → UInt64) (minheap : TimerMinHeap Ptr) :
    HeapCall Ptr → Option (TimerMinHeap Ptr)
  | .addToHeap pTimer =>
      (minheap.addToHeap MAX_NUMBER_OF_TIMERS whenToFire pTimer).map Prod.snd
  | .removeTop =>
      if minheap.numberOfTimersBeingManaged = 0 then some minheap
      else (minheap.heap 0).bind fun top =>
        (minheap.removeFromHeap MAX_NUMBER_OF_TIMERS whenToFire top).map Prod.snd

/-- The timers that `turns` removals of the top take out, in the order they leave. -/
def drain (whenToFire : Ptr → UInt64) : Nat → TimerMinHeap Ptr → Option (List Ptr)
  | 0, _ => some []
  | turns + 1, minheap => do
      let top ← minheap.heap 0
      let after ← minheap.callHeap whenToFire .removeTop
      let later ← drain whenToFire turns after
      some (top :: later)

/-- Insertion has room, and a removal of the top does not skip a lone child. -/
def KeepsOrder (whenToFire : Ptr → UInt64) (minheap : TimerMinHeap Ptr) : HeapCall Ptr → Prop
  | .addToHeap _ => minheap.numberOfTimersBeingManaged < MAX_NUMBER_OF_TIMERS
  | .removeTop => ¬ minheap.SkipsLoneChild whenToFire

instance (whenToFire : Ptr → UInt64) (minheap : TimerMinHeap Ptr) (call : HeapCall Ptr) :
    Decidable (minheap.KeepsOrder whenToFire call) :=
  match call with
  | .addToHeap .. | .removeTop => by
      unfold KeepsOrder
      infer_instance

/-- Taking the top out of a priority queue with timers in it. -/
theorem PriorityQueue.removeTop (queue : minheap.PriorityQueue whenToFire)
    (positive : 0 < minheap.numberOfTimersBeingManaged)
    (compared : ¬ minheap.SkipsLoneChild whenToFire) :
    ∃ top after, minheap.heap 0 = some top ∧
      minheap.callHeap whenToFire .removeTop = some after ∧
      after.numberOfTimersBeingManaged + 1 = minheap.numberOfTimersBeingManaged ∧
      minheap.contents = some top ::ₘ after.contents ∧ after.PriorityQueue whenToFire := by
  obtain ⟨top, holds⟩ := Option.isSome_iff_exists.mp (queue.filled 0 positive)
  obtain ⟨after, ran, count, contents, ordered⟩ :=
    removeTop_ordered positive queue.room queue.filled queue.ordered compared holds
  refine ⟨top, after, holds, ?_, count, contents, ?_, ?_, ordered⟩
  · rw [callHeap, if_neg (by omega), holds, Option.bind_some, ran, Option.map_some]
  · have room := queue.room
    omega
  · exact (Removal.removed after ⟨0, positive, holds, by omega⟩ count contents).filled
      queue.filled

/-- Every call that keeps the order is taken, and keeps the priority queue. -/
theorem PriorityQueue.callHeap (queue : minheap.PriorityQueue whenToFire) {call : HeapCall Ptr}
    (keeps : minheap.KeepsOrder whenToFire call) :
    ∃ after, minheap.callHeap whenToFire call = some after ∧ after.PriorityQueue whenToFire := by
  cases call with
  | addToHeap pTimer =>
      obtain ⟨sifted, ran, _⟩ := addToHeap_eq whenToFire keeps queue.filled pTimer
      obtain ⟨room, _, inserted⟩ := addToHeap_inserted queue.filled ran
      refine ⟨_, ?_, ?_, inserted.filled queue.filled,
        addToHeap_ordered queue.filled queue.ordered ran⟩
      · rw [TimerMinHeap.callHeap, ran, Option.map_some]
      · rw [inserted.count]
        exact room
  | removeTop =>
      rcases Nat.eq_zero_or_pos minheap.numberOfTimersBeingManaged with none | positive
      · exact ⟨minheap, if_pos none, queue⟩
      · obtain ⟨_, after, _, ran, _, _, kept⟩ := queue.removeTop positive keeps
        exact ⟨after, ran, kept⟩

/-- Every run whose calls keep the order is taken to its end in a priority queue. -/
theorem PriorityQueue.exec (queue : minheap.PriorityQueue whenToFire) {calls : List (HeapCall Ptr)}
    (keeps : Along (TimerMinHeap.callHeap whenToFire) (KeepsOrder whenToFire) minheap calls) :
    ∃ final, Execution.exec (TimerMinHeap.callHeap whenToFire) minheap calls = some final ∧
      final.PriorityQueue whenToFire :=
  exec_progress (fun _ _ kept admitted => kept.callHeap admitted) queue keeps

/-- Draining a priority queue takes its timers out in order of their firing times. -/
theorem PriorityQueue.drain (queue : minheap.PriorityQueue whenToFire) {turns : Nat}
    (all : turns = minheap.numberOfTimersBeingManaged)
    (keeps : Along (TimerMinHeap.callHeap whenToFire) (KeepsOrder whenToFire) minheap
      (List.replicate turns .removeTop)) :
    ∃ drained, minheap.drain whenToFire turns = some drained ∧
      (drained.map some : Multiset (Option Ptr)) = minheap.contents ∧
      drained.Pairwise fun earlier later => whenToFire earlier ≤ whenToFire later := by
  induction turns generalizing minheap with
  | zero =>
      refine ⟨[], rfl, ?_, List.Pairwise.nil⟩
      unfold contents
      rw [← all, entries_zero]
      rfl
  | succ turns ih =>
      rw [List.replicate_succ, along_cons] at keeps
      obtain ⟨top, after, holds, taken, count, removed, kept⟩ :=
        queue.removeTop (by omega) keeps.1
      obtain ⟨drained, ran, members, sorted⟩ := ih kept (by omega) (keeps.2 after taken)
      refine ⟨top :: drained, ?_, ?_, List.Pairwise.cons (fun timer member => ?_) sorted⟩
      · rw [TimerMinHeap.drain, holds, taken]
        simp only [Option.bind_eq_bind, Option.bind_some, ran]
      · rw [removed, ← members]
        rfl
      · have inside : some timer ∈ minheap.contents := by
          rw [removed, ← members]
          exact Multiset.mem_cons_of_mem (Multiset.mem_coe.mpr (List.mem_map_of_mem member))
        obtain ⟨index, bound, stored⟩ := mem_contents.mp inside
        have earliest := queue.topIsEarliest.earliest index bound
        rw [keyAt_of_eq_some holds, keyAt_of_eq_some stored] at earliest
        exact UInt64.le_iff_toNat_le.mpr earliest

/-- In every run from the empty heap whose calls keep the order, the top is due
first in every state reached, and draining takes the timers in the order they are
due. -/
theorem run_topIsEarliest (whenToFire : Ptr → UInt64) (calls : List (HeapCall Ptr))
    (keeps : Along (callHeap whenToFire) (KeepsOrder whenToFire) empty calls) :
    ∃ minheap, exec (callHeap whenToFire) empty calls = some minheap ∧
      minheap.TopIsEarliest whenToFire ∧
      (Along (callHeap whenToFire) (KeepsOrder whenToFire) minheap
          (List.replicate minheap.numberOfTimersBeingManaged .removeTop) →
        ∃ drained, minheap.drain whenToFire minheap.numberOfTimersBeingManaged = some drained ∧
          (drained.map some : Multiset (Option Ptr)) = minheap.contents ∧
          drained.Pairwise fun earlier later => whenToFire earlier ≤ whenToFire later) := by
  obtain ⟨minheap, reached, queue⟩ := empty_priorityQueue.exec keeps
  exact ⟨minheap, reached, queue.topIsEarliest, queue.drain rfl⟩

/-- Four insertions and a removal, then a drain. Timers stand for their firing times. -/
theorem run_topIsEarliest_four :
    ∃ minheap, exec (callHeap UInt64.ofNat) empty
        [.addToHeap 7, .addToHeap 2, .addToHeap 5, .addToHeap 2, .removeTop] = some minheap ∧
      minheap.TopIsEarliest UInt64.ofNat ∧
      ∃ drained, minheap.drain UInt64.ofNat 3 = some drained ∧
        drained.Pairwise fun earlier later => UInt64.ofNat earlier ≤ UInt64.ofNat later := by
  have keeps : Along (callHeap UInt64.ofNat) (KeepsOrder UInt64.ofNat) empty
      ([.addToHeap 7, .addToHeap 2, .addToHeap 5, .addToHeap 2, .removeTop] ++
        List.replicate 3 .removeTop) := by
    decide +kernel
  have counted : (exec (callHeap UInt64.ofNat) empty
      [.addToHeap 7, .addToHeap 2, .addToHeap 5, .addToHeap 2, .removeTop]).map
        numberOfTimersBeingManaged = some 3 := by
    decide +kernel
  obtain ⟨front, back⟩ := along_append.mp keeps
  obtain ⟨minheap, reached, earliest, drains⟩ := run_topIsEarliest UInt64.ofNat _ front
  rw [reached, Option.map_some, Option.some.injEq] at counted
  rw [counted] at drains
  obtain ⟨drained, ran, _, sorted⟩ := drains (back minheap reached)
  exact ⟨minheap, reached, earliest, drained, ran, sorted⟩

/-- Three insertions and a removal leave a heap of two whose later timer is on top. -/
theorem removeTop_hides_lone_child :
    ∃ minheap, exec (callHeap UInt64.ofNat) empty
        [.addToHeap 1, .addToHeap 2, .addToHeap 3, .removeTop] = some minheap ∧
      ¬ minheap.TopIsEarliest UInt64.ofNat ∧ minheap.drain UInt64.ofNat 2 = some [3, 2] := by
  have ran : (exec (callHeap UInt64.ofNat) empty
      [.addToHeap 1, .addToHeap 2, .addToHeap 3, .removeTop]).map (fun minheap =>
        (minheap.numberOfTimersBeingManaged, minheap.keyAt UInt64.ofNat 0,
          minheap.keyAt UInt64.ofNat 1, minheap.drain UInt64.ofNat 2)) =
        some (2, 3, 2, some [3, 2]) := by
    decide +kernel
  obtain ⟨minheap, reached, evaluated⟩ := Option.map_eq_some_iff.mp ran
  simp only [Prod.mk.injEq] at evaluated
  obtain ⟨count, top, child, drained⟩ := evaluated
  refine ⟨minheap, reached, fun earliest => ?_, drained⟩
  have le := earliest.earliest 1 (by omega)
  omega

end Runs

end TimerMinHeap

end TimerAndCallback
