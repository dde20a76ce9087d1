import TimerAndCallback.Run.Transition
import TimerAndCallback.Foundation.Execution

/-! # What every run keeps

Every reachable state is well formed, whatever the clients do, and a step leaves
alone every timer it is not about.
-/

namespace TimerAndCallback

namespace TimerSystem

open TimerMinHeap Execution

variable {pShm : UInt64} {system next : TimerSystem} {action : Action}

section Managed

variable {before after : TimerMinHeap UInt64} {pTimer : UInt64} {timer : Timer}

/-- Taking a timer out keeps the heap managed. -/
theorem Managed.removed {result : Result} (managed : Managed pShm before)
    (removal : Removal pTimer before result after) : Managed pShm after where
  count := removal.count_le.trans managed.count
  filled := removal.filled managed.filled
  objects other member := managed.objects other (Multiset.mem_of_le removal.contents_le member)

/-- Adding an object of the pool keeps the heap managed. -/
theorem Managed.inserted (managed : Managed pShm before) (object : IsObject pShm pTimer)
    (room : before.numberOfTimersBeingManaged < MAX_NUMBER_OF_TIMERS)
    (inserted : Inserted pTimer before after) : Managed pShm after where
  count := by
    rw [inserted.count]
    exact room
  filled := inserted.filled managed.filled
  objects other member := by
    rw [inserted.contents, Multiset.mem_cons, Option.some.injEq] at member
    rcases member with rfl | earlier
    · exact object
    · exact managed.objects other earlier

/-- Vacating the entries of a timer keeps the heap managed. -/
theorem Managed.vacated (managed : Managed pShm before)
    (vacated : Vacated timer pTimer before after) : Managed pShm after := by
  cases vacated with
  | quiet => exact managed
  | searched _ removal => exact managed.removed removal

/-- Putting the top back keeps the heap managed. -/
theorem Managed.requeued (managed : Managed pShm before) (object : IsObject pShm pTimer)
    (requeued : Requeued timer pTimer before after) : Managed pShm after := by
  cases requeued with
  | moved _ removal room inserted => exact (managed.removed removal).inserted object room inserted
  | added _ room inserted => exact managed.inserted object room inserted

/-- A heap with no more timers and entries is managed as well. -/
theorem Managed.congr (managed : Managed pShm before)
    (count : after.numberOfTimersBeingManaged ≤ before.numberOfTimersBeingManaged)
    (contents : after.contents ≤ before.contents) : Managed pShm after where
  count := count.trans managed.count
  filled := by
    have filled := managed.filled
    rw [filled_iff] at filled ⊢
    exact fun null => filled (Multiset.mem_of_le contents null)
  objects other member := managed.objects other (Multiset.mem_of_le contents member)

end Managed

/-- An outstanding timer is an object of the pool. -/
theorem WellFormed.object (wellFormed : system.WellFormed pShm) {pTimer : UInt64}
    (live : pTimer ∈ system.pool.outstanding) : IsObject pShm pTimer :=
  wellFormed.pool.inSlots pTimer live

/-- The pool takes an allocated timer back. -/
theorem WellFormed.returns (wellFormed : system.WellFormed pShm) {pTimer : UInt64}
    (live : pTimer ∈ system.pool.outstanding) :
    ∃ area, (timerPool pShm).removeFromPool system.pool.area pTimer = some area := by
  obtain ⟨index, bound, rfl⟩ := wellFormed.object live
  exact (timerPool_serviceable pShm).removeFromPool_returns system.pool.area bound

/-- Writing an allocated object leaves the memory of the free slots alone. -/
theorem WellFormed.silent_update (wellFormed : system.WellFormed pShm) {pTimer : UInt64}
    {timer : Timer} (kept : pTimer ∉ system.pool.outstanding → timer.pCb = none)
    (other : UInt64) (dead : other ∉ system.pool.outstanding) :
    (Function.update system.timers pTimer timer other).pCb = none := by
  by_cases same : other = pTimer
  · rw [same, Function.update_self]
    exact kept (same ▸ dead)
  · rw [Function.update_of_ne same]
    exact wellFormed.silent other dead

/-- `delete` keeps the system well formed. -/
theorem WellFormed.deleted (wellFormed : system.WellFormed pShm) {pTimer : UInt64}
    {heap : TimerMinHeap UInt64} (live : pTimer ∈ system.pool.outstanding)
    (vacated : Vacated (system.timers pTimer) pTimer system.minHeap heap) :
    (system.deleted (timerPool pShm) pTimer heap).WellFormed pShm where
  pool := by
    obtain ⟨area, returned⟩ := wellFormed.returns live
    have called : (timerPool pShm).callPool system.pool (.removeFromPool pTimer) =
        some (system.deleted (timerPool pShm) pTimer heap).pool := by
      simp only [MemoryPool.callPool, live, if_true, returned, Option.map_some,
        TimerSystem.deleted, Option.getD_some]
      rfl
    exact wellFormed.pool.removeFromPool (timerPool_serviceable pShm).toAddressable called
  managed := wellFormed.managed.vacated vacated
  silent other dead := by
    simp only [TimerSystem.deleted, freed_pool_outstanding, setTimer_pool,
      Finset.mem_erase, not_and] at dead
    simp only [TimerSystem.deleted, freed_timers, setTimer_timers]
    by_cases same : other = pTimer
    · rw [same, Function.update_self]
    · rw [Function.update_of_ne same]
      exact wellFormed.silent other (dead same)
  resolved := wellFormed.resolved

/-- Taking a message out and counting a trigger keep the system well formed. -/
theorem WellFormed.received (wellFormed : system.WellFormed pShm) (position : Nat)
    (current pTimer : UInt64) (ledger : Ledger) :
    ((system.receive position current).setLedger pTimer ledger).WellFormed pShm where
  pool := wellFormed.pool
  managed := wellFormed.managed
  silent := wellFormed.silent
  resolved envelope member := wellFormed.resolved envelope (List.mem_of_mem_eraseIdx member)

/-- Every step keeps the system well formed. -/
theorem Transition.wellFormed (transition : Transition (timerPool pShm) system action next)
    (wellFormed : system.WellFormed pShm) : next.WellFormed pShm := by
  cases transition with
  | created tasks pTimer pool handed fresh sound outstanding =>
      refine ⟨sound, wellFormed.managed, fun other dead => ?_, wellFormed.resolved⟩
      dsimp only at dead
      rw [outstanding, Finset.mem_insert, not_or] at dead
      simp only [setLedger_timers, setTimer_timers]
      rw [Function.update_of_ne dead.1]
      exact wellFormed.silent other dead.2
  | scheduled pTimer request current rand timer heap live armed room inserted =>
      exact ⟨wellFormed.pool,
        wellFormed.managed.inserted (wellFormed.object live) room inserted,
        wellFormed.silent_update (absurd live), wellFormed.resolved⟩
  | cancelled pTimer live =>
      exact ⟨wellFormed.pool, wellFormed.managed,
        wellFormed.silent_update (absurd live), wellFormed.resolved⟩
  | restarted pTimer current heap live requeued =>
      exact ⟨wellFormed.pool, wellFormed.managed.requeued (wellFormed.object live) requeued,
        wellFormed.silent_update (absurd live), wellFormed.resolved⟩
  | stopped pTimer result heap live removal =>
      exact ⟨wellFormed.pool, wellFormed.managed.removed removal,
        wellFormed.silent_update (absurd live), wellFormed.resolved⟩
  | deleted pTimer heap live vacated => exact wellFormed.deleted live vacated
  | rested current =>
      exact ⟨wellFormed.pool, wellFormed.managed, wellFormed.silent, wellFormed.resolved⟩
  | fired current top heap onTop active count contents =>
      have member : some top ∈ system.minHeap.contents := by
        rw [contents]
        exact Multiset.mem_cons_self _ _
      have fewer : heap.contents ≤ system.minHeap.contents := by
        rw [contents]
        exact Multiset.le_cons_self _ _
      refine ⟨wellFormed.pool, wellFormed.managed.congr (Nat.le.intro count) fewer,
        wellFormed.silent_update fun dead => wellFormed.silent top dead, fun envelope queued => ?_⟩
      rcases List.mem_append.mp queued with earlier | sent
      · exact wellFormed.resolved envelope earlier
      · rw [List.mem_singleton.mp sent]
        exact getTimerAtIndex_getIndex (wellFormed.managed.objects top member)
  | revived current top heap onTop idle count contents =>
      exact ⟨wellFormed.pool, wellFormed.managed.congr count.le contents.le,
        wellFormed.silent_update fun dead => wellFormed.silent top dead, wellFormed.resolved⟩
  | ignored position current envelope =>
      exact ⟨wellFormed.pool, wellFormed.managed, wellFormed.silent,
        fun other queued => wellFormed.resolved other (List.mem_of_mem_eraseIdx queued)⟩
  | rearmed position current envelope heap queued live rearms room inserted =>
      exact ⟨wellFormed.pool,
        wellFormed.managed.inserted (wellFormed.object live) room inserted,
        wellFormed.silent_update (absurd live),
        fun other queued => wellFormed.resolved other (List.mem_of_mem_eraseIdx queued)⟩
  | retired position current envelope heap queued live retires vacated =>
      exact (wellFormed.received position current envelope.timer _).deleted live vacated

/-- The system starts well formed. -/
theorem initial_wellFormed (pShm : UInt64) : (initial (timerPool pShm)).WellFormed pShm where
  pool := MemoryPool.createRun_invariant _
  managed :=
    { count := Nat.zero_le _
      filled := fun index bound => absurd bound (Nat.not_lt_zero index)
      objects := fun _ member => absurd member (Multiset.notMem_zero _) }
  silent _ _ := rfl
  resolved _ queued := absurd queued List.not_mem_nil

/-- Every step from a well-formed state is a transition to a well-formed state. -/
theorem WellFormed.step (wellFormed : system.WellFormed pShm)
    (ran : system.step (timerPool pShm) action = some next) : next.WellFormed pShm :=
  (step_transition wellFormed ran).wellFormed wellFormed

/-- The states a run can reach. -/
abbrev Reached (pShm : UInt64) (system : TimerSystem) : Prop :=
  Reachable (TimerSystem.step (timerPool pShm)) (initial (timerPool pShm)) system

/-- Every state that is reached is well formed. -/
theorem Reached.wellFormed (reached : Reached pShm system) : system.WellFormed pShm :=
  Reachable.invariant (fun _ _ _ holds taken => holds.step taken) (initial_wellFormed pShm) reached

end TimerSystem

end TimerAndCallback
