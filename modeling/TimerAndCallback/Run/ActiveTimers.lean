import TimerAndCallback.Run.Frame

/-! # Active timers are in the heap

A timer that is allocated, scheduled and active waits in the heap, after every run
in which no search for another timer goes astray and drops it.
-/

namespace TimerAndCallback

namespace TimerSystem

open TimerMinHeap Execution

/-- The timer is allocated, was scheduled since, and is active. -/
structure Waits (system : TimerSystem) (pTimer : UInt64) : Prop where
  live : pTimer ∈ system.pool.outstanding
  scheduled : (system.ledger pTimer).scheduled = true
  active : (system.timers pTimer).state = .Active

instance (system : TimerSystem) (pTimer : UInt64) : Decidable (system.Waits pTimer) :=
  decidable_of_iff (pTimer ∈ system.pool.outstanding ∧
      (system.ledger pTimer).scheduled = true ∧ (system.timers pTimer).state = .Active)
    ⟨fun ⟨live, scheduled, active⟩ => ⟨live, scheduled, active⟩,
      fun ⟨live, scheduled, active⟩ => ⟨live, scheduled, active⟩⟩

/-- No waiting timer is missing from the heap. -/
def NoneLost (system : TimerSystem) : Prop :=
  ∀ pTimer, system.Waits pTimer → some pTimer ∈ system.minHeap.contents

/-- The step searches for a timer that is not in the heap, finds a stale pointer to it
in slot one, and the only timer in the heap is another one that waits there. -/
def DropsWaiting (system : TimerSystem) (action : Action) : Prop :=
  ∃ searched ∈ system.searched action, system.minHeap.Drops searched ∧
    ∃ alone ∈ system.minHeap.heap 0, system.Waits alone

instance (system : TimerSystem) (action : Action) : Decidable (system.DropsWaiting action) := by
  unfold DropsWaiting
  infer_instance

variable {pShm pTimer : UInt64} {system next : TimerSystem} {action : Action}

/-- A step makes a timer wait only by adding it to the heap, and takes a timer out of
the heap only if it makes it wait no longer, unless the step drops it. -/
theorem Transition.noneLost (transition : Transition (timerPool pShm) system action next)
    (noneLost : system.NoneLost) (kept : ¬ system.DropsWaiting action) : next.NoneLost := by
  intro pTimer waits
  by_cases touches : system.Touches pTimer action
  · cases transition with
    | created tasks fresh pool handed free sound outstanding =>
        have live := waits.live
        rw [outstanding, Finset.mem_insert] at live
        obtain rfl : pTimer = fresh := live.resolve_right touches
        have scheduled := waits.scheduled
        simp only [setLedger_ledger, Function.update_self, Bool.false_eq_true] at scheduled
    | scheduled other request current rand timer heap live armed room inserted =>
        obtain rfl : other = pTimer := touches
        dsimp only
        rw [inserted.contents]
        exact Multiset.mem_cons_self _ _
    | cancelled other live =>
        obtain rfl : other = pTimer := touches
        have active := waits.active
        simp only [cancel_timers_self, reduceCtorEq] at active
    | restarted other current heap live requeued =>
        obtain rfl : other = pTimer := touches
        exact requeued.mem
    | stopped other result heap live removal =>
        obtain rfl : other = pTimer := touches
        have active := waits.active
        simp only [setTimerState_timers_self, reduceCtorEq] at active
    | deleted other heap live vacated =>
        obtain rfl : other = pTimer := touches
        exact absurd waits.live (Finset.notMem_erase _ _)
    | rested current => exact touches.mem
    | fired current top heap onTop =>
        obtain rfl := touches.unique onTop
        have active := waits.active
        simp only [send_timers, setTimer_timers, Function.update_self, Timer.expired,
          reduceCtorEq] at active
    | revived current top heap onTop idle count contents =>
        dsimp only
        rw [contents]
        exact touches.mem
    | ignored position current envelope =>
        exact noneLost pTimer ⟨waits.live, waits.scheduled, waits.active⟩
    | rearmed position current envelope heap queued live rearms room inserted =>
        obtain rfl := touches.named queued
        dsimp only
        rw [inserted.contents]
        exact Multiset.mem_cons_self _ _
    | retired position current envelope heap queued live retires vacated =>
        obtain rfl := touches.named queued
        exact absurd waits.live (Finset.notMem_erase _ _)
  · have frame := transition.untouched touches
    have waited : system.Waits pTimer :=
      ⟨frame.live.mp waits.live, frame.ledger ▸ waits.scheduled, frame.timer ▸ waits.active⟩
    have held := noneLost pTimer waited
    have stays : ∀ searched ∈ system.searched action, ¬ system.minHeap.Drops searched := by
      intro searched searches drops
      refine kept ⟨searched, searches, drops, pTimer, ?_, waited⟩
      rw [contents_eq_singleton drops.1, Multiset.mem_singleton] at held
      exact held.symm
    rw [← occurrences_pos_iff, transition.occurrences_kept touches stays]
    exact occurrences_pos_iff.mpr held

/-- A waiting timer that a search drops still waits, out of the heap. -/
theorem Transition.lost (transition : Transition (timerPool pShm) system action next)
    (drops : system.DropsWaiting action) : ¬ next.NoneLost := by
  obtain ⟨searched, searches, astray, alone, top, waited⟩ := drops
  have different : alone ≠ searched := fun same => astray.2.1 (same ▸ top)
  have frame := transition.untouched fun touches =>
    different (searched_touches searches touches)
  have waits : next.Waits alone :=
    ⟨frame.live.mpr waited.live, frame.ledger ▸ waited.scheduled, frame.timer ▸ waited.active⟩
  exact fun noneLost => transition.notMem_of_drops searches astray different (noneLost alone waits)

/-- In every run, no waiting timer is ever missing from the heap exactly when no step
drops the one waiting timer the heap holds. -/
theorem noneLost_iff {actions : List Action} {final : TimerSystem}
    (executed : exec (TimerSystem.step (timerPool pShm)) (initial (timerPool pShm)) actions =
      some final) :
    Always (TimerSystem.step (timerPool pShm)) NoneLost (initial (timerPool pShm)) actions ↔
      Along (TimerSystem.step (timerPool pShm)) (fun state action => ¬ state.DropsWaiting action)
        (initial (timerPool pShm)) actions := by
  have start : (initial (timerPool pShm)).NoneLost := fun _ waits =>
    absurd waits.live (Finset.notMem_empty _)
  refine always_iff_along (fun _ _ => True)
    (fun state => state.WellFormed pShm ∧ state.NoneLost) (fun _ holds => holds.2) ?_
    ⟨initial_wellFormed pShm, start⟩ (along_of_forall fun _ _ _ => trivial) executed
  rintro state action next ⟨wellFormed, noneLost⟩ _ taken
  have transition := step_transition wellFormed taken
  refine ⟨fun kept => ⟨transition.wellFormed wellFormed, transition.noneLost noneLost kept⟩, ?_⟩
  exact fun held drops => transition.lost drops held

/-- A periodic timer fires and is delivered while another is stopped and deleted. -/
theorem noneLost_two : Always (TimerSystem.step (timerPool 0)) NoneLost (initial (timerPool 0))
    [.new none, .new none,
      .schedule (timerAt 0) (.schedulePeriodicAtTimeout (some 0) 5 0) 0 0,
      .schedule (timerAt 1) (.scheduleOneShotAtTimeout (some 1) 9 0) 0 0,
      .timerTask 5, .deliver 0 5, .stop (timerAt 0), .delete (timerAt 1)] := by
  have runs : (exec (TimerSystem.step (timerPool 0)) (initial (timerPool 0))
      [.new none, .new none,
        .schedule (timerAt 0) (.schedulePeriodicAtTimeout (some 0) 5 0) 0 0,
        .schedule (timerAt 1) (.scheduleOneShotAtTimeout (some 1) 9 0) 0 0,
        .timerTask 5, .deliver 0 5, .stop (timerAt 0), .delete (timerAt 1)]).isSome := by
    decide +kernel
  obtain ⟨final, executed⟩ := Option.isSome_iff_exists.mp runs
  exact (noneLost_iff executed).mpr (by decide +kernel)

/-- Stopping and then deleting a timer drops another one, which still waits. -/
theorem active_timer_dropped : ∃ final,
    exec (TimerSystem.step (timerPool 0)) (initial (timerPool 0))
      [.new (some (.Test, .Test)), .new (some (.Test, .Test)),
        .schedule (timerAt 1) (.scheduleOneShotAtTimeout (some 1) 5 0) 0 0,
        .schedule (timerAt 0) (.scheduleOneShotAtTimeout (some 0) 9 0) 0 0,
        .stop (timerAt 0), .delete (timerAt 0)] = some final ∧
      final.Waits (timerAt 1) ∧ some (timerAt 1) ∉ final.minHeap.contents ∧ ¬ final.NoneLost := by
  have ran : (exec (TimerSystem.step (timerPool 0)) (initial (timerPool 0))
      [.new (some (.Test, .Test)), .new (some (.Test, .Test)),
        .schedule (timerAt 1) (.scheduleOneShotAtTimeout (some 1) 5 0) 0 0,
        .schedule (timerAt 0) (.scheduleOneShotAtTimeout (some 0) 9 0) 0 0,
        .stop (timerAt 0), .delete (timerAt 0)]).map (fun final =>
          (decide (final.Waits (timerAt 1)), final.occurrences (timerAt 1))) =
        some (true, 0) := by
    decide +kernel
  obtain ⟨final, executed, evaluated⟩ := Option.map_eq_some_iff.mp ran
  rw [Prod.mk.injEq, decide_eq_true_eq] at evaluated
  obtain ⟨waits, absent⟩ := evaluated
  have missing : some (timerAt 1) ∉ final.minHeap.contents := by
    rw [← occurrences_pos_iff, absent]
    exact Nat.lt_irrefl 0
  exact ⟨final, executed, waits, missing, fun noneLost => missing (noneLost _ waits)⟩

end TimerSystem

end TimerAndCallback
