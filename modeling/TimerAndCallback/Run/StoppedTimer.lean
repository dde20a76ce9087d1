import TimerAndCallback.Run.Frame

/-! # Stopped timers

Stopping a timer takes it out of the heap and leaves the messages alone. It stays
silent if it has no callback, or if no message for it is queued and the search
takes out the only entry it has in the heap.
-/

namespace TimerAndCallback

namespace TimerSystem

open TimerMinHeap Execution

/-- Steps that neither restart, schedule nor delete the timer. -/
def LeavesStopped (pTimer : UInt64) : Action → Prop
  | .schedule other _ _ _ => other ≠ pTimer
  | .restart other _ => other ≠ pTimer
  | .delete other => other ≠ pTimer
  | _ => True

instance (pTimer : UInt64) (action : Action) : Decidable (LeavesStopped pTimer action) :=
  match action with
  | .new .. | .schedule .. | .cancel .. | .restart .. | .stop .. | .delete .. | .timerTask ..
  | .deliver .. => by
      unfold LeavesStopped
      infer_instance

/-- The callback is gone, or there is nothing left that could trigger it once the
timer is stopped. -/
def Stoppable (pTimer : UInt64) (system : TimerSystem) : Prop :=
  (system.timers pTimer).pCb = none ∨
    system.inFlight pTimer = 0 ∧ system.occurrences pTimer ≤ 1 ∧ ¬ system.minHeap.Misses pTimer

instance (pTimer : UInt64) (system : TimerSystem) : Decidable (system.Stoppable pTimer) := by
  unfold Stoppable
  infer_instance

/-- The timer is allocated, and has no callback or neither a message nor a heap entry. -/
structure Silenced (pShm pTimer : UInt64) (triggered : Nat) (system : TimerSystem) : Prop where
  wellFormed : system.WellFormed pShm
  live : pTimer ∈ system.pool.outstanding
  untriggered : (system.ledger pTimer).timesTriggered = triggered
  silent : (system.timers pTimer).pCb = none ∨
    system.inFlight pTimer = 0 ∧ system.occurrences pTimer = 0

variable {pShm pTimer : UInt64} {triggered : Nat} {system next : TimerSystem} {action : Action}

/-- A timer that is untouched stays silenced. -/
theorem Silenced.untouched (silenced : system.Silenced pShm pTimer triggered)
    (wellFormed : next.WellFormed pShm) (frame : Untouched pTimer system next) :
    next.Silenced pShm pTimer triggered where
  wellFormed := wellFormed
  live := frame.live.mpr silenced.live
  untriggered := frame.ledger ▸ silenced.untriggered
  silent := by
    rw [frame.timer, frame.inFlight]
    refine silenced.silent.imp_right fun ⟨unqueued, absent⟩ => ⟨unqueued, ?_⟩
    exact Nat.le_zero.mp (absent ▸ frame.occurrences)

/-- The timer task and the deliveries do not trigger a silenced timer. -/
theorem Silenced.step (silenced : system.Silenced pShm pTimer triggered)
    (leaves : LeavesStopped pTimer action)
    (taken : system.step (timerPool pShm) action = some next) :
    next.Silenced pShm pTimer triggered := by
  have transition := step_transition silenced.wellFormed taken
  have wellFormed := transition.wellFormed silenced.wellFormed
  by_cases touches : system.Touches pTimer action
  · cases transition with
    | created => exact absurd silenced.live touches
    | scheduled => exact absurd touches leaves
    | cancelled other live =>
        obtain rfl : other = pTimer := touches
        refine ⟨wellFormed, live, silenced.untriggered, Or.inl ?_⟩
        simp only [cancel_timers_self]
    | restarted => exact absurd touches leaves
    | stopped other result heap live removal =>
        obtain rfl : other = pTimer := touches
        refine ⟨wellFormed, live, silenced.untriggered, ?_⟩
        rcases silenced.silent with noCallback | ⟨unqueued, absent⟩
        · apply Or.inl
          simp only [setTimerState_timers_self]
          exact noCallback
        · exact Or.inr ⟨unqueued, Nat.le_zero.mp (absent ▸ removal.occurrences_le _)⟩
    | deleted => exact absurd touches leaves
    | rested current =>
        exact ⟨wellFormed, silenced.live, silenced.untriggered, silenced.silent⟩
    | fired current top heap onTop =>
        obtain rfl := touches.unique onTop
        rcases silenced.silent with noCallback | ⟨_, absent⟩
        · refine ⟨wellFormed, silenced.live, ?_, Or.inl ?_⟩
          · simp only [send_ledger, setTimer_ledger, Function.update_self]
            exact silenced.untriggered
          · simp only [send_timers, setTimer_timers, Function.update_self]
            exact noCallback
        · exact absurd touches.occurrences_pos (absent ▸ Nat.lt_irrefl 0)
    | revived current top heap onTop =>
        obtain rfl := touches.unique onTop
        rcases silenced.silent with noCallback | ⟨_, absent⟩
        · refine ⟨wellFormed, silenced.live, silenced.untriggered, Or.inl ?_⟩
          simp only [setTimer_timers_self]
          exact noCallback
        · exact absurd touches.occurrences_pos (absent ▸ Nat.lt_irrefl 0)
    | ignored position current envelope queued =>
        refine ⟨wellFormed, silenced.live, silenced.untriggered, silenced.silent.imp_right ?_⟩
        rintro ⟨unqueued, _⟩
        exact absurd touches.inFlight_pos (unqueued ▸ Nat.lt_irrefl 0)
    | rearmed position current envelope heap queued live rearms =>
        obtain rfl := touches.named queued
        rcases silenced.silent with noCallback | ⟨unqueued, _⟩
        · rw [Timer.Rearms, noCallback] at rearms
          exact absurd rearms.1 Bool.false_ne_true
        · exact absurd touches.inFlight_pos (unqueued ▸ Nat.lt_irrefl 0)
    | retired position current envelope heap queued live retires =>
        obtain rfl := touches.named queued
        rcases silenced.silent with noCallback | ⟨unqueued, _⟩
        · rw [Timer.Retires, noCallback] at retires
          exact absurd retires.1 Bool.false_ne_true
        · exact absurd touches.inFlight_pos (unqueued ▸ Nat.lt_irrefl 0)
  · exact silenced.untouched wellFormed (transition.untouched touches)

/-- What stopping a stoppable timer leaves. -/
theorem stop_silenced (wellFormed : system.WellFormed pShm) (stoppable : system.Stoppable pTimer)
    (ran : system.step (timerPool pShm) (.stop pTimer) = some next) :
    next.Silenced pShm pTimer (next.ledger pTimer).timesTriggered := by
  have kept := wellFormed.step ran
  cases step_transition wellFormed ran with
  | stopped _ result heap live removal =>
      refine ⟨kept, live, rfl, ?_⟩
      rcases stoppable with noCallback | ⟨unqueued, once, within⟩
      · apply Or.inl
        simp only [setTimerState_timers_self]
        exact noCallback
      · exact Or.inr ⟨unqueued, removal.occurrences_self once within⟩

/-- A stoppable timer that is stopped is never triggered again, in any continuation
that neither restarts, schedules nor deletes it. -/
theorem stopped_staysSilent {stopped : TimerSystem} {actions : List Action}
    (reached : Reached pShm system) (stoppable : system.Stoppable pTimer)
    (ran : system.step (timerPool pShm) (.stop pTimer) = some stopped)
    (leaves : ∀ action ∈ actions, LeavesStopped pTimer action) :
    Always (TimerSystem.step (timerPool pShm))
      (fun state => (state.ledger pTimer).timesTriggered =
        (stopped.ledger pTimer).timesTriggered) stopped actions :=
  Always.of_along _ (fun _ silenced => silenced.untriggered)
    (fun _ _ _ silenced left taken => silenced.step left taken)
    (stop_silenced reached.wellFormed stoppable ran)
    (along_of_forall fun action member _ => leaves action member)

/-- A one-shot timer in the last of three slots, stopped before it is due. -/
theorem stopped_staysSilent_last : ∃ system stopped,
    Reached 0 system ∧ system.step (timerPool 0) (.stop (timerAt 2)) = some stopped ∧
      Always (TimerSystem.step (timerPool 0))
        (fun state => (state.ledger (timerAt 2)).timesTriggered =
          (stopped.ledger (timerAt 2)).timesTriggered) stopped
        [.timerTask 9, .timerTask 9, .deliver 0 9, .deliver 0 9] := by
  let front : List Action :=
    [.new none, .new none, .new none,
      .schedule (timerAt 0) (.scheduleOneShotAtTimeout (some 0) 5 0) 0 0,
      .schedule (timerAt 1) (.scheduleOneShotAtTimeout (some 1) 6 0) 0 0,
      .schedule (timerAt 2) (.scheduleOneShotAtTimeout (some 2) 7 0) 0 0]
  have runs : (exec (TimerSystem.step (timerPool 0)) (initial (timerPool 0))
      (front ++ [.stop (timerAt 2)])).isSome := by
    decide +kernel
  have stoppable : (exec (TimerSystem.step (timerPool 0)) (initial (timerPool 0)) front).map
      (fun system => decide (system.Stoppable (timerAt 2))) = some true := by
    decide +kernel
  obtain ⟨stopped, executed⟩ := Option.isSome_iff_exists.mp runs
  obtain ⟨system, toSystem, ran⟩ := exec_append_eq_some.mp executed
  rw [exec_singleton] at ran
  rw [toSystem, Option.map_some, Option.some.injEq, decide_eq_true_eq] at stoppable
  exact ⟨system, stopped, ⟨front, toSystem⟩, ran,
    stopped_staysSilent ⟨front, toSystem⟩ stoppable ran (by decide +kernel)⟩

/-- A timer stopped while its message is queued is triggered by the delivery. -/
theorem stopped_timer_triggered : ∃ system stopped,
    Reached 0 system ∧ (system.ledger (timerAt 0)).scheduled = true ∧
      system.step (timerPool 0) (.stop (timerAt 0)) = some stopped ∧
      LeavesStopped (timerAt 0) (.deliver 0 6) ∧
      ¬ Always (TimerSystem.step (timerPool 0))
        (fun state => (state.ledger (timerAt 0)).timesTriggered =
          (stopped.ledger (timerAt 0)).timesTriggered) stopped [.deliver 0 6] := by
  let front : List Action :=
    [.new none, .new none,
      .schedule (timerAt 0) (.schedulePeriodicAtTimeout (some 0) 5 0) 0 0,
      .schedule (timerAt 1) (.scheduleOneShotAtTimeout (some 1) 50 0) 0 0, .timerTask 5]
  have scheduled : (exec (TimerSystem.step (timerPool 0)) (initial (timerPool 0)) front).map
      (fun system => (system.ledger (timerAt 0)).scheduled) = some true := by
    decide +kernel
  have quiet : (exec (TimerSystem.step (timerPool 0)) (initial (timerPool 0))
      (front ++ [.stop (timerAt 0)])).map
        (fun system => (system.ledger (timerAt 0)).timesTriggered) = some 0 := by
    decide +kernel
  have triggered : (exec (TimerSystem.step (timerPool 0)) (initial (timerPool 0))
      (front ++ [.stop (timerAt 0)] ++ [.deliver 0 6])).map
        (fun system => (system.ledger (timerAt 0)).timesTriggered) = some 1 := by
    decide +kernel
  obtain ⟨final, executed, once⟩ := Option.map_eq_some_iff.mp triggered
  obtain ⟨stopped, toStopped, after⟩ := exec_append_eq_some.mp executed
  obtain ⟨system, toSystem, ran⟩ := exec_append_eq_some.mp toStopped
  rw [exec_singleton] at ran
  rw [toSystem, Option.map_some, Option.some.injEq] at scheduled
  rw [toStopped, Option.map_some, Option.some.injEq] at quiet
  refine ⟨system, stopped, ⟨front, toSystem⟩, scheduled, ran, trivial, fun silent => ?_⟩
  have same := silent [.deliver 0 6] final (List.prefix_refl _) after
  omega

end TimerSystem

end TimerAndCallback
