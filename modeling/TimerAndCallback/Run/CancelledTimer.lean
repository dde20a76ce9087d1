import TimerAndCallback.Run.Frame

/-! # Cancelled timers

A cancelled timer stays in the heap. It is dead for as long as nobody restarts it
and the timer task does not find it due on top: either of these makes it active
again, callback or not.
-/

namespace TimerAndCallback

namespace TimerSystem

open Execution

/-- Steps that neither schedule the timer nor delete it. -/
def LeavesCancelled (pTimer : UInt64) : Action → Prop
  | .schedule other _ _ _ => other ≠ pTimer
  | .delete other => other ≠ pTimer
  | _ => True

/-- Steps that neither restart the timer nor find it due on top. -/
def LeavesDormant (pTimer : UInt64) (system : TimerSystem) : Action → Prop
  | .restart other _ => other ≠ pTimer
  | .timerTask current => ¬ system.DueOnTop pTimer current
  | _ => True

instance (pTimer : UInt64) (action : Action) : Decidable (LeavesCancelled pTimer action) :=
  match action with
  | .new .. | .schedule .. | .cancel .. | .restart .. | .stop .. | .delete .. | .timerTask ..
  | .deliver .. => by
      unfold LeavesCancelled
      infer_instance

instance (pTimer : UInt64) (system : TimerSystem) (action : Action) :
    Decidable (system.LeavesDormant pTimer action) :=
  match action with
  | .new .. | .schedule .. | .cancel .. | .restart .. | .stop .. | .delete .. | .timerTask ..
  | .deliver .. => by
      unfold LeavesDormant
      infer_instance

/-- The timer is never active, no expiry message is sent for it, and between any two
states it does not come into the heap. -/
structure StaysDead (pShm pTimer : UInt64) (cancelled : TimerSystem) (actions : List Action) :
    Prop where
  inactive : Always (step (timerPool pShm))
    (fun state => (state.timers pTimer).state ≠ .Active) cancelled actions
  unsent : Always (step (timerPool pShm))
    (fun state => (state.ledger pTimer).timesSent = (cancelled.ledger pTimer).timesSent)
    cancelled actions
  outside : ∀ first second rest middle final, actions = first ++ second ++ rest →
    exec (step (timerPool pShm)) cancelled first = some middle →
    exec (step (timerPool pShm)) middle second = some final →
    final.occurrences pTimer ≤ middle.occurrences pTimer

/-- The timer is allocated, idle and without a callback; its heap entries and its
messages so far are bounded. -/
structure Dormant (pShm pTimer : UInt64) (bound sent : Nat) (system : TimerSystem) : Prop where
  wellFormed : system.WellFormed pShm
  live : pTimer ∈ system.pool.outstanding
  silent : (system.timers pTimer).pCb = none
  idle : (system.timers pTimer).state = .Idle
  occurrences : system.occurrences pTimer ≤ bound
  unsent : (system.ledger pTimer).timesSent = sent

variable {pShm pTimer : UInt64} {bound sent : Nat} {system next : TimerSystem} {action : Action}

/-- A timer that is untouched stays dormant. -/
theorem Dormant.untouched (dormant : system.Dormant pShm pTimer bound sent)
    (wellFormed : next.WellFormed pShm) (frame : Untouched pTimer system next) :
    next.Dormant pShm pTimer bound sent where
  wellFormed := wellFormed
  live := frame.live.mpr dormant.live
  silent := frame.timer ▸ dormant.silent
  idle := frame.timer ▸ dormant.idle
  occurrences := frame.occurrences.trans dormant.occurrences
  unsent := frame.ledger ▸ dormant.unsent

/-- A delivery for a timer without a callback only takes the message out. -/
theorem Dormant.step (dormant : system.Dormant pShm pTimer bound sent)
    (leaves : LeavesCancelled pTimer action) (admitted : system.LeavesDormant pTimer action)
    (taken : system.step (timerPool pShm) action = some next) :
    next.Dormant pShm pTimer bound sent := by
  have transition := step_transition dormant.wellFormed taken
  have wellFormed := transition.wellFormed dormant.wellFormed
  by_cases touches : system.Touches pTimer action
  · have noCallback : ¬ (system.timers pTimer).pCb.isSome := by
      rw [dormant.silent]
      exact Bool.false_ne_true
    cases transition with
    | created => exact absurd dormant.live touches
    | scheduled => exact absurd touches leaves
    | cancelled other live =>
        obtain rfl : other = pTimer := touches
        refine ⟨wellFormed, live, ?_, ?_, dormant.occurrences, dormant.unsent⟩
        all_goals simp only [cancel_timers_self]
    | restarted => exact absurd touches admitted
    | stopped other result heap live removal =>
        obtain rfl : other = pTimer := touches
        refine ⟨wellFormed, live, ?_, ?_, (removal.occurrences_le _).trans dormant.occurrences,
          dormant.unsent⟩
        all_goals simp only [setTimerState_timers_self]
        exact dormant.silent
    | deleted => exact absurd touches leaves
    | rested current => exact absurd touches admitted
    | fired current => exact absurd touches admitted
    | revived current => exact absurd touches admitted
    | ignored position current envelope =>
        exact ⟨wellFormed, dormant.live, dormant.silent, dormant.idle, dormant.occurrences,
          dormant.unsent⟩
    | rearmed position current envelope heap queued live rearms =>
        obtain rfl := touches.named queued
        exact absurd rearms.1 noCallback
    | retired position current envelope heap queued live retires =>
        obtain rfl := touches.named queued
        exact absurd retires.1 noCallback
  · exact dormant.untouched wellFormed (transition.untouched touches)

/-- Restarting a dormant timer, or finding it due on top, makes it active. -/
theorem Dormant.forces (dormant : system.Dormant pShm pTimer bound sent)
    (taken : system.step (timerPool pShm) action = some next)
    (inactive : (next.timers pTimer).state ≠ .Active) : system.LeavesDormant pTimer action := by
  have transition := step_transition dormant.wellFormed taken
  cases transition with
  | restarted other current heap live requeued =>
      rintro rfl
      apply inactive
      simp only [setTimer_timers_self, Timer.requeued]
  | rested current done =>
      intro onTop
      exact TimerState.noConfusion (dormant.idle.symm.trans (done pTimer onTop))
  | fired current top heap onTop active =>
      intro due
      cases onTop.holds.symm.trans due.holds
      exact TimerState.noConfusion (dormant.idle.symm.trans active)
  | revived current top heap onTop =>
      intro due
      cases onTop.holds.symm.trans due.holds
      apply inactive
      simp only [setTimer_timers_self, Timer.requeued]
  | _ => trivial

/-- What cancelling leaves. -/
theorem cancel_dormant (wellFormed : system.WellFormed pShm)
    (ran : system.step (timerPool pShm) (.cancel pTimer) = some next) :
    next.Dormant pShm pTimer (next.occurrences pTimer) (next.ledger pTimer).timesSent := by
  have kept := wellFormed.step ran
  cases step_transition wellFormed ran with
  | cancelled _ live =>
      refine ⟨kept, live, ?_, ?_, le_rfl, rfl⟩
      all_goals simp only [cancel_timers_self]

/-- A run of steps that leave the timer dormant. -/
theorem Dormant.exec {actions : List Action} {final : TimerSystem}
    (dormant : system.Dormant pShm pTimer bound sent)
    (along : Along (TimerSystem.step (timerPool pShm))
      (fun state action => LeavesCancelled pTimer action ∧ state.LeavesDormant pTimer action)
      system actions)
    (executed : Execution.exec (TimerSystem.step (timerPool pShm)) system actions = some final) :
    final.Dormant pShm pTimer bound sent :=
  exec_invariant (fun _ _ _ holds admitted taken => holds.step admitted.1 admitted.2 taken)
    dormant along executed

/-- In every continuation that neither schedules nor deletes a cancelled timer, it
stays dead exactly when it is not restarted and the timer task does not find it due
on top. -/
theorem cancelled_staysDead_iff {cancelled final : TimerSystem} {actions : List Action}
    (reached : Reached pShm system)
    (ran : system.step (timerPool pShm) (.cancel pTimer) = some cancelled)
    (leaves : ∀ action ∈ actions, LeavesCancelled pTimer action)
    (executed : exec (TimerSystem.step (timerPool pShm)) cancelled actions = some final) :
    StaysDead pShm pTimer cancelled actions ↔
      Along (TimerSystem.step (timerPool pShm)) (LeavesDormant pTimer) cancelled actions := by
  have dormant := cancel_dormant reached.wellFormed ran
  have within : Along (TimerSystem.step (timerPool pShm))
      (fun _ action => LeavesCancelled pTimer action) cancelled actions :=
    along_of_forall fun action member _ => leaves action member
  constructor
  · intro dead
    refine (always_iff_along _ _ (fun state holds => ?_)
      (fun state action next holds left taken => ?_)
      dormant within executed).mp dead.inactive
    · rw [holds.idle]
      exact TimerState.noConfusion
    · exact ⟨fun admitted => holds.step left admitted taken, holds.forces taken⟩
  · intro admitted
    have along := within.and admitted
    have kept : ∀ (state : TimerSystem) (action : Action) (next : TimerSystem),
        state.Dormant pShm pTimer (cancelled.occurrences pTimer)
          (cancelled.ledger pTimer).timesSent →
        LeavesCancelled pTimer action ∧ state.LeavesDormant pTimer action →
        state.step (timerPool pShm) action = some next →
        next.Dormant pShm pTimer (cancelled.occurrences pTimer)
          (cancelled.ledger pTimer).timesSent :=
      fun _ _ _ holds admitted taken => holds.step admitted.1 admitted.2 taken
    refine ⟨Always.of_along _ (fun state holds => ?_) kept dormant along,
      Always.of_along _ (fun state holds => holds.unsent) kept dormant along, ?_⟩
    · rw [holds.idle]
      exact TimerState.noConfusion
    · rintro first second rest middle final rfl front back
      obtain ⟨alongFront, alongBack⟩ := along_append.mp (along_append.mp along).1
      have halfway := dormant.exec alongFront front
      have rebound : middle.Dormant pShm pTimer (middle.occurrences pTimer)
          (cancelled.ledger pTimer).timesSent := { halfway with occurrences := le_rfl }
      exact (rebound.exec (alongBack middle front) back).occurrences

/-- A cancelled timer below an earlier one, while that one fires. -/
theorem cancelled_staysDead_below : ∃ system cancelled,
    Reached 0 system ∧ system.step (timerPool 0) (.cancel (timerAt 1)) = some cancelled ∧
      StaysDead 0 (timerAt 1) cancelled [.timerTask 6, .deliver 0 7] := by
  let front : List Action :=
    [.new none, .new none,
      .schedule (timerAt 0) (.scheduleOneShotAtTimeout (some 0) 5 0) 0 0,
      .schedule (timerAt 1) (.schedulePeriodicAtTimeout (some 1) 8 0) 0 0]
  have runs : (exec (TimerSystem.step (timerPool 0)) (initial (timerPool 0))
      (front ++ [.cancel (timerAt 1)] ++ [.timerTask 6, .deliver 0 7])).isSome := by
    decide +kernel
  have along : Along (TimerSystem.step (timerPool 0)) (LeavesDormant (timerAt 1))
      (initial (timerPool 0)) (front ++ [.cancel (timerAt 1)] ++ [.timerTask 6, .deliver 0 7]) := by
    decide +kernel
  obtain ⟨final, executed⟩ := Option.isSome_iff_exists.mp runs
  obtain ⟨cancelled, toCancelled, after⟩ := exec_append_eq_some.mp executed
  obtain ⟨system, toSystem, ran⟩ := exec_append_eq_some.mp toCancelled
  rw [exec_singleton] at ran
  refine ⟨system, cancelled, ⟨front, toSystem⟩, ran, ?_⟩
  exact (cancelled_staysDead_iff ⟨front, toSystem⟩ ran (by decide +kernel) after).mpr
    ((along_append.mp along).2 cancelled toCancelled)

/-- A cancelled timer that is due on top is made active again. -/
theorem cancelled_timer_revived : ∃ system cancelled,
    Reached 0 system ∧ 0 < system.occurrences (timerAt 0) ∧
      system.step (timerPool 0) (.cancel (timerAt 0)) = some cancelled ∧
      LeavesCancelled (timerAt 0) (.timerTask 5) ∧
      ¬ StaysDead 0 (timerAt 0) cancelled [.timerTask 5] := by
  let front : List Action :=
    [.new none, .schedule (timerAt 0) (.scheduleOneShotAtTimeout (some 0) 5 0) 0 0]
  have held : (exec (TimerSystem.step (timerPool 0)) (initial (timerPool 0)) front).map
      (fun system => system.occurrences (timerAt 0)) = some 1 := by
    decide +kernel
  have revived : (exec (TimerSystem.step (timerPool 0)) (initial (timerPool 0))
      (front ++ [.cancel (timerAt 0)] ++ [.timerTask 5])).map
        (fun system => (system.timers (timerAt 0)).state) = some .Active := by
    decide +kernel
  obtain ⟨final, executed, active⟩ := Option.map_eq_some_iff.mp revived
  obtain ⟨cancelled, toCancelled, after⟩ := exec_append_eq_some.mp executed
  obtain ⟨system, toSystem, ran⟩ := exec_append_eq_some.mp toCancelled
  rw [exec_singleton] at ran
  rw [toSystem, Option.map_some, Option.some.injEq] at held
  refine ⟨system, cancelled, ⟨front, toSystem⟩, by omega, ran, trivial, fun dead => ?_⟩
  exact dead.inactive [.timerTask 5] final (List.prefix_refl _) after active

end TimerSystem

end TimerAndCallback
