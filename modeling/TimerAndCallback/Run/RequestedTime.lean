import TimerAndCallback.Run.HeapSafety

/-! # The instant a call asks for

`schedule` does not copy an absolute time into the timer: it reads the member `first`,
which holds what an earlier call left in the slot. A timeout is added to the clock
modulo 2^64. Where neither goes wrong the first message for the timer is not early.
-/

namespace TimerAndCallback

/-- The instant a call asks for, as an exact integer. A window names no instant. -/
def ScheduleRequest.instant (current : UInt64) : ScheduleRequest → Option Nat
  | .scheduleOneShotAtAbsoluteTime _ absoluteTime _ => some absoluteTime.toNat
  | .scheduleOneShotAtTimeout _ timeout _ => some (current.toNat + timeout.toNat)
  | .schedulePeriodicAtAbsoluteTime _ absoluteTime _ _ => some absoluteTime.toNat
  | .schedulePeriodicAtTimeout _ timeout _ => some (current.toNat + timeout.toNat)
  | _ => none

namespace Timer

/-- The member `first` is the absolute time already, or the timeout does not overflow. -/
def Agrees (timer : Timer) (current : UInt64) : ScheduleRequest → Prop
  | .scheduleOneShotAtAbsoluteTime _ absoluteTime _ => timer.first = absoluteTime
  | .scheduleOneShotAtTimeout _ timeout _ => current.toNat + timeout.toNat < 2 ^ 64
  | .schedulePeriodicAtAbsoluteTime _ absoluteTime _ _ => timer.first = absoluteTime
  | .schedulePeriodicAtTimeout _ timeout _ => current.toNat + timeout.toNat < 2 ^ 64
  | _ => False

/-- The instant of a timeout is exact unless it is past the end of the clock. -/
theorem convertTimerTimeout_exact (current timeout : UInt64) :
    (convertTimerTimeoutToAbsoluteTimeSinceEpoch current timeout).toNat =
        current.toNat + timeout.toNat ↔ current.toNat + timeout.toNat < 2 ^ 64 := by
  rw [convertTimerTimeoutToAbsoluteTimeSinceEpoch, UInt64.toNat_add]
  constructor
  · intro exactly
    rw [← exactly]
    exact Nat.mod_lt _ (Nat.two_pow_pos 64)
  · exact Nat.mod_eq_of_lt

variable {timer : Timer} {request : ScheduleRequest} {current : UInt64} {instant : Nat}

private theorem arm_isSome_of_instant (timer : Timer)
    (asked : request.instant current = some instant) (rand : UInt64) :
    (timer.arm request.arguments current rand).isSome := by
  cases request with
  | scheduleOneShotBetweenAbsoluteTimes | scheduleOneShotBetweenTimeouts => cases asked
  | _ => rfl

/-- The firing time that is worked out is the instant exactly where the call and the
timer agree. -/
theorem arm_whenToFire_iff {armed : Timer} {rand : UInt64}
    (asked : request.instant current = some instant)
    (ran : timer.arm request.arguments current rand = some armed) :
    armed.whenToFire.toNat = instant ↔ timer.Agrees current request := by
  cases request with
  | scheduleOneShotAtAbsoluteTime | schedulePeriodicAtAbsoluteTime =>
      cases asked
      cases ran
      exact UInt64.toNat_inj
  | scheduleOneShotAtTimeout | schedulePeriodicAtTimeout =>
      cases asked
      cases ran
      exact convertTimerTimeout_exact _ _
  | scheduleOneShotBetweenAbsoluteTimes | scheduleOneShotBetweenTimeouts => cases asked

end Timer

namespace TimerSystem

open TimerMinHeap Execution

/-- Of the steps that are about the timer only turns of the timer task are taken. -/
def LeavesToTimerTask (pTimer : UInt64) (system : TimerSystem) : Action → Prop
  | .timerTask _ => True
  | action => ¬ system.Touches pTimer action

/-- The first message for the timer after `sent` others is not sent before the instant. -/
def FirstSentAfter (pTimerPool : MemoryPool) (pTimer : UInt64) (sent instant : Nat)
    (system : TimerSystem) (action : Action) : Prop :=
  ∀ next ∈ system.step pTimerPool action,
    (system.ledger pTimer).timesSent = sent → (next.ledger pTimer).timesSent ≠ sent →
      instant ≤ next.clock.toNat

/-- The timer entered the heap with the instant as its firing time, and until the first
message for it is sent the timer task does not come early. -/
structure Honoured (pShm pTimer : UInt64) (instant : Nat) (scheduled : TimerSystem) : Prop where
  inHeap : some pTimer ∈ scheduled.minHeap.contents
  whenToFire : (scheduled.whenToFire pTimer).toNat = instant
  firstSent : ∀ actions,
    Along (step (timerPool pShm)) (LeavesToTimerTask pTimer) scheduled actions →
      Along (step (timerPool pShm))
        (FirstSentAfter (timerPool pShm) pTimer (scheduled.ledger pTimer).timesSent instant)
        scheduled actions

/-- Until its first message the timer is active and keeps its firing time. -/
structure Awaiting (pShm pTimer : UInt64) (sent instant : Nat) (system : TimerSystem) : Prop where
  wellFormed : system.WellFormed pShm
  live : pTimer ∈ system.pool.outstanding
  counted : sent ≤ (system.ledger pTimer).timesSent
  awaiting : (system.ledger pTimer).timesSent = sent →
    (system.timers pTimer).state = .Active ∧ (system.whenToFire pTimer).toNat = instant

variable {pShm pTimer : UInt64} {sent instant : Nat} {system next : TimerSystem}
  {action : Action}

/-- Every step that leaves the timer to the timer task keeps it awaiting its instant. -/
theorem Awaiting.transition (awaiting : system.Awaiting pShm pTimer sent instant)
    (leaves : system.LeavesToTimerTask pTimer action)
    (transition : Transition (timerPool pShm) system action next) :
    next.Awaiting pShm pTimer sent instant := by
  have wellFormed := transition.wellFormed awaiting.wellFormed
  by_cases touches : system.Touches pTimer action
  · cases transition with
    | rested current => exact ⟨wellFormed, awaiting.live, awaiting.counted, awaiting.awaiting⟩
    | fired current top heap onTop =>
        obtain rfl := touches.unique onTop
        have more := Nat.lt_succ_of_le awaiting.counted
        refine ⟨wellFormed, awaiting.live, ?_, fun same => ?_⟩
        · simp only [send_ledger, setTimer_ledger, Function.update_self]
          exact more.le
        · simp only [send_ledger, setTimer_ledger, Function.update_self] at same
          exact absurd same (Nat.ne_of_gt more)
    | revived current top heap onTop idle =>
        obtain rfl := touches.unique onTop
        refine ⟨wellFormed, awaiting.live, awaiting.counted, fun same => ?_⟩
        exact TimerState.noConfusion (idle.symm.trans (awaiting.awaiting same).1)
    | _ => exact absurd touches leaves
  · have frame := transition.untouched touches
    refine ⟨wellFormed, frame.live.mpr awaiting.live, ?_, ?_⟩
    · rw [frame.ledger]
      exact awaiting.counted
    · rw [frame.ledger, whenToFire, frame.timer]
      exact awaiting.awaiting

private theorem Awaiting.firstSentAfter (awaiting : system.Awaiting pShm pTimer sent instant)
    (leaves : system.LeavesToTimerTask pTimer action) :
    system.FirstSentAfter (timerPool pShm) pTimer sent instant action := by
  intro next taken unsent differs
  have transition := step_transition awaiting.wellFormed taken
  by_cases touches : system.Touches pTimer action
  · cases transition with
    | rested | revived => exact absurd unsent differs
    | fired current top heap onTop =>
        obtain rfl := touches.unique onTop
        rw [← (awaiting.awaiting unsent).2]
        exact onTop.due
    | _ => exact absurd touches leaves
  · rw [(transition.untouched touches).ledger] at differs
    exact absurd unsent differs

/-- A timer that enters the heap at the instant is not fired before it. -/
theorem honoured_of_whenToFire (wellFormed : system.WellFormed pShm)
    (live : pTimer ∈ system.pool.outstanding) (inHeap : some pTimer ∈ system.minHeap.contents)
    (active : (system.timers pTimer).state = .Active)
    (exactly : (system.whenToFire pTimer).toNat = instant) :
    system.Honoured pShm pTimer instant := by
  refine ⟨inHeap, exactly, fun actions leaves => ?_⟩
  have awaiting : system.Awaiting pShm pTimer (system.ledger pTimer).timesSent instant :=
    ⟨wellFormed, live, le_rfl, fun _ => ⟨active, exactly⟩⟩
  exact Along.of_invariant (Awaiting pShm pTimer (system.ledger pTimer).timesSent instant)
    (fun _ _ holds left => holds.firstSentAfter left)
    (fun _ _ _ holds left taken =>
      holds.transition left (step_transition holds.wellFormed taken)) awaiting leaves

/-- A call for one instant is taken and honoured exactly where the heap has room, and the
member `first` is the absolute time already or the timeout does not overflow. -/
theorem schedule_honoured_iff {request : ScheduleRequest} {current rand : UInt64}
    (wellFormed : system.WellFormed pShm) (live : pTimer ∈ system.pool.outstanding)
    (asked : request.instant current = some instant) :
    (∃ scheduled,
        system.step (timerPool pShm) (.schedule pTimer request current rand) = some scheduled ∧
          scheduled.Honoured pShm pTimer instant) ↔
      system.minHeap.numberOfTimersBeingManaged < MAX_NUMBER_OF_TIMERS ∧
        (system.timers pTimer).Agrees current request := by
  constructor
  · rintro ⟨scheduled, ran, honoured⟩
    cases step_transition wellFormed ran with
    | scheduled _ _ _ _ timer heap _ armed room inserted =>
        refine ⟨room, (Timer.arm_whenToFire_iff asked armed).mp ?_⟩
        have exactly := honoured.whenToFire
        simp only [whenToFire, setLedger_timers, setTimer_timers, Function.update_self] at exactly
        exact exactly
  · rintro ⟨room, agrees⟩
    obtain ⟨timer, armed⟩ :=
      Option.isSome_iff_exists.mp ((system.timers pTimer).arm_isSome_of_instant asked rand)
    obtain ⟨heap, inserted, ran⟩ := schedule_taken wellFormed live armed room
    refine ⟨_, ran, honoured_of_whenToFire (wellFormed.step ran) live ?_ ?_ ?_⟩
    · dsimp only
      rw [inserted.contents]
      exact Multiset.mem_cons_self _ _
    · simp only [setLedger_timers, setTimer_timers, Function.update_self]
      exact (Timer.arm_armed armed).state
    · simp only [whenToFire, setLedger_timers, setTimer_timers, Function.update_self]
      exact (Timer.arm_whenToFire_iff asked armed).mpr agrees

/-- Two timers, the first of them scheduled. -/
theorem second_ready : ∃ system, Reached 0 system ∧ timerAt 1 ∈ system.pool.outstanding ∧
    system.minHeap.numberOfTimersBeingManaged < MAX_NUMBER_OF_TIMERS := by
  let front : List Action :=
    [.new none, .new none, .schedule (timerAt 0) (.scheduleOneShotAtTimeout (some 0) 5 0) 0 0]
  have prepared : (exec (step (timerPool 0)) (initial (timerPool 0)) front).map (fun system =>
      decide (timerAt 1 ∈ system.pool.outstanding ∧
        system.minHeap.numberOfTimersBeingManaged < MAX_NUMBER_OF_TIMERS)) = some true := by
    decide +kernel
  obtain ⟨system, toSystem, evaluated⟩ := Option.map_eq_some_iff.mp prepared
  exact ⟨system, ⟨front, toSystem⟩, decide_eq_true_eq.mp evaluated⟩

/-- A timeout counted from a clock that is not zero, with another timer in the heap. -/
theorem schedule_honoured_second : ∃ system,
    Reached 0 system ∧ ∃ scheduled,
      system.step (timerPool 0)
          (.schedule (timerAt 1) (.schedulePeriodicAtTimeout (some 1) 7 2) 3 0) = some scheduled ∧
        scheduled.Honoured 0 (timerAt 1) 10 := by
  obtain ⟨system, reached, live, room⟩ := second_ready
  have representable : (3 : UInt64).toNat + (7 : UInt64).toNat < 2 ^ 64 := by decide
  exact ⟨system, reached, (schedule_honoured_iff reached.wellFormed live rfl).mpr
    ⟨room, representable⟩⟩

/-- On a new timer the absolute time 500 is replaced by zero, and the message for it is
sent at the next turn of the timer task. -/
theorem absolute_time_ignored : ∃ system scheduled fired,
    Reached 0 system ∧ timerAt 0 ∈ system.pool.outstanding ∧
      system.step (timerPool 0)
        (.schedule (timerAt 0) (.scheduleOneShotAtAbsoluteTime (some 0) 500 0) 3 0) =
          some scheduled ∧
      scheduled.step (timerPool 0) (.timerTask 4) = some fired ∧
      scheduled.whenToFire (timerAt 0) = 0 ∧ (scheduled.ledger (timerAt 0)).timesSent = 0 ∧
      (fired.ledger (timerAt 0)).timesSent = 1 ∧
      ¬ scheduled.Honoured 0 (timerAt 0) 500 := by
  let request : ScheduleRequest := .scheduleOneShotAtAbsoluteTime (some 0) 500 0
  have live : (exec (step (timerPool 0)) (initial (timerPool 0)) [.new none]).map (fun system =>
      decide (timerAt 0 ∈ system.pool.outstanding)) = some true := by
    decide +kernel
  have early : (exec (step (timerPool 0)) (initial (timerPool 0))
      ([.new none] ++ [.schedule (timerAt 0) request 3 0])).map (fun scheduled =>
        (scheduled.whenToFire (timerAt 0), (scheduled.ledger (timerAt 0)).timesSent)) =
      some (0, 0) := by
    decide +kernel
  have sent : (exec (step (timerPool 0)) (initial (timerPool 0))
      ([.new none] ++ [.schedule (timerAt 0) request 3 0] ++ [.timerTask 4])).map (fun fired =>
        (fired.ledger (timerAt 0)).timesSent) = some 1 := by
    decide +kernel
  obtain ⟨fired, executed, once⟩ := Option.map_eq_some_iff.mp sent
  obtain ⟨scheduled, toScheduled, fires⟩ := exec_append_eq_some.mp executed
  obtain ⟨system, toSystem, ran⟩ := exec_append_eq_some.mp toScheduled
  rw [exec_singleton] at ran fires
  rw [toSystem, Option.map_some, Option.some.injEq, decide_eq_true_eq] at live
  rw [toScheduled, Option.map_some, Option.some.injEq, Prod.mk.injEq] at early
  refine ⟨system, scheduled, fired, ⟨[.new none], toSystem⟩, live, ran, fires, early.1, early.2,
    once, fun honoured => ?_⟩
  have exactly := honoured.whenToFire
  rw [early.1] at exactly
  exact absurd exactly (by decide)

end TimerSystem

end TimerAndCallback
