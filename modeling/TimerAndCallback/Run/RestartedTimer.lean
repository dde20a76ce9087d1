import TimerAndCallback.Run.HeapSafety
import TimerAndCallback.Platform.TimerMinHeapRemoval

/-! # Restarting an active timer

`restart` adds the timeout that the timer holds to the current time. A timer
scheduled at a timeout holds that timeout when it is periodic; the one-shot call
stores whatever its uninitialised second time holds. The timer is added to the heap
whether or not it was found there.
-/

namespace TimerAndCallback

/-- The timeout of a request that names one as its first time. -/
def ScheduleRequest.atTimeout : ScheduleRequest → Option UInt64
  | .scheduleOneShotAtTimeout _ timeout _ => some timeout
  | .schedulePeriodicAtTimeout _ timeout _ => some timeout
  | .scheduleOneShotAtAbsoluteTime .. => none
  | .scheduleOneShotBetweenAbsoluteTimes .. => none
  | .scheduleOneShotBetweenTimeouts .. => none
  | .schedulePeriodicAtAbsoluteTime .. => none

/-- The second time of a one-shot request at a timeout, which is not initialised,
happens to be the timeout. -/
def ScheduleRequest.StoresTimeout : ScheduleRequest → Prop
  | .scheduleOneShotAtTimeout _ timeout dummy => dummy = timeout
  | _ => True

/-- Which entry points store the timeout that was asked for. -/
theorem ScheduleRequest.arguments_timeout_iff {request : ScheduleRequest} {timeout : UInt64}
    (requested : request.atTimeout = some timeout) :
    request.arguments.timeout = timeout ↔ request.StoresTimeout := by
  cases request with
  | scheduleOneShotAtTimeout pCb named dummy =>
      cases requested
      exact Iff.rfl
  | schedulePeriodicAtTimeout pCb named howManyTimesToFire =>
      cases requested
      exact iff_of_true rfl trivial
  | scheduleOneShotAtAbsoluteTime => cases requested
  | scheduleOneShotBetweenAbsoluteTimes => cases requested
  | scheduleOneShotBetweenTimeouts => cases requested
  | schedulePeriodicAtAbsoluteTime => cases requested

namespace Timer

/-- The members that a request wrote, and that firings and restarts keep. -/
structure ScheduledAs (request : ScheduleRequest) (timer : Timer) : Prop where
  type : timer.type = request.arguments.type
  howManyTimesToFire : timer.howManyTimesToFire = request.arguments.howManyTimesToFire
  timeout : timer.timeout = request.arguments.timeout

/-- A timer that is armed by a request is scheduled as it asks. -/
theorem arm_scheduledAs {timer armed : Timer} {request : ScheduleRequest} {timeout : UInt64}
    {current rand : UInt64} (requested : request.atTimeout = some timeout)
    (ran : timer.arm request.arguments current rand = some armed) : armed.ScheduledAs request := by
  obtain ⟨whenToFire, _, rfl⟩ := Option.map_eq_some_iff.mp ran
  cases request with
  | scheduleOneShotAtTimeout => exact ⟨rfl, rfl, rfl⟩
  | schedulePeriodicAtTimeout => exact ⟨rfl, rfl, rfl⟩
  | scheduleOneShotAtAbsoluteTime => cases requested
  | scheduleOneShotBetweenAbsoluteTimes => cases requested
  | scheduleOneShotBetweenTimeouts => cases requested
  | schedulePeriodicAtAbsoluteTime => cases requested

end Timer

namespace TimerSystem

open TimerMinHeap Execution

variable {system : TimerSystem} {pTimer : UInt64}

/-- The timer is in the heap once, due a timeout from now, and nothing else changed. -/
structure Restarted (pTimer timeout current : UInt64) (before after : TimerSystem) : Prop where
  once : after.occurrences pTimer = 1
  whenToFire : (after.timers pTimer).whenToFire.toNat = current.toNat + timeout.toNat
  state : (after.timers pTimer).state = .Active
  pCb : (after.timers pTimer).pCb = (before.timers pTimer).pCb
  others : ∀ other, other ≠ pTimer → after.occurrences other = before.occurrences other

/-- A timer of the heap that the search reaches is taken out once and added again. -/
theorem restart_reached (current : UInt64)
    (room : system.minHeap.numberOfTimersBeingManaged ≤ MAX_NUMBER_OF_TIMERS)
    (filled : system.minHeap.Filled system.minHeap.numberOfTimersBeingManaged)
    (active : (system.timers pTimer).state = .Active)
    (once : system.occurrences pTimer = 1) (reached : ¬ system.minHeap.Misses pTimer) :
    ∃ next, system.restart pTimer current = some next := by
  have member : some pTimer ∈ system.minHeap.contents := by
    rw [← occurrences_pos_iff]
    omega
  have inside : ¬ system.minHeap.Overruns pTimer := by
    rintro ⟨none, _⟩
    rw [contents_eq_zero none] at member
    exact Multiset.notMem_zero _ member
  let idle := system.setTimerState pTimer .Idle
  obtain ⟨result, middle, removed, removal⟩ :=
    removeFromHeap_answers idle.whenToFire room filled inside
  have gone := removal.occurrences_self once.le reached
  have fewer : middle.numberOfTimersBeingManaged < MAX_NUMBER_OF_TIMERS := by
    cases removal with
    | removed after found count contents => omega
    | missed => exact absurd member (Multiset.count_eq_zero.mp gone)
    | dropped after single other stale count => omega
  have searched : idle.removeFromHeap pTimer = some { idle with minHeap := middle } :=
    Option.map_eq_some_iff.mpr ⟨_, removed, rfl⟩
  unfold restart
  rw [if_pos active, searched, Option.bind_eq_bind, Option.bind_some]
  exact addToHeap_taken _ pTimer (removal.filled filled) fewer

/-- The timer on top of a heap of one is no stale pointer. -/
theorem not_drops_of_mem (member : some pTimer ∈ system.minHeap.contents) :
    ¬ system.minHeap.Drops pTimer := by
  rintro ⟨single, other, _⟩
  rw [contents_eq_singleton single, Multiset.mem_singleton] at member
  exact other member.symm

/-- Whether restarting an active timer that was scheduled at a timeout restarts it for
that timeout: the call must have stored it, and the timer must be in the heap once,
and not in the last slot of four or more. -/
theorem restart_restarted_iff {request : ScheduleRequest} {timeout current : UInt64}
    (requested : request.atTimeout = some timeout)
    (scheduled : (system.timers pTimer).ScheduledAs request)
    (active : (system.timers pTimer).state = .Active)
    (room : system.minHeap.numberOfTimersBeingManaged ≤ MAX_NUMBER_OF_TIMERS)
    (filled : system.minHeap.Filled system.minHeap.numberOfTimersBeingManaged)
    (member : some pTimer ∈ system.minHeap.contents)
    (representable : current.toNat + timeout.toNat < 2 ^ 64) :
    (∃ next, system.restart pTimer current = some next ∧
        Restarted pTimer timeout current system next) ↔
      request.StoresTimeout ∧ system.minHeap.contents.count (some pTimer) = 1 ∧
        ¬ (4 ≤ system.minHeap.numberOfTimersBeingManaged ∧
          system.minHeap.heap (system.minHeap.numberOfTimersBeingManaged - 1) =
            some pTimer) := by
  rw [← ScheduleRequest.arguments_timeout_iff requested]
  constructor
  · rintro ⟨next, ran, restarted⟩
    obtain ⟨heap, requeued, rfl⟩ := restart_cases ran room filled
    have due := restarted.whenToFire
    simp only [setTimer_timers_self, Timer.requeued,
      convertTimerTimeoutToAbsoluteTimeSinceEpoch, UInt64.toNat_add] at due
    have held : (system.timers pTimer).timeout = timeout := by
      apply UInt64.toNat_inj.mp
      have small := (system.timers pTimer).timeout.toNat_lt
      omega
    refine ⟨scheduled.timeout.symm.trans held, ?_⟩
    cases requeued with
    | added inactive => exact absurd active inactive
    | @moved result middle _ _ removal _ inserted =>
        have twice : heap.contents.count (some pTimer) = 1 := restarted.once
        rw [inserted.occurrences_self] at twice
        have gone : middle.contents.count (some pTimer) = 0 := by omega
        have atMost := removal.occurrences_ge
        have atLeast := Multiset.count_pos.mpr member
        refine ⟨by omega, fun missed => ?_⟩
        exact Multiset.count_eq_zero.mp gone (removal.occurrences_of_misses (by omega) missed)
  · rintro ⟨asked, once, reached⟩
    obtain ⟨next, ran⟩ := restart_reached current room filled active once reached
    obtain ⟨heap, requeued, rfl⟩ := restart_cases ran room filled
    have held : (system.timers pTimer).timeout = timeout := scheduled.timeout.trans asked
    refine ⟨_, ran, ?_, ?_, ?_, ?_, fun other different => ?_⟩
    · cases requeued with
      | added inactive => exact absurd active inactive
      | moved _ removal _ inserted =>
          exact inserted.once (removal.occurrences_self once.le reached)
    · simp only [setTimer_timers_self, Timer.requeued,
        convertTimerTimeoutToAbsoluteTimeSinceEpoch, UInt64.toNat_add, held]
      omega
    · simp only [setTimer_timers_self, Timer.requeued]
    · simp only [setTimer_timers_self, Timer.requeued]
    · exact requeued.occurrences_other different fun _ => not_drops_of_mem member

/-- A periodic timer alone in the heap, restarted before it is due. -/
theorem restart_restarted_periodic : ∃ system next,
    Reached 0 system ∧ system.restart (timerAt 0) 3 = some next ∧
      Restarted (timerAt 0) 5 3 system next := by
  let request : ScheduleRequest := .schedulePeriodicAtTimeout (some 0) 5 2
  let front : List Action := [.new none, .schedule (timerAt 0) request 0 0]
  have values : (exec (step (timerPool 0)) (initial (timerPool 0)) front).map (fun system =>
      ((system.timers (timerAt 0)).type, (system.timers (timerAt 0)).howManyTimesToFire,
        (system.timers (timerAt 0)).timeout, (system.timers (timerAt 0)).state,
        system.minHeap.numberOfTimersBeingManaged,
        system.minHeap.contents.count (some (timerAt 0)))) =
          some (.Periodic, 2, 5, .Active, 1, 1) := by
    decide +kernel
  obtain ⟨system, executed, values⟩ := Option.map_eq_some_iff.mp values
  simp only [Prod.mk.injEq] at values
  obtain ⟨type, howMany, timeout, active, single, once⟩ := values
  have reached : Reached 0 system := ⟨front, executed⟩
  have managed := reached.wellFormed.managed
  have few : ¬ (4 ≤ system.minHeap.numberOfTimersBeingManaged ∧
      system.minHeap.heap (system.minHeap.numberOfTimersBeingManaged - 1) =
        some (timerAt 0)) := fun missed => by omega
  have scheduled : (system.timers (timerAt 0)).ScheduledAs request := ⟨type, howMany, timeout⟩
  have requested : request.atTimeout = some 5 := rfl
  have member : some (timerAt 0) ∈ system.minHeap.contents := Multiset.count_pos.mp (by omega)
  have representable : (3 : UInt64).toNat + (5 : UInt64).toNat < 2 ^ 64 := by decide
  obtain ⟨next, ran, restarted⟩ := (restart_restarted_iff requested scheduled active managed.count
    managed.filled member representable).mpr ⟨trivial, once, few⟩
  exact ⟨system, next, reached, ran, restarted⟩

/-- A one-shot timer scheduled at a timeout of 5 with 0 for the second time is due at
once when it is restarted. -/
theorem restart_one_shot_due_at_once : ∃ system next,
    Reached 0 system ∧
      (system.timers (timerAt 0)).ScheduledAs (.scheduleOneShotAtTimeout (some 0) 5 0) ∧
      (system.timers (timerAt 0)).state = .Active ∧
      system.minHeap.contents.count (some (timerAt 0)) = 1 ∧
      system.restart (timerAt 0) 3 = some next ∧ (next.timers (timerAt 0)).whenToFire = 3 ∧
      ¬ Restarted (timerAt 0) 5 3 system next := by
  let front : List Action :=
    [.new none, .schedule (timerAt 0) (.scheduleOneShotAtTimeout (some 0) 5 0) 0 0]
  have values : (exec (step (timerPool 0)) (initial (timerPool 0)) front).map (fun system =>
      ((system.timers (timerAt 0)).type, (system.timers (timerAt 0)).howManyTimesToFire,
        (system.timers (timerAt 0)).timeout, (system.timers (timerAt 0)).state,
        system.minHeap.contents.count (some (timerAt 0)))) =
          some (.OneShot, 0, 0, .Active, 1) := by
    decide +kernel
  have due : ((exec (step (timerPool 0)) (initial (timerPool 0)) front).bind fun system =>
      system.restart (timerAt 0) 3).map (fun next => (next.timers (timerAt 0)).whenToFire) =
        some 3 := by
    decide +kernel
  obtain ⟨system, executed, values⟩ := Option.map_eq_some_iff.mp values
  obtain ⟨next, ran, due⟩ := Option.map_eq_some_iff.mp due
  rw [executed, Option.bind_some] at ran
  simp only [Prod.mk.injEq] at values
  obtain ⟨type, howMany, timeout, active, once⟩ := values
  refine ⟨system, next, ⟨front, executed⟩, ⟨type, howMany, timeout⟩, active, once, ran, due, ?_⟩
  intro restarted
  have later := restarted.whenToFire
  rw [due] at later
  exact absurd later (by decide)

end TimerSystem

end TimerAndCallback
