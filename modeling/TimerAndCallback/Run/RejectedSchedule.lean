import TimerAndCallback.Platform.TimerMinHeapContents
import TimerAndCallback.Run.WellFormed

/-! # Schedule calls on their error paths

`schedule` reports a timer that has a callback already, and a fuzzy window whose
upper bound is below its lower bound, and goes on. The rest of the call is the
same on every path: the members are written and the timer is added to the heap.
-/

namespace TimerAndCallback

namespace ScheduleArguments

/-- The lower bound of a fuzzy window, relative to the current time. -/
def lowerBound (arguments : ScheduleArguments) (current : UInt64) : UInt64 :=
  if arguments.firstIsAbsolute then
    convertAbsoluteTimeSinceEpochToRelative current arguments.first
  else
    arguments.first

/-- The upper bound of a fuzzy window, relative to the current time. -/
def upperBound (arguments : ScheduleArguments) (current : UInt64) : UInt64 :=
  if arguments.timeoutIsAbsolute then
    convertAbsoluteTimeSinceEpochToRelative current arguments.timeout
  else
    arguments.timeout

end ScheduleArguments

/-- The call reports an error. -/
def Timer.Rejects (timer : Timer) (arguments : ScheduleArguments) (current : UInt64) : Prop :=
  timer.pCb.isSome ∨
    arguments.isFuzzyOneShot ∧ arguments.upperBound current < arguments.lowerBound current

instance (timer : Timer) (arguments : ScheduleArguments) (current : UInt64) :
    Decidable (timer.Rejects arguments current) := by
  unfold Timer.Rejects
  infer_instance

namespace TimerSystem

open Execution

/-- The members of a timer that a schedule call may write, and the heap, are as before. -/
structure Unscheduled (pTimer : UInt64) (before after : TimerSystem) : Prop where
  pCb : (after.timers pTimer).pCb = (before.timers pTimer).pCb
  type : (after.timers pTimer).type = (before.timers pTimer).type
  state : (after.timers pTimer).state = (before.timers pTimer).state
  whenToFire : (after.timers pTimer).whenToFire = (before.timers pTimer).whenToFire
  timeout : (after.timers pTimer).timeout = (before.timers pTimer).timeout
  howManyTimesToFire :
    (after.timers pTimer).howManyTimesToFire = (before.timers pTimer).howManyTimesToFire
  numberOfTimesFired :
    (after.timers pTimer).numberOfTimesFired = (before.timers pTimer).numberOfTimesFired
  count : after.minHeap.numberOfTimersBeingManaged = before.minHeap.numberOfTimersBeingManaged
  slots : ∀ index < before.minHeap.numberOfTimersBeingManaged,
    after.minHeap.heap index = before.minHeap.heap index

variable {system next : TimerSystem} {pTimer : UInt64} {arguments : ScheduleArguments}
  {current rand : UInt64}

/-- Every schedule call that returns has added to the heap. -/
theorem schedule_count (ran : system.schedule pTimer arguments current rand = some next) :
    next.minHeap.numberOfTimersBeingManaged =
      system.minHeap.numberOfTimersBeingManaged + 1 := by
  obtain ⟨armed, _, added⟩ := Option.bind_eq_some_iff.mp ran
  obtain ⟨⟨result, heap⟩, inserted, rfl⟩ := Option.map_eq_some_iff.mp added
  exact TimerMinHeap.addToHeap_count inserted

/-- A call that reports an error leaves things as they were. -/
def RejectionKeeps (system : TimerSystem) (pTimer : UInt64) (request : ScheduleRequest)
    (current rand : UInt64) : Prop :=
  (system.timers pTimer).Rejects request.arguments current →
    ∃ next, system.schedule pTimer request.arguments current rand = some next ∧
      Unscheduled pTimer system next

/-- No call that reports an error does. -/
theorem schedule_not_rejectionKeeps (system : TimerSystem) (pTimer : UInt64)
    (request : ScheduleRequest) (current rand : UInt64)
    (rejects : (system.timers pTimer).Rejects request.arguments current) :
    ¬ system.RejectionKeeps pTimer request current rand := by
  intro keeps
  obtain ⟨next, ran, unscheduled⟩ := keeps rejects
  have counted := schedule_count ran
  rw [unscheduled.count] at counted
  omega

/-- Reversed bounds are reported, and the timer is scheduled all the same. -/
theorem schedule_not_rejectionKeeps_reversed :
    ¬ (initial (timerPool 0)).RejectionKeeps (timerAt 0)
      (.scheduleOneShotBetweenTimeouts (some 0) 9 4) 1 0 :=
  schedule_not_rejectionKeeps (initial (timerPool 0)) (timerAt 0)
    (.scheduleOneShotBetweenTimeouts (some 0) 9 4) 1 0 (by decide)

/-- A timer scheduled with a second callback is in the heap twice, due at the later time. -/
theorem schedule_twice : ∃ system next,
    Reached 0 system ∧
      (system.timers (timerAt 0)).Rejects
        (ScheduleRequest.scheduleOneShotAtTimeout (some 1) 7 0).arguments 1 ∧
      system.schedule (timerAt 0) (ScheduleRequest.scheduleOneShotAtTimeout (some 1) 7 0).arguments
        1 0 = some next ∧
      (system.timers (timerAt 0)).whenToFire = 5 ∧ (next.timers (timerAt 0)).whenToFire = 8 ∧
      system.minHeap.contents.count (some (timerAt 0)) = 1 ∧
      next.minHeap.contents.count (some (timerAt 0)) = 2 ∧
      ¬ system.RejectionKeeps (timerAt 0) (.scheduleOneShotAtTimeout (some 1) 7 0) 1 0 := by
  let front : List Action :=
    [.new none, .schedule (timerAt 0) (.scheduleOneShotAtTimeout (some 0) 5 0) 0 0]
  have reached : (exec (step (timerPool 0)) (initial (timerPool 0)) front).map (fun system =>
      (decide ((system.timers (timerAt 0)).Rejects
          (ScheduleRequest.scheduleOneShotAtTimeout (some 1) 7 0).arguments 1),
        (system.timers (timerAt 0)).whenToFire,
        system.minHeap.contents.count (some (timerAt 0)))) = some (true, 5, 1) := by
    decide +kernel
  have scheduled : ((exec (step (timerPool 0)) (initial (timerPool 0)) front).bind fun system =>
      system.schedule (timerAt 0) (ScheduleRequest.scheduleOneShotAtTimeout (some 1) 7 0).arguments
        1 0).map (fun next => ((next.timers (timerAt 0)).whenToFire,
          next.minHeap.contents.count (some (timerAt 0)))) = some (8, 2) := by
    decide +kernel
  obtain ⟨system, executed, before⟩ := Option.map_eq_some_iff.mp reached
  obtain ⟨next, ran, after⟩ := Option.map_eq_some_iff.mp scheduled
  rw [executed, Option.bind_some] at ran
  simp only [Prod.mk.injEq, decide_eq_true_eq] at before after
  obtain ⟨rejects, due, once⟩ := before
  refine ⟨system, next, ⟨front, executed⟩, rejects, ran, due, after.1, once, after.2, ?_⟩
  intro keeps
  obtain ⟨other, same, unscheduled⟩ := keeps rejects
  cases ran.symm.trans same
  have later := unscheduled.whenToFire
  rw [due, after.1] at later
  cases later

end TimerSystem

end TimerAndCallback
