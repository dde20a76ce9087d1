import TimerAndCallback.Run.RequestedTime
import TimerAndCallback.Run.RejectedSchedule

/-! # The window of a fuzzy one-shot

The firing time is one past the lower bound plus a remainder of `rand ()`, both
bounds taken relative to the clock. The modulus is the width of the window, which
is zero where the bounds agree. An absolute bound that the clock has passed wraps.
-/

namespace TimerAndCallback

private theorem convertAbsoluteTimeSinceEpochToRelative_eq (current absoluteTime : UInt64) :
    convertAbsoluteTimeSinceEpochToRelative current absoluteTime = absoluteTime - current :=
  if_pos UInt64.zero_le

private theorem convertAbsoluteTimeSinceEpochToRelative_toNat {current absoluteTime : UInt64}
    (ahead : current.toNat ≤ absoluteTime.toNat) :
    (convertAbsoluteTimeSinceEpochToRelative current absoluteTime).toNat =
      absoluteTime.toNat - current.toNat := by
  rw [convertAbsoluteTimeSinceEpochToRelative_eq]
  exact UInt64.toNat_sub_of_le _ _ (UInt64.le_iff_toNat_le.mpr ahead)

/-- An instant already past comes out as a wrapped difference. -/
theorem convertAbsoluteTimeSinceEpochToRelative_past {current absoluteTime : UInt64}
    (past : absoluteTime.toNat < current.toNat) :
    (convertAbsoluteTimeSinceEpochToRelative current absoluteTime).toNat =
      2 ^ 64 - (current.toNat - absoluteTime.toNat) := by
  have bound := current.toNat_lt
  rw [convertAbsoluteTimeSinceEpochToRelative_eq, UInt64.toNat_sub]
  omega

namespace ScheduleArguments

/-- The bounds of the window are not reported as incorrect. -/
def Accepted (arguments : ScheduleArguments) (current : UInt64) : Prop :=
  ¬ arguments.upperBound current < arguments.lowerBound current

end ScheduleArguments

namespace Timer

/-- On an empty window the modulus is zero. -/
theorem fuzzyWhenToFire_of_eq (timer : Timer) (arguments : ScheduleArguments)
    (current rand : UInt64)
    (empty : arguments.upperBound current = arguments.lowerBound current) :
    timer.fuzzyWhenToFire arguments current rand = none := by
  have reported : ¬ arguments.upperBound current < arguments.lowerBound current := by
    rw [empty]
    exact UInt64.lt_irrefl _
  exact (if_neg reported).trans (if_pos empty)

/-- One past the lower bound plus a remainder by the width is in the window. -/
theorem convertTimerTimeout_window {lower upper current : UInt64}
    (ordered : lower.toNat < upper.toNat)
    (representable : current.toNat + upper.toNat < 2 ^ 64) (rand : UInt64) :
    current.toNat + lower.toNat < (convertTimerTimeoutToAbsoluteTimeSinceEpoch current
        (lower + 1 + rand % (upper - lower))).toNat ∧
      (convertTimerTimeoutToAbsoluteTimeSinceEpoch current
        (lower + 1 + rand % (upper - lower))).toNat ≤ current.toNat + upper.toNat := by
  have width : (upper - lower).toNat = upper.toNat - lower.toNat :=
    UInt64.toNat_sub_of_le _ _ (UInt64.le_iff_toNat_le.mpr ordered.le)
  have offset : (rand % (upper - lower)).toNat < upper.toNat - lower.toNat := by
    rw [UInt64.toNat_mod, width]
    exact Nat.mod_lt _ (Nat.sub_pos_of_lt ordered)
  have drawn : (lower + 1 + rand % (upper - lower)).toNat =
      lower.toNat + 1 + (rand % (upper - lower)).toNat := by
    rw [UInt64.toNat_add, UInt64.toNat_add]
    change ((lower.toNat + 1) % 2 ^ 64 + _) % 2 ^ 64 = _
    omega
  have exactly := (convertTimerTimeout_exact current (lower + 1 + rand % (upper - lower))).mpr
    (by omega)
  omega

/-- On a window that is not empty the firing time is past its lower bound and not past
its upper bound, whatever `rand ()` answers. -/
theorem fuzzyWhenToFire_of_lt (timer : Timer) (arguments : ScheduleArguments)
    (current rand : UInt64)
    (ordered : (arguments.lowerBound current).toNat < (arguments.upperBound current).toNat)
    (representable : current.toNat + (arguments.upperBound current).toNat < 2 ^ 64) :
    ∃ whenToFire,
      timer.fuzzyWhenToFire arguments current rand = some whenToFire ∧
        current.toNat + (arguments.lowerBound current).toNat < whenToFire.toNat ∧
        whenToFire.toNat ≤ current.toNat + (arguments.upperBound current).toNat := by
  have accepted : ¬ arguments.upperBound current < arguments.lowerBound current := by
    rw [UInt64.lt_iff_toNat_lt]
    exact ordered.asymm
  have nonempty : arguments.upperBound current ≠ arguments.lowerBound current := fun same =>
    absurd (congrArg UInt64.toNat same) ordered.ne'
  exact ⟨_, (if_neg accepted).trans (if_neg nonempty),
    convertTimerTimeout_window ordered representable rand⟩

end Timer

namespace TimerSystem

open Execution

variable {pShm pTimer current rand : UInt64} {system : TimerSystem} {request : ScheduleRequest}
  {earliest latest : Nat}

/-- The timer was added to the heap with a firing time between two instants. -/
structure AddedWithin (pTimer : UInt64) (earliest latest : Nat) (before after : TimerSystem) :
    Prop where
  added : after.minHeap.contents = some pTimer ::ₘ before.minHeap.contents
  earliest : earliest ≤ (after.whenToFire pTimer).toNat
  latest : (after.whenToFire pTimer).toNat ≤ latest

/-- A call adds the timer between two instants exactly where the heap has room and the
firing time that is worked out is between them. -/
theorem schedule_addedWithin_iff (wellFormed : system.WellFormed pShm)
    (live : pTimer ∈ system.pool.outstanding) :
    (∃ scheduled,
        system.step (timerPool pShm) (.schedule pTimer request current rand) = some scheduled ∧
          system.AddedWithin pTimer earliest latest scheduled) ↔
      system.minHeap.numberOfTimersBeingManaged < MAX_NUMBER_OF_TIMERS ∧
        ∃ whenToFire,
          (system.timers pTimer).firstWhenToFire request.arguments current rand =
              some whenToFire ∧
            earliest ≤ whenToFire.toNat ∧ whenToFire.toNat ≤ latest := by
  constructor
  · rintro ⟨scheduled, ran, added⟩
    cases step_transition wellFormed ran with
    | scheduled _ _ _ _ timer heap _ armed room inserted =>
        have earliest := added.earliest
        have latest := added.latest
        obtain ⟨whenToFire, worked, rfl⟩ := Option.map_eq_some_iff.mp armed
        simp only [TimerSystem.whenToFire, setLedger_timers,
          setTimer_timers_self] at earliest latest
        exact ⟨room, whenToFire, worked, earliest, latest⟩
  · rintro ⟨room, whenToFire, worked, earliest, latest⟩
    obtain ⟨heap, inserted, ran⟩ := schedule_taken wellFormed live
      (Option.map_eq_some_iff.mpr ⟨_, worked, rfl⟩) room
    refine ⟨_, ran, inserted.contents, ?_, ?_⟩
    all_goals simp only [TimerSystem.whenToFire, setLedger_timers, setTimer_timers_self]
    · exact earliest
    · exact latest

variable {pCb : Option Nat}

/-- A one-shot between two timeouts is added inside its window exactly where the heap has
room and the timeouts differ. Between equal timeouts the modulus is zero. -/
theorem schedule_betweenTimeouts_iff {timeout1 timeout2 : UInt64}
    (wellFormed : system.WellFormed pShm) (live : pTimer ∈ system.pool.outstanding)
    (ordered : timeout1.toNat ≤ timeout2.toNat)
    (representable : current.toNat + timeout2.toNat < 2 ^ 64) :
    (∃ scheduled,
        system.step (timerPool pShm)
            (.schedule pTimer (.scheduleOneShotBetweenTimeouts pCb timeout1 timeout2)
              current rand) = some scheduled ∧
          system.AddedWithin pTimer (current.toNat + timeout1.toNat)
            (current.toNat + timeout2.toNat) scheduled) ↔
      system.minHeap.numberOfTimersBeingManaged < MAX_NUMBER_OF_TIMERS ∧
        timeout1.toNat < timeout2.toNat := by
  rw [schedule_addedWithin_iff wellFormed live]
  refine and_congr_right fun _ => ⟨?_, fun apart => ?_⟩
  · rintro ⟨whenToFire, worked, _⟩
    refine ordered.lt_of_ne fun same => ?_
    have stuck := (system.timers pTimer).fuzzyWhenToFire_of_eq
      (ScheduleRequest.scheduleOneShotBetweenTimeouts pCb timeout1 timeout2).arguments current
      rand (UInt64.toNat_inj.mp same).symm
    cases worked.symm.trans stuck
  · obtain ⟨whenToFire, worked, past, within⟩ := (system.timers pTimer).fuzzyWhenToFire_of_lt
      (ScheduleRequest.scheduleOneShotBetweenTimeouts pCb timeout1 timeout2).arguments current
      rand apart representable
    exact ⟨whenToFire, worked, past.le, within⟩

/-- The second of two timers, in a window of five milliseconds. -/
theorem schedule_betweenTimeouts_second : ∃ system, Reached 0 system ∧ ∃ scheduled,
    system.step (timerPool 0)
        (.schedule (timerAt 1) (.scheduleOneShotBetweenTimeouts (some 1) 4 9) 3 13) =
          some scheduled ∧
      system.AddedWithin (timerAt 1) 7 12 scheduled := by
  obtain ⟨system, reached, live, room⟩ := second_ready
  exact ⟨system, reached, (schedule_betweenTimeouts_iff reached.wellFormed live (by decide)
    (by decide)).mpr ⟨room, by decide⟩⟩

/-- Between a timeout of five and a timeout of five the remainder is by zero. -/
theorem schedule_betweenTimeouts_equal : ∃ system,
    Reached 0 system ∧ timerAt 0 ∈ system.pool.outstanding ∧
      system.minHeap.numberOfTimersBeingManaged = 0 ∧
      (system.timers (timerAt 0)).fuzzyWhenToFire
        (ScheduleRequest.scheduleOneShotBetweenTimeouts (some 0) 5 5).arguments 3 7 = none ∧
      ¬ ∃ scheduled,
        system.step (timerPool 0)
            (.schedule (timerAt 0) (.scheduleOneShotBetweenTimeouts (some 0) 5 5) 3 7) =
              some scheduled ∧
          system.AddedWithin (timerAt 0) 8 8 scheduled := by
  have prepared : (exec (step (timerPool 0)) (initial (timerPool 0)) [.new none]).map
      (fun system => decide (timerAt 0 ∈ system.pool.outstanding ∧
        system.minHeap.numberOfTimersBeingManaged = 0 ∧
        (system.timers (timerAt 0)).fuzzyWhenToFire
          (ScheduleRequest.scheduleOneShotBetweenTimeouts (some 0) 5 5).arguments 3 7 = none ∧
        (system.step (timerPool 0)
          (.schedule (timerAt 0) (.scheduleOneShotBetweenTimeouts (some 0) 5 5) 3 7)).isNone)) =
      some true := by
    decide +kernel
  obtain ⟨system, toSystem, evaluated⟩ := Option.map_eq_some_iff.mp prepared
  obtain ⟨live, empty, stuck, refused⟩ := decide_eq_true_eq.mp evaluated
  refine ⟨system, ⟨[.new none], toSystem⟩, live, empty, stuck, ?_⟩
  rintro ⟨scheduled, ran, _⟩
  rw [Option.isNone_iff_eq_none.mp refused] at ran
  cases ran

/-- A one-shot between two absolute times is accepted and added to the heap inside what is
left of its window exactly where the heap has room and the window has not opened. -/
theorem schedule_betweenAbsoluteTimes_iff {absoluteTime1 absoluteTime2 : UInt64}
    (wellFormed : system.WellFormed pShm) (live : pTimer ∈ system.pool.outstanding)
    (ordered : absoluteTime1.toNat < absoluteTime2.toNat)
    (ahead : current.toNat < absoluteTime2.toNat) :
    ((ScheduleRequest.scheduleOneShotBetweenAbsoluteTimes pCb absoluteTime1
          absoluteTime2).arguments.Accepted current ∧
        (absoluteTime1.toNat < current.toNat →
          convertAbsoluteTimeSinceEpochToRelative current absoluteTime1 = 0) ∧
        ∃ scheduled,
          system.step (timerPool pShm)
              (.schedule pTimer
                (.scheduleOneShotBetweenAbsoluteTimes pCb absoluteTime1 absoluteTime2)
                current rand) = some scheduled ∧
            system.AddedWithin pTimer (max absoluteTime1.toNat current.toNat)
              absoluteTime2.toNat scheduled) ↔
      system.minHeap.numberOfTimersBeingManaged < MAX_NUMBER_OF_TIMERS ∧
        current.toNat ≤ absoluteTime1.toNat := by
  let window := (ScheduleRequest.scheduleOneShotBetweenAbsoluteTimes pCb absoluteTime1
    absoluteTime2).arguments
  have upper : (window.upperBound current).toNat = absoluteTime2.toNat - current.toNat :=
    convertAbsoluteTimeSinceEpochToRelative_toNat ahead.le
  rw [schedule_addedWithin_iff wellFormed live]
  constructor
  · rintro ⟨accepted, _, room, _⟩
    refine ⟨room, le_of_not_gt fun past => accepted (UInt64.lt_iff_toNat_lt.mpr ?_)⟩
    have lower : (window.lowerBound current).toNat =
        2 ^ 64 - (current.toNat - absoluteTime1.toNat) :=
      convertAbsoluteTimeSinceEpochToRelative_past past
    have bound := absoluteTime2.toNat_lt
    rw [lower, upper]
    omega
  · rintro ⟨room, notOpen⟩
    have lower : (window.lowerBound current).toNat = absoluteTime1.toNat - current.toNat :=
      convertAbsoluteTimeSinceEpochToRelative_toNat notOpen
    have ordered : (window.lowerBound current).toNat < (window.upperBound current).toNat := by
      rw [lower, upper]
      omega
    have bound := absoluteTime2.toNat_lt
    obtain ⟨whenToFire, worked, past, within⟩ := (system.timers pTimer).fuzzyWhenToFire_of_lt
      window current rand ordered (by omega)
    refine ⟨fun reported => ordered.asymm (UInt64.lt_iff_toNat_lt.mp reported),
      fun past => absurd past notOpen.not_gt, room, whenToFire, worked, ?_, ?_⟩
    · rw [max_eq_left notOpen]
      omega
    · omega

/-- The second of two timers, in a window that opens after the clock. -/
theorem schedule_betweenAbsoluteTimes_second : ∃ system, Reached 0 system ∧
    (ScheduleRequest.scheduleOneShotBetweenAbsoluteTimes (some 1) 100 200).arguments.Accepted 50 ∧
      ((100 : UInt64).toNat < (50 : UInt64).toNat →
        convertAbsoluteTimeSinceEpochToRelative 50 100 = 0) ∧
      ∃ scheduled,
        system.step (timerPool 0)
            (.schedule (timerAt 1) (.scheduleOneShotBetweenAbsoluteTimes (some 1) 100 200) 50
              13) = some scheduled ∧
          system.AddedWithin (timerAt 1) 100 200 scheduled := by
  obtain ⟨system, reached, live, room⟩ := second_ready
  exact ⟨system, reached, (schedule_betweenAbsoluteTimes_iff reached.wellFormed live (by decide)
    (by decide)).mpr ⟨room, by decide⟩⟩

/-- In the middle of its window the call is reported, and a new timer is added as due. -/
theorem schedule_betweenAbsoluteTimes_opened : ∃ system scheduled,
    Reached 0 system ∧ timerAt 0 ∈ system.pool.outstanding ∧
      convertAbsoluteTimeSinceEpochToRelative 150 100 = 18446744073709551566 ∧
      ¬ (ScheduleRequest.scheduleOneShotBetweenAbsoluteTimes (some 0) 100
        200).arguments.Accepted 150 ∧
      system.step (timerPool 0)
          (.schedule (timerAt 0) (.scheduleOneShotBetweenAbsoluteTimes (some 0) 100 200) 150
            7) = some scheduled ∧
      scheduled.whenToFire (timerAt 0) = 0 ∧
      ¬ system.AddedWithin (timerAt 0) 150 200 scheduled := by
  have prepared : (exec (step (timerPool 0)) (initial (timerPool 0)) [.new none]).map
      (fun system => decide (timerAt 0 ∈ system.pool.outstanding)) = some true := by
    decide +kernel
  have ran : (exec (step (timerPool 0)) (initial (timerPool 0))
      ([.new none] ++ [.schedule (timerAt 0)
        (.scheduleOneShotBetweenAbsoluteTimes (some 0) 100 200) 150 7])).map
      (fun scheduled => scheduled.whenToFire (timerAt 0)) = some 0 := by
    decide +kernel
  obtain ⟨scheduled, executed, due⟩ := Option.map_eq_some_iff.mp ran
  obtain ⟨system, toSystem, stepped⟩ := exec_append_eq_some.mp executed
  rw [exec_singleton] at stepped
  rw [toSystem, Option.map_some, Option.some.injEq, decide_eq_true_eq] at prepared
  refine ⟨system, scheduled, ⟨[.new none], toSystem⟩, prepared, by decide,
    fun accepted => accepted (by decide), stepped, due, fun within => ?_⟩
  have earliest := within.earliest
  rw [due] at earliest
  exact absurd earliest (by decide)

end TimerSystem

end TimerAndCallback
