import TimerAndCallback.Common.Types

/-! # Timers

A `Timer` object, its two constructors, the six entry points that schedule it and
the part of `schedule` that only writes the object's own members. Constructors
start from the memory of the slot they are given, which keeps the members they do
not name. Every reading of the clock during one call is the same `current`.
-/

namespace TimerAndCallback

/-- `Timer::TimerType`. -/
inductive TimerType
  | OneShot
  | Periodic
  | Invalid
  deriving DecidableEq, Repr

/-- `Timer::TimerState`. -/
inductive TimerState
  | Idle
  | Active
  | Done
  deriving DecidableEq, Repr

/-- `convertTimerTimeoutToAbsoluteTimeSinceEpoch`. -/
def convertTimerTimeoutToAbsoluteTimeSinceEpoch (current timeoutMs : UInt64) : UInt64 :=
  current + timeoutMs

/-- `convertAbsoluteTimeSinceEpochToRelative`. The difference is unsigned, so the
test that it is not negative always holds. -/
def convertAbsoluteTimeSinceEpochToRelative (current absoluteTimeSinceEpoch : UInt64) : UInt64 :=
  if absoluteTimeSinceEpoch - current ≥ 0 then absoluteTimeSinceEpoch - current else 0

/-- The members of `Timer`. A callback is named by a number; `none` is `NULL`. -/
structure Timer where
  type : TimerType
  state : TimerState
  pCb : Option Nat
  creatingTId : TaskId
  cbContexTId : TaskId
  howManyTimesToFire : UInt32
  numberOfTimesFired : UInt32
  first : UInt64
  timeout : UInt64
  whenToFire : UInt64
  deriving DecidableEq, Repr

/-- The parameters of `Timer::schedule`. -/
structure ScheduleArguments where
  pCb : Option Nat
  first : UInt64
  firstIsAbsolute : Bool
  timeout : UInt64
  timeoutIsAbsolute : Bool
  type : TimerType
  howManyTimesToFire : UInt32
  isFuzzyOneShot : Bool

/-- A call of one of the six entry points. The one-shot calls without a second
time pass an uninitialised `dummy` as the timeout. -/
inductive ScheduleRequest
  | scheduleOneShotAtAbsoluteTime (pCb : Option Nat) (absoluteTime dummy : UInt64)
  | scheduleOneShotAtTimeout (pCb : Option Nat) (timeout dummy : UInt64)
  | scheduleOneShotBetweenAbsoluteTimes (pCb : Option Nat) (absoluteTime1 absoluteTime2 : UInt64)
  | scheduleOneShotBetweenTimeouts (pCb : Option Nat) (timeout1 timeout2 : UInt64)
  | schedulePeriodicAtAbsoluteTime (pCb : Option Nat) (absoluteTime timeout : UInt64)
      (howManyTimesToFire : UInt32)
  | schedulePeriodicAtTimeout (pCb : Option Nat) (timeout : UInt64) (howManyTimesToFire : UInt32)

/-- What each entry point passes to `schedule`. -/
def ScheduleRequest.arguments : ScheduleRequest → ScheduleArguments
  | .scheduleOneShotAtAbsoluteTime pCb absoluteTime dummy =>
      ⟨pCb, absoluteTime, true, dummy, false, .OneShot, 0, false⟩
  | .scheduleOneShotAtTimeout pCb timeout dummy =>
      ⟨pCb, timeout, false, dummy, false, .OneShot, 0, false⟩
  | .scheduleOneShotBetweenAbsoluteTimes pCb absoluteTime1 absoluteTime2 =>
      ⟨pCb, absoluteTime1, true, absoluteTime2, true, .OneShot, 0, true⟩
  | .scheduleOneShotBetweenTimeouts pCb timeout1 timeout2 =>
      ⟨pCb, timeout1, false, timeout2, false, .OneShot, 0, true⟩
  | .schedulePeriodicAtAbsoluteTime pCb absoluteTime timeout howManyTimesToFire =>
      ⟨pCb, absoluteTime, true, timeout, false, .Periodic, howManyTimesToFire, false⟩
  | .schedulePeriodicAtTimeout pCb timeout howManyTimesToFire =>
      ⟨pCb, timeout, false, timeout, false, .Periodic, howManyTimesToFire, false⟩

/-- No entry point schedules a timer as `Invalid`. -/
theorem ScheduleRequest.type_ne_invalid (request : ScheduleRequest) :
    request.arguments.type ≠ .Invalid := by
  cases request <;> exact TimerType.noConfusion

namespace Timer

/-- A slot of the pool before anything is constructed in it. -/
def zeroFilled : Timer where
  type := .OneShot
  state := .Idle
  pCb := none
  creatingTId := .Test
  cbContexTId := .Test
  howManyTimesToFire := 0
  numberOfTimesFired := 0
  first := 0
  timeout := 0
  whenToFire := 0

/-- `Timer ()`, on the memory of its slot. -/
def construct (memory : Timer) : Timer :=
  { memory with type := .Invalid, state := .Idle, pCb := none, first := 0, timeout := 0 }

/-- `Timer (creatingTId, cbContextTId)`, on the memory of its slot. -/
def constructFor (memory : Timer) (creatingTId cbContextTId : TaskId) : Timer :=
  { memory with creatingTId := creatingTId, cbContexTId := cbContextTId }

/-- The firing time of a fuzzy one-shot: one past the first bound, plus `rand ()`
modulo the width of the window. It keeps its value when the bounds are reversed;
on an empty window the modulus is zero. -/
def fuzzyWhenToFire (timer : Timer) (arguments : ScheduleArguments) (current rand : UInt64) :
    Option UInt64 :=
  let x1 := if arguments.firstIsAbsolute then
      convertAbsoluteTimeSinceEpochToRelative current arguments.first else arguments.first
  let x2 := if arguments.timeoutIsAbsolute then
      convertAbsoluteTimeSinceEpochToRelative current arguments.timeout else arguments.timeout
  if x2 < x1 then
    some timer.whenToFire
  else if x2 = x1 then
    none
  else
    some (convertTimerTimeoutToAbsoluteTimeSinceEpoch current (x1 + 1 + rand % (x2 - x1)))

/-- The firing time `schedule` works out. An absolute first time is not copied: the
firing time is read from the member. -/
def firstWhenToFire (timer : Timer) (arguments : ScheduleArguments) (current rand : UInt64) :
    Option UInt64 :=
  if arguments.isFuzzyOneShot then
    timer.fuzzyWhenToFire arguments current rand
  else if arguments.firstIsAbsolute then
    some timer.first
  else
    some (convertTimerTimeoutToAbsoluteTimeSinceEpoch current arguments.first)

/-- The members `schedule` writes, before it adds the timer to the heap. A callback
that is already there stays, and the rest is done all the same. -/
def arm (timer : Timer) (arguments : ScheduleArguments) (current rand : UInt64) : Option Timer :=
  (timer.firstWhenToFire arguments current rand).map fun whenToFire =>
    { timer with
      pCb := if timer.pCb.isNone then arguments.pCb else timer.pCb
      state := .Active
      type := arguments.type
      howManyTimesToFire := arguments.howManyTimesToFire
      first := if arguments.isFuzzyOneShot || arguments.firstIsAbsolute then timer.first
        else arguments.first
      whenToFire := whenToFire
      timeout := if arguments.timeoutIsAbsolute then
          convertAbsoluteTimeSinceEpochToRelative current arguments.timeout else arguments.timeout
      numberOfTimesFired := 0 }

/-- What scheduling leaves in the members, whatever the request. -/
structure Armed (timer : Timer) (arguments : ScheduleArguments) (armed : Timer) : Prop where
  state : armed.state = .Active
  type : armed.type = arguments.type
  pCb : armed.pCb = if timer.pCb.isNone then arguments.pCb else timer.pCb
  howManyTimesToFire : armed.howManyTimesToFire = arguments.howManyTimesToFire
  numberOfTimesFired : armed.numberOfTimesFired = 0

/-- What arming a timer sets. -/
theorem arm_armed {timer armed : Timer} {arguments : ScheduleArguments} {current rand : UInt64}
    (ran : timer.arm arguments current rand = some armed) : timer.Armed arguments armed := by
  obtain ⟨whenToFire, _, rfl⟩ := Option.map_eq_some_iff.mp ran
  exact ⟨rfl, rfl, rfl, rfl, rfl⟩

end Timer

end TimerAndCallback
