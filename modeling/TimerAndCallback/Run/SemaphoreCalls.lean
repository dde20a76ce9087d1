import TimerAndCallback.Run.CallbackStep
import TimerAndCallback.Foundation.NestedSections

/-! # The calls under the semaphores

A method of `Timer` that takes `pTimerSemaphore` is the list of its statements between
`wait ()` and `post ()`. Two of them delete a callback there, under the semaphore of
`TestCallback`, which also guards the allocation of callbacks elsewhere. The tasks run
these statements in any interleaving. The outcome is that of the whole operations, one
after another.

`TimerTask::run` and `Timer::processACallback` read members of a timer, and the former also
writes them, without the semaphore. Those statements are not among the ones here.
-/

namespace TimerAndCallback

open TimerSystem NestedSections Execution

/-- The methods that wait for a semaphore, with the clock and `rand ()` values they read.
The last two are those of `TestCallback`. -/
inductive SemaphoreCall
  | schedule (pTimer : UInt64) (arguments : ScheduleArguments) (current rand : UInt64)
  | cancel (pTimer : UInt64)
  | restart (pTimer : UInt64) (current : UInt64)
  | stop (pTimer : UInt64)
  | changeFiringTime (pTimer : UInt64) (newTimeout current : UInt64)
  | destroy (pTimer : UInt64)
  | operatorNew
  | operatorDelete (object : UInt64)
  | newCallback
  | deleteCallback (pCb : Nat)

namespace SemaphoreCall

/-- A statement that writes members of the object. -/
def assign (pTimer : UInt64) (write : Timer → Timer) (system : TimerSystem) : TimerSystem :=
  system.setTimer pTimer (write (system.timers pTimer))

/-- The statements of `Timer::schedule`. -/
def scheduleStatements (pTimer : UInt64) (arguments : ScheduleArguments) (current rand : UInt64) :
    List (TimerSystem → Option TimerSystem) :=
  [some ∘ assign pTimer fun timer =>
      { timer with pCb := if timer.pCb.isNone then arguments.pCb else timer.pCb },
    some ∘ assign pTimer fun timer => { timer with state := .Active },
    some ∘ assign pTimer fun timer => { timer with type := arguments.type },
    some ∘ assign pTimer fun timer =>
      { timer with howManyTimesToFire := arguments.howManyTimesToFire },
    fun system =>
      ((system.timers pTimer).firstWhenToFire arguments current rand).bind fun whenToFire =>
        some (assign pTimer (fun timer =>
          { timer with
            first := if arguments.isFuzzyOneShot || arguments.firstIsAbsolute then timer.first
              else arguments.first
            whenToFire := whenToFire }) system),
    some ∘ assign pTimer fun timer =>
      { timer with timeout := if arguments.timeoutIsAbsolute then
          convertAbsoluteTimeSinceEpochToRelative current arguments.timeout
        else arguments.timeout },
    some ∘ assign pTimer fun timer => { timer with numberOfTimesFired := 0 },
    fun system =>
      (system.setLedger pTimer { system.ledger pTimer with scheduled := true }).addToHeap pTimer]

/-- A method that deletes no callback. -/
def timersOnly (statements : List (TimerSystem → Option TimerSystem)) :
    Body TimerSystem MemoryPool.PoolRun :=
  .nested ⟨statements, fun _ => false, fun _ => some, []⟩

/-- The statements of each call. -/
def body (pTimerPool pCallbackPool : MemoryPool) :
    SemaphoreCall → Body TimerSystem MemoryPool.PoolRun
  | schedule pTimer arguments current rand =>
      timersOnly (scheduleStatements pTimer arguments current rand)
  | cancel pTimer => .nested
      { before := []
        needed := fun system => (system.timers pTimer).pCb.isSome
        act := fun system callbacks =>
          TimerAndCallback.deleteCallback pCallbackPool callbacks (system.timers pTimer).pCb
        after := [assign pTimer fun timer => { timer with pCb := none },
          assign pTimer fun timer => { timer with state := .Idle }] }
  | restart pTimer current => timersOnly
      [fun system =>
          if (system.timers pTimer).state = .Active then
            (system.setTimerState pTimer .Idle).removeFromHeap pTimer
          else
            some system,
        some ∘ assign pTimer fun timer =>
          { timer with
            whenToFire := convertTimerTimeoutToAbsoluteTimeSinceEpoch current timer.timeout },
        some ∘ assign pTimer fun timer => { timer with state := .Active },
        fun system => system.addToHeap pTimer]
  | stop pTimer => timersOnly
      [some ∘ assign pTimer fun timer => { timer with state := .Idle },
        fun system => system.removeFromHeap pTimer]
  | changeFiringTime pTimer newTimeout current => timersOnly
      [some ∘ assign pTimer fun timer => { timer with timeout := newTimeout },
        some ∘ assign pTimer fun timer =>
          { timer with
            whenToFire := convertTimerTimeoutToAbsoluteTimeSinceEpoch current newTimeout },
        some ∘ assign pTimer fun timer => { timer with state := .Active },
        fun system => system.addToHeap pTimer]
  | destroy pTimer => .nested
      { before := [fun system =>
          if (system.timers pTimer).type = .Invalid ∨ (system.timers pTimer).state = .Done then
            some system
          else system.removeFromHeap pTimer]
        needed := fun system => (system.timers pTimer).pCb.isSome
        act := fun system callbacks =>
          TimerAndCallback.deleteCallback pCallbackPool callbacks (system.timers pTimer).pCb
        after := [assign pTimer fun timer => { timer with pCb := none }] }
  | operatorNew => timersOnly [fun system => (system.operatorNew pTimerPool).map Prod.snd]
  | operatorDelete object => timersOnly [fun system => system.operatorDelete pTimerPool object]
  | newCallback => .plain fun callbacks => pCallbackPool.callPool callbacks .getFromPool
  | deleteCallback pCb => .plain fun callbacks =>
      pCallbackPool.callPool callbacks (.removeFromPool (UInt64.ofNat pCb))

/-- The call as one operation of the system. -/
def operation (pTimerPool pCallbackPool : MemoryPool) (system : CallbackSystem) :
    SemaphoreCall → Option CallbackSystem
  | schedule pTimer arguments current rand => system.schedule pTimer arguments current rand
  | cancel pTimer => system.cancel pCallbackPool pTimer
  | restart pTimer current => (system.shared.restart pTimer current).map fun shared =>
      { system with shared := shared }
  | stop pTimer => (system.shared.stop pTimer).map fun shared => { system with shared := shared }
  | changeFiringTime pTimer newTimeout current =>
      system.changeFiringTime pTimer newTimeout current
  | destroy pTimer => system.destroy pCallbackPool pTimer
  | operatorNew => (system.shared.operatorNew pTimerPool).map fun outcome =>
      { system with shared := outcome.2 }
  | operatorDelete object => (system.shared.operatorDelete pTimerPool object).map fun shared =>
      { system with shared := shared }
  | newCallback => (pCallbackPool.callPool system.callbacks .getFromPool).map fun callbacks =>
      { system with callbacks := callbacks }
  | deleteCallback pCb =>
      (pCallbackPool.callPool system.callbacks (.removeFromPool (UInt64.ofNat pCb))).map
        fun callbacks => { system with callbacks := callbacks }

/-- What an operation does to the timers and to the pool of callbacks. -/
def run (pTimerPool pCallbackPool : MemoryPool) (call : SemaphoreCall) (system : TimerSystem)
    (callbacks : MemoryPool.PoolRun) : Option (TimerSystem × MemoryPool.PoolRun) :=
  (call.operation pTimerPool pCallbackPool ⟨system, callbacks, ∅⟩).map fun after =>
    (after.shared, after.callbacks)

@[simp] private theorem setTimer_setTimer (system : TimerSystem) (pTimer : UInt64)
    (first second : Timer) :
    (system.setTimer pTimer first).setTimer pTimer second = system.setTimer pTimer second := by
  simp only [setTimer, Function.update_idem]

private theorem perform_assign (pTimer : UInt64) (write : Timer → Timer)
    (later : List (TimerSystem → Option TimerSystem)) (system : TimerSystem) :
    perform (some ∘ assign pTimer write :: later) system =
      perform later (system.setTimer pTimer (write (system.timers pTimer))) := rfl

private theorem perform_last (change : TimerSystem → Option TimerSystem) (system : TimerSystem) :
    perform [change] system = change system := Option.bind_fun_some _

private theorem perform_schedule (pTimer : UInt64) (arguments : ScheduleArguments)
    (current rand : UInt64) (system : TimerSystem) :
    perform (scheduleStatements pTimer arguments current rand) system =
      system.schedule pTimer arguments current rand := by
  unfold scheduleStatements TimerSystem.schedule Timer.arm
  simp only [perform_assign, setTimer_setTimer, setTimer_timers_self]
  rw [perform, setTimer_timers_self]
  -- the statements before write nothing that the firing time is worked out from
  have unread : ∀ (pCb : Option Nat) (state : TimerState) (type : TimerType) (times : UInt32),
      ({ system.timers pTimer with
        pCb := pCb
        state := state
        type := type
        howManyTimesToFire := times }).firstWhenToFire arguments current rand =
      (system.timers pTimer).firstWhenToFire arguments current rand := fun _ _ _ _ => rfl
  rw [unread]
  cases (system.timers pTimer).firstWhenToFire arguments current rand with
  | none => rfl
  | some whenToFire =>
      simp only [Option.bind_some, assign, perform_assign, perform_last, setTimer_setTimer,
        setTimer_timers_self, Option.bind_eq_bind, Option.map_some, setTimer_ledger]

/-- A method that deletes no callback leaves their pool alone. -/
theorem run_timersOnly (statements : List (TimerSystem → Option TimerSystem))
    (system : TimerSystem) (callbacks : MemoryPool.PoolRun) :
    (timersOnly statements).run system callbacks =
      (perform statements system).map fun system => (system, callbacks) := by
  cases ran : perform statements system <;> simp [timersOnly, Body.run, ran, settle]

private theorem perform_restart (pTimer : UInt64) (current : UInt64) (system : TimerSystem) :
    perform
      [fun system =>
          if (system.timers pTimer).state = .Active then
            (system.setTimerState pTimer .Idle).removeFromHeap pTimer
          else
            some system,
        some ∘ assign pTimer fun timer =>
          { timer with
            whenToFire := convertTimerTimeoutToAbsoluteTimeSinceEpoch current timer.timeout },
        some ∘ assign pTimer fun timer => { timer with state := .Active },
        fun system => system.addToHeap pTimer] system =
      system.restart pTimer current := by
  refine congrArg (Option.bind _) (funext fun system => ?_)
  simp only [perform_assign, perform_last, setTimer_setTimer, setTimer_timers_self]

/-- The destructor reads the callback after the timer has left the heap, which keeps it. -/
theorem leaveHeap_timers (pTimer : UInt64) (system after : TimerSystem)
    (left : (if (system.timers pTimer).type = .Invalid ∨ (system.timers pTimer).state = .Done then
      some system else system.removeFromHeap pTimer) = some after) :
    after.timers = system.timers := by
  split_ifs at left with passed
  · cases left
    rfl
  · obtain ⟨outcome, -, rfl⟩ := Option.map_eq_some_iff.mp left
    rfl

/-- The statements of a call, without an interruption, are the operation. -/
theorem run_body (pTimerPool pCallbackPool : MemoryPool) (call : SemaphoreCall)
    (system : TimerSystem) (callbacks : MemoryPool.PoolRun) :
    (call.body pTimerPool pCallbackPool).run system callbacks =
      call.run pTimerPool pCallbackPool system callbacks := by
  cases call with
  | schedule pTimer arguments current rand =>
      rw [body, run_timersOnly, perform_schedule, run, operation, CallbackSystem.schedule,
        Option.map_map]
      rfl
  | cancel pTimer =>
      simp only [body, run, operation, CallbackSystem.cancel, Body.run, perform, settle,
        Option.bind_some, assign, setTimer_setTimer, setTimer_timers_self, TimerSystem.cancel]
      cases (system.timers pTimer).pCb <;> simp [TimerAndCallback.deleteCallback]
      rfl
  | restart pTimer current =>
      rw [body, run_timersOnly, perform_restart, run, operation, Option.map_map]
      rfl
  | stop pTimer =>
      rw [body, run_timersOnly, perform_assign, perform_last, run, operation, Option.map_map]
      rfl
  | changeFiringTime pTimer newTimeout current =>
      rw [body, run_timersOnly, run, operation, CallbackSystem.changeFiringTime, Option.map_map]
      simp only [perform_assign, perform_last, setTimer_setTimer, setTimer_timers_self]
      rfl
  | destroy pTimer =>
      simp only [body, run, operation, CallbackSystem.destroy, TimerSystem.destroy, Body.run,
        perform_last, settle, assign]
      cases left : (if (system.timers pTimer).type = .Invalid ∨
          (system.timers pTimer).state = .Done then some system
        else system.removeFromHeap pTimer) with
      | none => rfl
      | some after =>
          simp only [Option.bind_some, Option.bind_eq_bind,
            leaveHeap_timers pTimer system after left]
          cases (system.timers pTimer).pCb with
          | none => rfl
          | some pCb =>
            simp only [TimerAndCallback.deleteCallback, Option.isSome_some, if_true]
            cases MemoryPool.callPool pCallbackPool callbacks _ <;> rfl
  | operatorNew =>
      rw [body, run_timersOnly, perform_last, run, operation, Option.map_map, Option.map_map]
      rfl
  | operatorDelete =>
      rw [body, run_timersOnly, perform_last, run, operation, Option.map_map]
      rfl
  | newCallback =>
      rw [body, Body.run, run, operation, Option.map_map]
      rfl
  | deleteCallback =>
      rw [body, Body.run, run, operation, Option.map_map]
      rfl

section Serialized

variable {Task : Type} [DecidableEq Task]

/-- However the statements of the calls interleave, the pool of callbacks is as after whole
calls, made one after another in an order that keeps each task's own; so are the timers
while their semaphore is free, and everything when the tasks are done. Each semaphore is
held by one task at most. The tasks never block each other for good. -/
theorem calls_serialized (pTimerPool pCallbackPool : MemoryPool) (system : TimerSystem)
    (callbacks : MemoryPool.PoolRun) (calls : Task → List SemaphoreCall) (schedule : List Task)
    (config : Config Task TimerSystem MemoryPool.PoolRun)
    (ran : exec NestedSections.step
      (start (body pTimerPool pCallbackPool) system callbacks calls) schedule = some config) :
    ∃ order serial,
      exec (serve (run pTimerPool pCallbackPool)) ⟨system, callbacks, calls⟩ order = some serial ∧
      config.inner = serial.inner ∧ (config.outerValue ≠ 0 → config.outer = serial.outer) ∧
      ((∀ task, config.code task = []) →
        config.outer = serial.outer ∧ ∀ task, serial.calls task = []) ∧
      config.outerValue ≤ 1 ∧ config.innerValue ≤ 1 ∧
      ((∀ task, config.code task = []) ∨ Runs (run pTimerPool pCallbackPool) config serial) := by
  have whole := run_body pTimerPool pCallbackPool
  obtain ⟨order, serial, served, outerHolder, innerHolder, same⟩ := exec_related whole ran
  refine ⟨order, serial, served, same.inner, fun free => ?_, same.finished, ?_, ?_,
    same.progress whole⟩
  · rw [same.outerValue] at free
    exact same.outer (eq_none_of_valueOf free)
  · rw [same.outerValue]
    exact valueOf_le_one outerHolder
  · rw [same.innerValue]
    exact valueOf_le_one innerHolder

end Serialized

/-- One task schedules a timer and cancels it. Another one allocates a callback between the
two semaphores of the cancellation. -/
theorem calls_serialized_two : ∃ (calls : Bool → List SemaphoreCall)
    (config : Config Bool TimerSystem MemoryPool.PoolRun),
    calls true = [.newCallback,
      .schedule (timerAt 0) ⟨some 8204, 5, false, 0, false, .OneShot, 0, false⟩ 0 0,
      .cancel (timerAt 0)] ∧
    calls false = [.newCallback] ∧
    exec NestedSections.step
      (start (body (timerPool 0) (testCallbackPool 0)) (TimerSystem.initial (timerPool 0))
        (MemoryPool.createRun (testCallbackPool 0)) calls)
      (List.replicate 16 true ++ List.replicate 3 false ++ List.replicate 6 true) = some config ∧
    ∃ order serial,
      exec (serve (run (timerPool 0) (testCallbackPool 0)))
        ⟨TimerSystem.initial (timerPool 0), MemoryPool.createRun (testCallbackPool 0), calls⟩
        order = some serial ∧
      config.inner = serial.inner ∧ config.outer = serial.outer ∧
      ∀ task, serial.calls task = [] := by
  let calls : Bool → List SemaphoreCall
    | true => [.newCallback,
        .schedule (timerAt 0) ⟨some 8204, 5, false, 0, false, .OneShot, 0, false⟩ 0 0,
        .cancel (timerAt 0)]
    | false => [.newCallback]
  have ran : ((exec NestedSections.step
      (start (body (timerPool 0) (testCallbackPool 0)) (TimerSystem.initial (timerPool 0))
        (MemoryPool.createRun (testCallbackPool 0)) calls)
      (List.replicate 16 true ++ List.replicate 3 false ++ List.replicate 6 true)).map
        fun config => ((config.code true).isEmpty, (config.code false).isEmpty)) =
      some (true, true) := by
    decide +kernel
  obtain ⟨config, reached, done⟩ := Option.map_eq_some_iff.mp ran
  obtain ⟨doneTrue, doneFalse⟩ := Prod.mk.inj done
  obtain ⟨order, serial, served, inner, -, finished, -⟩ :=
    calls_serialized (timerPool 0) (testCallbackPool 0) _ _ calls _ config reached
  obtain ⟨outer, made⟩ := finished fun
    | true => List.isEmpty_iff.mp doneTrue
    | false => List.isEmpty_iff.mp doneFalse
  exact ⟨calls, config, rfl, rfl, reached, order, serial, served, inner, outer, made⟩

end SemaphoreCall

end TimerAndCallback
