import TimerAndCallback.Run.Step

/-! # Steps of the system with its callback objects

`TestCallback` has a pool of its own, in shared memory like that of the timers. Here
`new` and `delete` of a callback are calls of that pool, and a step is not taken when it
deletes or triggers a callback that is not allocated. `CallbackSystem.loose` records the
callbacks that no timer has taken. No operation reads it.
-/

namespace TimerAndCallback

open TimerSystem

/-- `TestCallback::testCallbackPool`; `sizeof (TestCallback)` is 16. -/
def testCallbackPool (pShm : UInt64) : MemoryPool :=
  MemoryPool.create pShm 16 (UInt32.ofNat MAX_NUMBER_OF_TIMERS)

structure CallbackSystem where
  shared : TimerSystem
  callbacks : MemoryPool.PoolRun
  loose : Finset Nat

/-- What can happen next. -/
inductive CallbackAction
  | newCallback
  | timer (action : Action)

/-- `if (pCb) delete pCb;`. The destructor of the base class deletes a pointer that
nothing sets, which is `NULL` in the memory of the pool. -/
def deleteCallback (pCallbackPool : MemoryPool) (callbacks : MemoryPool.PoolRun) :
    Option Nat → Option MemoryPool.PoolRun
  | none => some callbacks
  | some pCb => pCallbackPool.callPool callbacks (.removeFromPool (UInt64.ofNat pCb))

namespace CallbackSystem

variable (pTimerPool pCallbackPool : MemoryPool)

/-- The shared memory as its creators leave it. -/
def initial : CallbackSystem where
  shared := TimerSystem.initial pTimerPool
  callbacks := MemoryPool.createRun pCallbackPool
  loose := ∅

/-- `new TestCallback ()`. The operator answers `NULL` on an exhausted pool, and the
constructor then writes through it. -/
def newCallback (system : CallbackSystem) : Option CallbackSystem :=
  match pCallbackPool.getFromPool system.callbacks.area with
  | none | some (none, _) => none
  | some (some object, area) =>
      some
        { system with
          callbacks := ⟨area, insert object system.callbacks.outstanding⟩
          loose := insert object.toNat system.loose }

/-- `pCb->triggered ()`, of a callback that touches no timer. -/
def triggered (system : CallbackSystem) (pTimer : UInt64) (pCb : Nat) : Option CallbackSystem :=
  if UInt64.ofNat pCb ∈ system.callbacks.outstanding then
    (recordTriggered system.shared pTimer).map fun shared => { system with shared := shared }
  else
    none

/-- `Timer::schedule`. A timer without a callback takes the one it is given. -/
def schedule (system : CallbackSystem) (pTimer : UInt64) (arguments : ScheduleArguments)
    (current rand : UInt64) : Option CallbackSystem :=
  (system.shared.schedule pTimer arguments current rand).map fun shared =>
    { system with
      shared := shared
      loose :=
        match (system.shared.timers pTimer).pCb, arguments.pCb with
        | none, some pCb => system.loose.erase pCb
        | _, _ => system.loose }

/-- `Timer::cancel`. -/
def cancel (system : CallbackSystem) (pTimer : UInt64) : Option CallbackSystem :=
  (deleteCallback pCallbackPool system.callbacks (system.shared.timers pTimer).pCb).map
    fun callbacks =>
      { system with shared := system.shared.cancel pTimer, callbacks := callbacks }

/-- `Timer::~Timer`. -/
def destroy (system : CallbackSystem) (pTimer : UInt64) : Option CallbackSystem := do
  let shared ← system.shared.destroy pTimer
  let callbacks ← deleteCallback pCallbackPool system.callbacks (system.shared.timers pTimer).pCb
  some { system with shared := shared, callbacks := callbacks }

/-- `delete pTimer`. -/
def delete (system : CallbackSystem) (pTimer : UInt64) : Option CallbackSystem :=
  (system.destroy pCallbackPool pTimer).bind fun system =>
    (system.shared.operatorDelete pTimerPool pTimer).map fun shared =>
      { system with shared := shared }

/-- `Timer::changeFiringTime`. -/
def changeFiringTime (system : CallbackSystem) (pTimer : UInt64) (newTimeout current : UInt64) :
    Option CallbackSystem :=
  (system.shared.changeFiringTime pTimer newTimeout current).map fun shared =>
    { system with shared := shared }

/-- `Timer::processACallback`. -/
def processACallback (system : CallbackSystem) (pTimer : UInt64) (current : UInt64) :
    Option (Result × CallbackSystem) :=
  let timer := system.shared.timers pTimer
  match timer.type with
  | .OneShot =>
      match timer.pCb with
      | some pCb => do
          let system ← system.triggered pTimer pCb
          let system ← system.delete pTimerPool pCallbackPool pTimer
          some (.OK, system)
      | none => some (.ERROR, system)
  | .Periodic =>
      match timer.pCb with
      | some pCb => do
          let system ← system.triggered pTimer pCb
          let system ← (
            if timer.numberOfTimesFired ≤ timer.howManyTimesToFire ∨
                timer.howManyTimesToFire = 0 then
              system.changeFiringTime pTimer timer.timeout current
            else
              system.delete pTimerPool pCallbackPool pTimer)
          some (.OK, system)
      | none => some (.ERROR, system)
  | .Invalid => some (.ERROR, system)

/-- A call of a method of an allocated timer. -/
def call (system : CallbackSystem) (pTimer : UInt64) (method : Option CallbackSystem) :
    Option CallbackSystem :=
  if pTimer ∈ system.shared.pool.outstanding then method else none

/-- One step. -/
def step (system : CallbackSystem) : CallbackAction → Option CallbackSystem
  | .newCallback => system.newCallback pCallbackPool
  | .timer (.schedule pTimer request current rand) =>
      system.call pTimer
        ({ system with shared := { system.shared with clock := current } }.schedule pTimer
          request.arguments current rand)
  | .timer (.cancel pTimer) => system.call pTimer (system.cancel pCallbackPool pTimer)
  | .timer (.delete pTimer) => system.call pTimer (system.delete pTimerPool pCallbackPool pTimer)
  | .timer (.deliver position current) =>
      system.shared.messages[position]?.bind fun envelope =>
        ({ system with shared := system.shared.receive position current }.processACallback
          pTimerPool pCallbackPool
          (getTimerAtIndex pTimerPool envelope.message.shmIndex) current).map Prod.snd
  | .timer action =>
      (system.shared.step pTimerPool action).map fun shared => { system with shared := shared }

/-- A client passes to `schedule` only callbacks that no timer has taken. -/
def Hands (system : CallbackSystem) : CallbackAction → Prop
  | .timer (.schedule _ request _ _) => ∀ pCb ∈ request.arguments.pCb, pCb ∈ system.loose
  | _ => True

instance (system : CallbackSystem) (action : CallbackAction) : Decidable (system.Hands action) :=
  match action with
  | .timer (.schedule _ request _ _) =>
      inferInstanceAs (Decidable (∀ pCb ∈ request.arguments.pCb, pCb ∈ system.loose))
  | .newCallback | .timer (.new _) | .timer (.cancel _) | .timer (.restart _ _)
  | .timer (.stop _) | .timer (.delete _) | .timer (.timerTask _)
  | .timer (.deliver _ _) => isTrue trivial

end CallbackSystem

end TimerAndCallback
