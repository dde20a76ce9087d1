import TimerAndCallback.Platform.Timer
import TimerAndCallback.Platform.TimerMinHeap
import TimerAndCallback.Platform.MemoryPoolAllocator

/-! # The shared state and the operations on it

The client tasks and `TimerTask` share the timer pool, the objects in it, the heap
and the message queues. A `Timer*` is an address in the pool, which the processes
map at the same place since they are forked. An operation answers `none` when it
uses memory it must not: the array of the heap outside its capacity, a word outside the
mapping of the pool, the object that an exhausted pool did not hand out, or a modulus of
zero. The timer semaphore makes each operation one step.

`Ledger`, `Envelope.timer`, `Envelope.incarnation`, `Envelope.sentAt`, `clock` and
the pool's `outstanding` record the history of a run. No operation reads them.
-/

namespace TimerAndCallback

/-- `PosixMessageQueueObject`. -/
structure PosixMessageQueueObject where
  fromTask : TaskId
  event : UInt32
  shmIndex : UInt64
  deriving DecidableEq, Repr

/-- A message in a queue, with the firing that sent it. -/
structure Envelope where
  destination : TaskId
  message : PosixMessageQueueObject
  timer : UInt64
  incarnation : Nat
  sentAt : UInt64
  deriving DecidableEq, Repr

/-- The history of one object slot. `incarnation` counts the times the slot was
handed out or returned; the rest is about the object last constructed in it. -/
structure Ledger where
  incarnation : Nat
  scheduled : Bool
  timesTriggered : Nat
  timesSent : Nat
  deriving DecidableEq, Repr

structure TimerSystem where
  pool : MemoryPool.PoolRun
  timers : UInt64 → Timer
  minHeap : TimerMinHeap UInt64
  messages : List Envelope
  ledger : UInt64 → Ledger
  clock : UInt64

namespace TimerSystem

/-- `Timer::pTimerPool`; `sizeof (Timer)` is 56. -/
def timerPool (pShm : UInt64) : MemoryPool :=
  MemoryPool.create pShm 56 (UInt32.ofNat MAX_NUMBER_OF_TIMERS)

/-- The shared memory as its creators leave it. -/
def initial (pTimerPool : MemoryPool) : TimerSystem where
  pool := MemoryPool.createRun pTimerPool
  timers _ := Timer.zeroFilled
  minHeap := TimerMinHeap.empty
  messages := []
  ledger _ := ⟨0, false, 0, 0⟩
  clock := 0

/-- The firing time the heap reads through a pointer. -/
def whenToFire (system : TimerSystem) (pTimer : UInt64) : UInt64 :=
  (system.timers pTimer).whenToFire

/-- Write the object at `pTimer`. -/
@[simps]
def setTimer (system : TimerSystem) (pTimer : UInt64) (timer : Timer) : TimerSystem :=
  { system with timers := Function.update system.timers pTimer timer }

/-- `setTimer` sets its timer. -/
@[simp] theorem setTimer_timers_self (system : TimerSystem) (pTimer : UInt64) (timer : Timer) :
    (system.setTimer pTimer timer).timers pTimer = timer := Function.update_self _ _ _

/-- Write the history of the slot at `pTimer`. -/
@[simps]
def setLedger (system : TimerSystem) (pTimer : UInt64) (ledger : Ledger) : TimerSystem :=
  { system with ledger := Function.update system.ledger pTimer ledger }

/-- `heap->addToHeap (pTimer)`; every caller ignores the result. -/
def addToHeap (system : TimerSystem) (pTimer : UInt64) : Option TimerSystem :=
  (system.minHeap.addToHeap MAX_NUMBER_OF_TIMERS system.whenToFire pTimer).map fun outcome =>
    { system with minHeap := outcome.2 }

/-- `heap->removeFromHeap (pTimer)`; every caller ignores the result. -/
def removeFromHeap (system : TimerSystem) (pTimer : UInt64) : Option TimerSystem :=
  (system.minHeap.removeFromHeap MAX_NUMBER_OF_TIMERS system.whenToFire pTimer).map fun outcome =>
    { system with minHeap := outcome.2 }

/-- `pTimer->setTimerState (state)`. -/
def setTimerState (system : TimerSystem) (pTimer : UInt64) (state : TimerState) : TimerSystem :=
  system.setTimer pTimer { system.timers pTimer with state := state }

/-- `setTimerState` sets the state of its timer. -/
@[simp] theorem setTimerState_timers_self (system : TimerSystem) (pTimer : UInt64)
    (state : TimerState) : (system.setTimerState pTimer state).timers pTimer =
      { system.timers pTimer with state := state } := Function.update_self _ _ _

/-- `Timer::schedule`. -/
def schedule (system : TimerSystem) (pTimer : UInt64) (arguments : ScheduleArguments)
    (current rand : UInt64) : Option TimerSystem := do
  let timer ← (system.timers pTimer).arm arguments current rand
  let ledger := { system.ledger pTimer with scheduled := true }
  ((system.setTimer pTimer timer).setLedger pTimer ledger).addToHeap pTimer

/-- `Timer::cancel`. The timer stays in the heap. -/
def cancel (system : TimerSystem) (pTimer : UInt64) : TimerSystem :=
  system.setTimer pTimer { system.timers pTimer with pCb := none, state := .Idle }

/-- `cancel` leaves an idle timer without a callback. -/
@[simp] theorem cancel_timers_self (system : TimerSystem) (pTimer : UInt64) :
    (system.cancel pTimer).timers pTimer =
      { system.timers pTimer with pCb := none, state := .Idle } := Function.update_self _ _ _

/-- `Timer::restart`. Only an active timer is removed first; a timer without a
callback is added like any other. -/
def restart (system : TimerSystem) (pTimer : UInt64) (current : UInt64) : Option TimerSystem := do
  let system ← (
    if (system.timers pTimer).state = .Active then
      (system.setTimerState pTimer .Idle).removeFromHeap pTimer
    else
      some system)
  let timer := system.timers pTimer
  let nextFiringTime := convertTimerTimeoutToAbsoluteTimeSinceEpoch current timer.timeout
  (system.setTimer pTimer
    { timer with whenToFire := nextFiringTime, state := .Active }).addToHeap pTimer

/-- `Timer::stop`. -/
def stop (system : TimerSystem) (pTimer : UInt64) : Option TimerSystem :=
  (system.setTimerState pTimer .Idle).removeFromHeap pTimer

/-- `Timer::changeFiringTime`. The timer is taken not to be in the heap. -/
def changeFiringTime (system : TimerSystem) (pTimer : UInt64) (newTimeout current : UInt64) :
    Option TimerSystem :=
  let nextFiringTime := convertTimerTimeoutToAbsoluteTimeSinceEpoch current newTimeout
  (system.setTimer pTimer
    { system.timers pTimer with
      timeout := newTimeout
      whenToFire := nextFiringTime
      state := .Active }).addToHeap pTimer

/-- `Timer::~Timer`. -/
def destroy (system : TimerSystem) (pTimer : UInt64) : Option TimerSystem := do
  let timer := system.timers pTimer
  let system ← (
    if timer.type = .Invalid ∨ timer.state = .Done then some system
    else system.removeFromHeap pTimer)
  some (system.setTimer pTimer { system.timers pTimer with pCb := none })

section Pool

variable (pTimerPool : MemoryPool)

/-- `Timer::getIndex`. -/
def getIndex (pTimer : UInt64) : UInt64 := pTimerPool.getIndexFromMemoryLocation pTimer

/-- `Timer::getTimerAtIndex`. -/
def getTimerAtIndex (index : UInt64) : UInt64 := pTimerPool.getMemoryLocationFromIndex index

/-- `Timer::operator new`. -/
def operatorNew (system : TimerSystem) : Option (Option UInt64 × TimerSystem) :=
  (pTimerPool.getFromPool system.pool.area).map fun
    | (none, area) => (none, { system with pool := { system.pool with area := area } })
    | (some object, area) =>
        (some object,
          { system with
            pool := { area := area, outstanding := insert object system.pool.outstanding }
            ledger := Function.update system.ledger object
              ⟨(system.ledger object).incarnation + 1, false, 0, 0⟩ })

/-- The system once `object` is returned to its pool, which left this area. -/
@[simps]
def freed (system : TimerSystem) (object : UInt64) (area : SharedManagementArea) : TimerSystem :=
  { system with
    pool := { area := area, outstanding := system.pool.outstanding.erase object }
    ledger := Function.update system.ledger object
      { system.ledger object with incarnation := (system.ledger object).incarnation + 1 } }

/-- `Timer::operator delete`. -/
def operatorDelete (system : TimerSystem) (object : UInt64) : Option TimerSystem :=
  (pTimerPool.removeFromPool system.pool.area object).map (system.freed object)

/-- `new Timer ()` and `new Timer (creatingTId, cbContextTId)`. The operator answers
`NULL` on an exhausted pool, and the constructor then writes through it. -/
def new (system : TimerSystem) (tasks : Option (TaskId × TaskId)) : Option TimerSystem :=
  match system.operatorNew pTimerPool with
  | none | some (none, _) => none
  | some (some pTimer, system) =>
      let memory := system.timers pTimer
      let timer := match tasks with
        | none => memory.construct
        | some (creatingTId, cbContextTId) => memory.constructFor creatingTId cbContextTId
      some (system.setTimer pTimer timer)

/-- `delete pTimer`. -/
def delete (system : TimerSystem) (pTimer : UInt64) : Option TimerSystem :=
  (system.destroy pTimer).bind fun system => system.operatorDelete pTimerPool pTimer

/-- `Timer::processACallback`, where `triggered` is the callback's method. The
members are read before the callback runs. -/
def processACallback (triggered : TimerSystem → UInt64 → Option TimerSystem)
    (system : TimerSystem) (pTimer : UInt64) (current : UInt64) :
    Option (Result × TimerSystem) :=
  let timer := system.timers pTimer
  match timer.type with
  | .OneShot =>
      if timer.pCb.isSome then do
        let system ← triggered system pTimer
        let system ← system.delete pTimerPool pTimer
        some (.OK, system)
      else
        some (.ERROR, system)
  | .Periodic =>
      if timer.pCb.isSome then do
        let system ← triggered system pTimer
        let system ← (
          if timer.numberOfTimesFired ≤ timer.howManyTimesToFire ∨ timer.howManyTimesToFire = 0 then
            system.changeFiringTime pTimer timer.timeout current
          else
            system.delete pTimerPool pTimer)
        some (.OK, system)
      else
        some (.ERROR, system)
  | .Invalid => some (.ERROR, system)

/-- `send` on the queue of the timer's callback context, with the firing recorded. -/
@[simps]
def send (system : TimerSystem) (pTimer : UInt64) (message : PosixMessageQueueObject)
    (current : UInt64) : TimerSystem :=
  let ledger := system.ledger pTimer
  { system with
    messages := system.messages ++
      [{ destination := (system.timers pTimer).cbContexTId
         message := message
         timer := pTimer
         incarnation := ledger.incarnation
         sentAt := current }]
    ledger := Function.update system.ledger pTimer
      { ledger with timesSent := ledger.timesSent + 1 } }

/-- One turn of the loop of `TimerTask::run`. -/
def timerTaskTurn (system : TimerSystem) (current : UInt64) : Option TimerSystem :=
  if system.minHeap.numberOfTimersBeingManaged = 0 then
    some system
  else do
    let top ← system.minHeap.heap 0
    let timer := system.timers top
    if uint64LEQ timer.whenToFire current then
      match timer.state with
      | .Active =>
          let message := ⟨.TimerTask, 0, getIndex pTimerPool top⟩
          let fired := { timer with numberOfTimesFired := timer.numberOfTimesFired + 1 }
          let system ← (system.setTimer top fired).removeFromHeap top
          some ((system.setTimerState top .Done).send top message current)
      | .Idle =>
          let system ← system.removeFromHeap top
          system.changeFiringTime top timer.timeout current
      | .Done => some system
    else
      some system

end Pool

end TimerSystem

end TimerAndCallback
