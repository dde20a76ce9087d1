import TimerAndCallback.Platform.TimerSystem

/-! # Steps of the system

A step is one client call on a timer, one turn of `TimerTask::run`, or the delivery
of one queued message, in any order. The callbacks run by deliveries touch no
timer. A client calls methods of a timer only while it is allocated.
-/

namespace TimerAndCallback

namespace TimerSystem

/-- What can happen next, with the clock and `rand ()` values that are read. -/
inductive Action
  | new (tasks : Option (TaskId × TaskId))
  | schedule (pTimer : UInt64) (request : ScheduleRequest) (current rand : UInt64)
  | cancel (pTimer : UInt64)
  | restart (pTimer : UInt64) (current : UInt64)
  | stop (pTimer : UInt64)
  | delete (pTimer : UInt64)
  | timerTask (current : UInt64)
  | deliver (position : Nat) (current : UInt64)

/-- A callback that touches no timer. -/
def recordTriggered (system : TimerSystem) (pTimer : UInt64) : Option TimerSystem :=
  let ledger := system.ledger pTimer
  some (system.setLedger pTimer { ledger with timesTriggered := ledger.timesTriggered + 1 })

/-- Take the message at a position out of the queues. -/
@[simps]
def receive (system : TimerSystem) (position : Nat) (current : UInt64) : TimerSystem :=
  { system with messages := system.messages.eraseIdx position, clock := current }

/-- A call of a method of an allocated timer. -/
def call (system : TimerSystem) (pTimer : UInt64) (method : Option TimerSystem) :
    Option TimerSystem :=
  if pTimer ∈ system.pool.outstanding then method else none

/-- One step. -/
def step (pTimerPool : MemoryPool) (system : TimerSystem) : Action → Option TimerSystem
  | .new tasks => system.new pTimerPool tasks
  | .schedule pTimer request current rand =>
      system.call pTimer
        ({ system with clock := current }.schedule pTimer request.arguments current rand)
  | .cancel pTimer => system.call pTimer (some (system.cancel pTimer))
  | .restart pTimer current =>
      system.call pTimer ({ system with clock := current }.restart pTimer current)
  | .stop pTimer => system.call pTimer (system.stop pTimer)
  | .delete pTimer => system.call pTimer (system.delete pTimerPool pTimer)
  | .timerTask current => { system with clock := current }.timerTaskTurn pTimerPool current
  | .deliver position current =>
      system.messages[position]?.bind fun envelope =>
        ((system.receive position current).processACallback pTimerPool recordTriggered
          (getTimerAtIndex pTimerPool envelope.message.shmIndex) current).map Prod.snd

/-- A timer of the pool mapped at address zero, by its index. -/
def timerAt (index : UInt64) : UInt64 := getTimerAtIndex (timerPool 0) index

end TimerSystem

end TimerAndCallback
