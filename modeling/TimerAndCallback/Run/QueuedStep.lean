import TimerAndCallback.Platform.PosixMessageQueue
import TimerAndCallback.Foundation.Mailbox
import TimerAndCallback.Run.Step

/-! # The system with its message queues

Every task has created its queue, and `TimerTask` has opened all of them, before any
timer is scheduled. The messages are bytes here. `TimerTask` fires a timer and sends
the message in two steps, and waits in the second while the queue is full. The loop of
`getMessages` takes one message, decodes it and processes the timer it leads to.

`shared.messages`, `fired` and `handled` record the history of a run: the firings whose
message no task has received yet, all firings that sent a message, and the slots that
the tasks processed the timers of.
-/

namespace TimerAndCallback

open ByteStream Mailbox

/-- `TaskId::getPathNameFromId`. -/
def TaskId.getPathNameFromId : TaskId → String
  | .Test => "/Test"
  | .ApplicationBaseTask => "/ApplicationBaseTask"
  | .TimerTask => "/TimerTask"

/-- The tasks have different queues. -/
theorem TaskId.getPathNameFromId_inj {task other : TaskId} :
    task.getPathNameFromId = other.getPathNameFromId ↔ task = other := by
  cases task <;> cases other <;> decide

/-- A slot that a task processed the timer of, and the incarnation it had then. -/
structure Processed where
  task : TaskId
  timer : UInt64
  incarnation : Nat
  deriving DecidableEq, Repr

structure QueuedSystem where
  shared : TimerSystem
  /-- The queues of the system, by name. -/
  queues : String → Option MessageQueue
  /-- What the receiving thread of each task keeps of its queue. -/
  pMq : TaskId → Option PosixMessageQueue
  /-- `TimerTask::pMQToTasks`, by the task of each index. -/
  pMQToTasks : TaskId → PosixMessageQueue
  /-- The message that `TimerTask` has not sent yet, and the task it is for. -/
  sending : Option (TaskId × List UInt8)
  fired : List Envelope
  handled : List Processed

/-- The calls that a task makes on timers. -/
inductive ClientCall
  | new (tasks : Option (TaskId × TaskId))
  | schedule (pTimer : UInt64) (request : ScheduleRequest) (current rand : UInt64)
  | cancel (pTimer : UInt64)
  | restart (pTimer : UInt64) (current : UInt64)
  | stop (pTimer : UInt64)
  | delete (pTimer : UInt64)

/-- What can happen next: a call, a step of `TimerTask` with the memory its new buffer
has, or one turn of a task's `getMessages` with the memory its object has. -/
inductive QueuedAction
  | client (call : ClientCall)
  | timerTask (current : UInt64) (buf : Buffer)
  | getMessages (task : TaskId) (current : UInt64) (pMQO : PosixMessageQueueObject)

/-- The call as a step of the shared state. -/
def ClientCall.action : ClientCall → TimerSystem.Action
  | .new tasks => .new tasks
  | .schedule pTimer request current rand => .schedule pTimer request current rand
  | .cancel pTimer => .cancel pTimer
  | .restart pTimer current => .restart pTimer current
  | .stop pTimer => .stop pTimer
  | .delete pTimer => .delete pTimer

/-- A firing, as `send` records it. -/
def TimerSystem.envelope (system : TimerSystem) (pTimer : UInt64)
    (message : PosixMessageQueueObject) (current : UInt64) : Envelope where
  destination := (system.timers pTimer).cbContexTId
  message := message
  timer := pTimer
  incarnation := (system.ledger pTimer).incarnation
  sentAt := current

namespace QueuedSystem

/-- The queue of a task, as `getMessages` creates it. -/
def createQueue (task : TaskId) (maxMsg msgSize : UInt32) (memory : Buffer)
    (system : QueuedSystem) : QueuedSystem :=
  let opened := PosixMessageQueue.create task.getPathNameFromId true false maxMsg msgSize memory
    (system.queues task.getPathNameFromId)
  { system with
    queues := Function.update system.queues task.getPathNameFromId opened.2
    pMq := Function.update system.pMq task (some opened.1) }

/-- `TimerTask::initialize`: a queue is opened for every task, with attributes that are
all zero. -/
def initializeTimerTask (memory : Buffer) (system : QueuedSystem) : QueuedSystem :=
  { system with
    pMQToTasks := fun task =>
      (PosixMessageQueue.create task.getPathNameFromId false false 0 0 memory
        (system.queues task.getPathNameFromId)).1 }

/-- The system once the tasks have created their queues, with these attributes, and
`TimerTask` has opened them. -/
def initial (pTimerPool : MemoryPool) (attributes : TaskId → UInt32 × UInt32)
    (memory : Buffer) : QueuedSystem :=
  let create := fun (task : TaskId) =>
    createQueue task (attributes task).1 (attributes task).2 memory
  initializeTimerTask memory
    (create .TimerTask (create .ApplicationBaseTask (create .Test
      { shared := TimerSystem.initial pTimerPool
        queues := fun _ => none
        pMq := fun _ => none
        pMQToTasks := fun _ => ⟨"", none, ⟨false, 0, 0, 0⟩, 0, memory⟩
        sending := none
        fired := []
        handled := [] })))

/-- `pMQToTasks[...]->send (buf, sizeof (PosixMessageQueueObject))`. -/
def send (system : QueuedSystem) (destination : TaskId) (message : List UInt8) :
    Option QueuedSystem :=
  let object := system.pMQToTasks destination
  (system.queues object.name).bind fun queue =>
    match object.send queue message with
    | .returns queue => some { system with
        queues := Function.update system.queues object.name (some queue)
        sending := none }
    | .blocks => some system
    | .aborts | .overruns => none

section Pool

variable (pTimerPool : MemoryPool)

/-- One turn of the loop of `TimerTask::run`, up to the call of `send`. -/
def timerTaskTurn (system : QueuedSystem) (current : UInt64) (buf : Buffer) :
    Option QueuedSystem :=
  let shared := { system.shared with clock := current }
  if shared.minHeap.numberOfTimersBeingManaged = 0 then
    some { system with shared := shared }
  else do
    let top ← shared.minHeap.heap 0
    let timer := shared.timers top
    if uint64LEQ timer.whenToFire current then
      match timer.state with
      | .Active =>
          let pMQO := ⟨.TimerTask, 0, TimerSystem.getIndex pTimerPool top⟩
          let fired := { timer with numberOfTimesFired := timer.numberOfTimesFired + 1 }
          let shared ← (shared.setTimer top fired).removeFromHeap top
          let shared := shared.setTimerState top .Done
          some { system with
            shared := shared.send top pMQO current
            sending := some ((shared.timers top).cbContexTId, pMQO.message buf)
            fired := system.fired ++ [shared.envelope top pMQO current] }
      | .Idle =>
          let shared ← shared.removeFromHeap top
          let shared ← shared.changeFiringTime top timer.timeout current
          some { system with shared := shared }
      | .Done => some { system with shared := shared }
    else
      some { system with shared := shared }

/-- A step of `TimerTask`: it goes on with the message it has to send. -/
def timerTask (system : QueuedSystem) (current : UInt64) (buf : Buffer) : Option QueuedSystem :=
  match system.sending with
  | none => system.timerTaskTurn pTimerPool current buf
  | some (destination, message) => system.send destination message

/-- One turn of the loop of `getMessages`. -/
def getMessages (system : QueuedSystem) (task : TaskId) (current : UInt64)
    (pMQO : PosixMessageQueueObject) : Option QueuedSystem :=
  (system.pMq task).bind fun object =>
    (system.queues object.name).bind fun queue =>
      match object.receive queue with
      | .returns (_, object, queue) => do
          let pMQO ← pMQO.deserializeFromCharBuf object.pBuffer
          let pTimer := TimerSystem.getTimerAtIndex pTimerPool pMQO.shmIndex
          let received := system.shared.receive
            (oldest Envelope.destination system.shared.messages task) current
          let (_, shared) ←
            received.processACallback pTimerPool TimerSystem.recordTriggered pTimer current
          some { system with
            shared := shared
            queues := Function.update system.queues object.name (some queue)
            pMq := Function.update system.pMq task (some object)
            handled := system.handled ++
              [⟨task, pTimer, (system.shared.ledger pTimer).incarnation⟩] }
      | .blocks => some system
      | .aborts | .overruns => none

/-- One step. -/
def step (system : QueuedSystem) : QueuedAction → Option QueuedSystem
  | .client call => (system.shared.step pTimerPool call.action).map fun shared =>
      { system with shared := shared }
  | .timerTask current buf => system.timerTask pTimerPool current buf
  | .getMessages task current pMQO => system.getMessages pTimerPool task current pMQO

end Pool

end QueuedSystem

end TimerAndCallback
