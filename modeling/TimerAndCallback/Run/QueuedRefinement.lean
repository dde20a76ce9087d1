import TimerAndCallback.Run.QueuedStep
import TimerAndCallback.Run.MessageIncarnation
import TimerAndCallback.Foundation.Refinement

/-! # The queues behind the messages

The system with its queues of bytes takes only steps that the shared state takes with
one list of messages: what waits in the queue of a task, and what `TimerTask` has not
sent it yet, are the bytes of the messages to that task, in the order of their firing.
So the messages of each task are processed in that order, each of them once.
-/

namespace TimerAndCallback

namespace TimerSystem

variable {pTimerPool : MemoryPool} {system next : TimerSystem}

private theorem Transition.messages_client {call : ClientCall}
    (transition : Transition pTimerPool system call.action next) :
    next.messages = system.messages := by
  cases call <;> cases transition <;> rfl

end TimerSystem

namespace QueuedSystem

open TimerSystem Execution Mailbox

/-- The bytes that wait in the queue of a task. -/
def waiting (system : QueuedSystem) (task : TaskId) : List (List UInt8) :=
  match system.queues task.getPathNameFromId with
  | none => []
  | some queue => queue.messages

/-- The bytes that `TimerTask` has to send to a task. -/
def unsent (system : QueuedSystem) (task : TaskId) : List (List UInt8) :=
  match system.sending with
  | none => []
  | some (destination, message) => if destination = task then [message] else []

/-- The queues have the sizes they were created with, and the bytes on the way to a task
are those of its messages. -/
structure Linked (pShm : UInt64) (attributes : TaskId → UInt32 × UInt32)
    (system : QueuedSystem) : Prop where
  wellFormed : system.shared.WellFormed pShm
  sized : ∀ task queue, system.queues task.getPathNameFromId = some queue →
    queue.mq_maxmsg = (attributes task).1.toNat ∧ queue.mq_msgsize = (attributes task).2.toNat
  owned : ∀ task object, system.pMq task = some object → object.name = task.getPathNameFromId
  opened : ∀ task, (system.pMQToTasks task).name = task.getPathNameFromId
  transit : ∀ task, system.waiting task ++ system.unsent task =
    (mailbox Envelope.destination system.shared.messages task).map fun envelope =>
      envelope.message.wire

/-- The steps of the shared state that a step stands for: none while `TimerTask` sends
and while a task waits for a message. -/
def matched (system : QueuedSystem) : QueuedAction → List Action
  | .client call => [call.action]
  | .timerTask current _ => if system.sending.isNone then [.timerTask current] else []
  | .getMessages task current _ =>
      if (system.waiting task).isEmpty then []
      else [.deliver (oldest Envelope.destination system.shared.messages task) current]

/-- Every way a step can end. -/
inductive Transition (pTimerPool : MemoryPool) (system : QueuedSystem) :
    QueuedAction → QueuedSystem → Prop
  | called (call : ClientCall) (shared : TimerSystem)
      (taken : system.shared.step pTimerPool call.action = some shared) :
      Transition pTimerPool system (.client call) { system with shared := shared }
  | turned (current : UInt64) (buf : ByteStream.Buffer) (shared : TimerSystem)
      (free : system.sending = none)
      (taken : system.shared.step pTimerPool (.timerTask current) = some shared)
      (quiet : shared.messages = system.shared.messages) :
      Transition pTimerPool system (.timerTask current buf) { system with shared := shared }
  | fired (current : UInt64) (buf : ByteStream.Buffer) (shared : TimerSystem)
      (envelope : Envelope) (free : system.sending = none)
      (taken : system.shared.step pTimerPool (.timerTask current) = some shared)
      (sent : shared.messages = system.shared.messages ++ [envelope]) :
      Transition pTimerPool system (.timerTask current buf)
        { system with
          shared := shared
          sending := some (envelope.destination, envelope.message.wire)
          fired := system.fired ++ [envelope] }
  | blocked (current : UInt64) (buf : ByteStream.Buffer) (destination : TaskId)
      (message : List UInt8) (queue : MessageQueue)
      (busy : system.sending = some (destination, message))
      (found : system.queues (system.pMQToTasks destination).name = some queue)
      (full : queue.mq_maxmsg ≤ queue.messages.length) :
      Transition pTimerPool system (.timerTask current buf) system
  | sent (current : UInt64) (buf : ByteStream.Buffer) (destination : TaskId)
      (message : List UInt8) (queue : MessageQueue)
      (busy : system.sending = some (destination, message))
      (found : system.queues (system.pMQToTasks destination).name = some queue)
      (fits : message.length ≤ queue.mq_msgsize)
      (room : queue.messages.length < queue.mq_maxmsg) :
      Transition pTimerPool system (.timerTask current buf)
        { system with
          queues := Function.update system.queues (system.pMQToTasks destination).name
            (some (queue.push message fits room))
          sending := none }
  | waited (task : TaskId) (current : UInt64) (pMQO : PosixMessageQueueObject)
      (object : PosixMessageQueue) (queue : MessageQueue) (owned : system.pMq task = some object)
      (found : system.queues object.name = some queue) (empty : queue.messages = []) :
      Transition pTimerPool system (.getMessages task current pMQO) system
  | handled (task : TaskId) (current : UInt64) (pMQO : PosixMessageQueueObject)
      (object : PosixMessageQueue) (queue : MessageQueue) (pBuffer : ByteStream.Buffer)
      (rest : List (List UInt8)) (envelope : Envelope) (shared : TimerSystem)
      (owned : system.pMq task = some object)
      (found : system.queues object.name = some queue)
      (waiting : queue.messages = envelope.message.wire :: rest)
      (front : system.shared.messages[
        oldest Envelope.destination system.shared.messages task]? = some envelope)
      (taken : system.shared.step pTimerPool
        (.deliver (oldest Envelope.destination system.shared.messages task) current) =
          some shared) :
      Transition pTimerPool system (.getMessages task current pMQO)
        { system with
          shared := shared
          queues := Function.update system.queues object.name (some (queue.pop waiting))
          pMq := Function.update system.pMq task (some { object with pBuffer := pBuffer })
          handled := system.handled ++
            [⟨task, getTimerAtIndex pTimerPool envelope.message.shmIndex,
              (system.shared.ledger (getTimerAtIndex pTimerPool
                envelope.message.shmIndex)).incarnation⟩] }

variable {pShm : UInt64} {attributes : TaskId → UInt32 × UInt32}
variable {system next : QueuedSystem} {action : QueuedAction}

private theorem removeFromHeap_messages {shared after : TimerSystem} {pTimer : UInt64}
    (ran : shared.removeFromHeap pTimer = some after) : after.messages = shared.messages := by
  obtain ⟨_, _, rfl⟩ := Option.map_eq_some_iff.mp ran
  rfl

private theorem changeFiringTime_messages {shared after : TimerSystem}
    {pTimer timeout current : UInt64}
    (ran : shared.changeFiringTime pTimer timeout current = some after) :
    after.messages = shared.messages := by
  obtain ⟨_, _, rfl⟩ := Option.map_eq_some_iff.mp ran
  rfl

/-- The queues do not matter to what a turn does to the shared state. -/
theorem timerTaskTurn_shared (pTimerPool : MemoryPool) (current : UInt64)
    (buf : ByteStream.Buffer) :
    (system.timerTaskTurn pTimerPool current buf).map QueuedSystem.shared =
      system.shared.step pTimerPool (.timerTask current) := by
  unfold timerTaskTurn TimerSystem.step TimerSystem.timerTaskTurn
  dsimp only
  split_ifs with none
  · rfl
  · simp only [Option.bind_eq_bind, Option.map_bind]
    refine congrArg (Option.bind _) (funext fun top => ?_)
    dsimp only [Function.comp]
    generalize system.shared.timers top = timer
    obtain ⟨_, state, _, _, _, _, _, _, _, _⟩ := timer
    dsimp only
    split_ifs with due
    · cases state with
      | Active =>
          rw [Option.map_bind]
          rfl
      | Idle =>
          rw [Option.map_bind]
          refine congrArg (Option.bind _) (funext fun removed => ?_)
          dsimp only [Function.comp]
          rw [Option.map_bind]
          exact Option.bind_fun_some _
      | Done => rfl
    · rfl

/-- A turn of the timer task without a send under way is a transition. -/
theorem timerTaskTurn_transition {pTimerPool : MemoryPool} {current : UInt64}
    {buf : ByteStream.Buffer} (free : system.sending = none)
    (ran : system.timerTaskTurn pTimerPool current buf = some next) :
    Transition pTimerPool system (.timerTask current buf) next := by
  have taken : system.shared.step pTimerPool (.timerTask current) = some next.shared :=
    (timerTaskTurn_shared pTimerPool current buf).symm.trans (congrArg _ ran)
  unfold timerTaskTurn at ran
  dsimp only at ran
  split_ifs at ran with none
  · cases ran
    exact .turned current buf _ free taken rfl
  · obtain ⟨top, holds, turned⟩ := Option.bind_eq_some_iff.mp ran
    split_ifs at turned with due
    · split at turned
      next active =>
        obtain ⟨removed, ranRemove, finished⟩ := Option.bind_eq_some_iff.mp turned
        cases finished
        have kept := removeFromHeap_messages ranRemove
        rw [PosixMessageQueueObject.message_eq]
        exact .fired current buf _ ((removed.setTimerState top .Done).envelope top _ current) free
          taken (congrArg (· ++ _) kept)
      next idle =>
        obtain ⟨removed, ranRemove, requeued⟩ := Option.bind_eq_some_iff.mp turned
        obtain ⟨after, ranChange, finished⟩ := Option.bind_eq_some_iff.mp requeued
        cases finished
        have kept := removeFromHeap_messages ranRemove
        exact .turned current buf after free taken
          ((changeFiringTime_messages ranChange).trans kept)
      next done =>
        cases turned
        exact .turned current buf _ free taken rfl
    · cases turned
      exact .turned current buf _ free taken rfl

/-- A step of the timer task is a transition. -/
theorem timerTask_transition {pTimerPool : MemoryPool} {current : UInt64}
    {buf : ByteStream.Buffer} (ran : system.timerTask pTimerPool current buf = some next) :
    Transition pTimerPool system (.timerTask current buf) next := by
  unfold timerTask at ran
  split at ran
  next free => exact timerTaskTurn_transition free ran
  next destination message busy =>
    obtain ⟨queue, found, sent⟩ := Option.bind_eq_some_iff.mp ran
    split at sent
    next returns =>
      cases sent
      obtain ⟨fits, room, rfl⟩ := PosixMessageQueue.send_returns returns
      exact .sent current buf destination message queue busy found fits room
    next blocks =>
      cases sent
      exact .blocked current buf destination message queue busy found
        (PosixMessageQueue.send_blocks blocks)
    all_goals cases sent

/-- The message in front of a task's queue is its oldest. -/
theorem Linked.front (linked : system.Linked pShm attributes) {task : TaskId}
    {object : PosixMessageQueue} {queue : MessageQueue} (owned : system.pMq task = some object)
    (found : system.queues object.name = some queue) {message : List UInt8}
    {rest : List (List UInt8)} (waits : queue.messages = message :: rest) :
    ∃ envelope others,
      mailbox Envelope.destination system.shared.messages task = envelope :: others ∧
        message = envelope.message.wire := by
  have transit := linked.transit task
  rw [waiting, ← linked.owned task object owned, found] at transit
  dsimp only at transit
  rw [waits, List.cons_append] at transit
  obtain ⟨envelope, others, letters, front, _⟩ := List.map_eq_cons_iff.mp transit.symm
  exact ⟨envelope, others, letters, front.symm⟩

/-- A step of a task that gets its messages is a transition. -/
theorem getMessages_transition (linked : system.Linked pShm attributes) {task : TaskId}
    {current : UInt64} {pMQO : PosixMessageQueueObject}
    (ran : system.getMessages (timerPool pShm) task current pMQO = some next) :
    Transition (timerPool pShm) system (.getMessages task current pMQO) next := by
  obtain ⟨object, owned, ran⟩ := Option.bind_eq_some_iff.mp ran
  obtain ⟨queue, found, ran⟩ := Option.bind_eq_some_iff.mp ran
  split at ran
  next count after queue' returns =>
    obtain ⟨_, memory, message, rest, waits, rfl, rfl, rfl⟩ :=
      PosixMessageQueue.receive_returns returns
    obtain ⟨envelope, others, letters, rfl⟩ := linked.front owned found waits
    have decoded := PosixMessageQueueObject.deserializeFromCharBuf_message pMQO envelope.message
      memory memory
    rw [PosixMessageQueueObject.message_eq] at decoded
    simp only [decoded, Option.bind_eq_bind, Option.bind_some] at ran
    obtain ⟨⟨result, shared⟩, processed, finished⟩ := Option.bind_eq_some_iff.mp ran
    cases finished
    have front := getElem?_oldest letters
    refine .handled task current pMQO object queue _ rest envelope shared owned found waits front ?_
    simp only [TimerSystem.step, front, Option.bind_some, processed, Option.map_some]
  next blocks =>
    cases ran
    exact .waited task current pMQO object queue owned found
      (PosixMessageQueue.receive_blocks blocks)
  all_goals cases ran

/-- The inversion of a step. -/
theorem step_transition (linked : system.Linked pShm attributes)
    (ran : system.step (timerPool pShm) action = some next) :
    Transition (timerPool pShm) system action next := by
  cases action with
  | client call =>
      obtain ⟨shared, taken, rfl⟩ := Option.map_eq_some_iff.mp ran
      exact .called call shared taken
  | timerTask current buf => exact timerTask_transition ran
  | getMessages task current pMQO => exact getMessages_transition linked ran

/-- The messages that wait for a task are those of its queue. -/
theorem waiting_of_found {task : TaskId} {queue : MessageQueue}
    (found : system.queues task.getPathNameFromId = some queue) :
    system.waiting task = queue.messages := by
  rw [waiting, found]

private theorem waiting_update_self {task : TaskId} {queue : MessageQueue} (same : next.queues =
    Function.update system.queues task.getPathNameFromId (some queue)) :
    next.waiting task = queue.messages := by
  rw [waiting, same, Function.update_self]

private theorem waiting_update_other {task other : TaskId} {queue : MessageQueue}
    (different : other ≠ task)
    (same : next.queues = Function.update system.queues task.getPathNameFromId (some queue)) :
    next.waiting other = system.waiting other := by
  rw [waiting, same, Function.update_of_ne fun names =>
    different (TaskId.getPathNameFromId_inj.mp names)]
  rfl

/-- Nothing is unsent while no send is under way. -/
theorem unsent_of_free (free : system.sending = none) (task : TaskId) :
    system.unsent task = [] := by
  rw [unsent, free]

/-- The message of a send under way is unsent for its task. -/
theorem unsent_self {task : TaskId} {message : List UInt8}
    (busy : system.sending = some (task, message)) : system.unsent task = [message] := by
  rw [unsent, busy]
  exact if_pos rfl

/-- A send under way leaves nothing unsent for the other tasks. -/
theorem unsent_other {task other : TaskId} {message : List UInt8}
    (busy : system.sending = some (task, message)) (different : task ≠ other) :
    system.unsent other = [] := by
  rw [unsent, busy]
  exact if_neg different

/-- A step is matched by steps of the shared state. -/
theorem Transition.exec_matched (linked : system.Linked pShm attributes)
    (transition : Transition (timerPool pShm) system action next) :
    exec (TimerSystem.step (timerPool pShm)) system.shared (system.matched action) =
      some next.shared := by
  cases transition with
  | called call shared taken => exact (exec_singleton _ _).trans taken
  | turned current buf shared free taken | fired current buf shared envelope free taken =>
      rw [matched, free]
      exact (exec_singleton _ _).trans taken
  | blocked current buf destination message queue busy
  | sent current buf destination message queue busy =>
      rw [matched, busy]
      rfl
  | waited task current pMQO object queue owned found empty =>
      rw [linked.owned task object owned] at found
      rw [matched, waiting_of_found found, empty]
      rfl
  | handled task current pMQO object queue pBuffer rest envelope shared owned found waits front
      taken =>
      rw [linked.owned task object owned] at found
      rw [matched, waiting_of_found found, waits]
      exact (exec_singleton _ _).trans taken

private theorem Linked.shared_wellFormed (linked : system.Linked pShm attributes)
    (transition : Transition (timerPool pShm) system action next) :
    next.shared.WellFormed pShm :=
  exec_invariant_of_step (fun _ _ _ wellFormed taken => wellFormed.step taken) linked.wellFormed
    (transition.exec_matched linked)

/-- A queue that sends and receives keeps its sizes. -/
theorem Linked.sized_update (linked : system.Linked pShm attributes) {task : TaskId}
    {queue : MessageQueue} (after : MessageQueue)
    (found : system.queues task.getPathNameFromId = some queue)
    (maxmsg : after.mq_maxmsg = queue.mq_maxmsg) (msgsize : after.mq_msgsize = queue.mq_msgsize)
    (other : TaskId) (known : MessageQueue)
    (current : Function.update system.queues task.getPathNameFromId (some after)
      other.getPathNameFromId = some known) :
    known.mq_maxmsg = (attributes other).1.toNat ∧
      known.mq_msgsize = (attributes other).2.toNat := by
  by_cases same : other = task
  · subst same
    rw [Function.update_self, Option.some.injEq] at current
    rw [← current, maxmsg, msgsize]
    exact linked.sized other queue found
  · rw [Function.update_of_ne fun names => same (TaskId.getPathNameFromId_inj.mp names)] at current
    exact linked.sized other known current

/-- What is on the way stays what was fired and not received. -/
theorem Linked.transition (linked : system.Linked pShm attributes)
    (transition : Transition (timerPool pShm) system action next) :
    next.Linked pShm attributes := by
  have wellFormed := linked.shared_wellFormed transition
  cases transition with
  | called call shared taken =>
      refine ⟨wellFormed, linked.sized, linked.owned, linked.opened, fun task => ?_⟩
      rw [(TimerSystem.step_transition linked.wellFormed taken).messages_client]
      exact linked.transit task
  | turned current buf shared free taken quiet =>
      refine ⟨wellFormed, linked.sized, linked.owned, linked.opened, fun task => ?_⟩
      rw [quiet]
      exact linked.transit task
  | fired current buf shared envelope free taken sent =>
      refine ⟨wellFormed, linked.sized, linked.owned, linked.opened, fun task => ?_⟩
      have transit := linked.transit task
      rw [unsent_of_free free, List.append_nil] at transit
      rw [sent, mailbox_append, List.map_append, ← transit]
      by_cases same : envelope.destination = task
      · subst same
        rw [mailbox_singleton_self, unsent_self rfl]
        rfl
      · rw [mailbox_singleton_other same, unsent_other rfl same]
        rfl
  | blocked => exact linked
  | sent current buf destination message queue busy found fits room =>
      rw [linked.opened destination] at found
      refine ⟨wellFormed, fun task => ?_, linked.owned, linked.opened, fun task => ?_⟩
      · dsimp only
        rw [linked.opened destination]
        exact linked.sized_update (queue.push message fits room) found rfl rfl task
      have transit := linked.transit task
      rw [← transit, unsent_of_free rfl, List.append_nil]
      by_cases same : destination = task
      · subst same
        rw [waiting_update_self (congrArg (Function.update _ · _) (linked.opened destination)),
          waiting_of_found found, unsent_self busy]
        rfl
      · rw [waiting_update_other (Ne.symm same)
          (congrArg (Function.update _ · _) (linked.opened destination)), unsent_other busy same,
          List.append_nil]
  | waited => exact linked
  | handled task current pMQO object queue pBuffer rest envelope shared owned found waits front
      taken =>
      have named := linked.owned task object owned
      rw [named] at found
      have messages := (TimerSystem.step_transition linked.wellFormed taken).messages_deliver
      have transit := linked.transit task
      rw [waiting_of_found found, waits, List.cons_append] at transit
      obtain ⟨first, others, letters, _, tail⟩ := List.map_eq_cons_iff.mp transit.symm
      have destination := address_of_front letters
      obtain rfl : first = envelope :=
        Option.some.inj ((getElem?_oldest letters).symm.trans front)
      refine ⟨wellFormed, fun other => ?_, fun other after known => ?_, linked.opened,
        fun other => ?_⟩
      · dsimp only
        rw [named]
        exact linked.sized_update (queue.pop waits) found rfl rfl other
      · dsimp only at known
        by_cases same : other = task
        · subst same
          rw [Function.update_self, Option.some.injEq] at known
          rw [← known]
          exact named
        · rw [Function.update_of_ne same] at known
          exact linked.owned other after known
      · rw [messages]
        by_cases same : other = task
        · subst same
          rw [waiting_update_self (congrArg (Function.update _ · _) named),
            mailbox_eraseIdx_oldest letters, tail]
          rfl
        · rw [waiting_update_other same (congrArg (Function.update _ · _) named),
            mailbox_eraseIdx_other front (by rw [destination]; exact Ne.symm same)]
          exact linked.transit other

section Initial

variable (pTimerPool : MemoryPool) (memory : ByteStream.Buffer)

/-- At the start the queue of every task is created. -/
theorem initial_queues (task : TaskId) :
    (initial pTimerPool attributes memory).queues task.getPathNameFromId =
      (PosixMessageQueue.create task.getPathNameFromId true false (attributes task).1
        (attributes task).2 memory none).2 := by
  cases task <;> rfl

/-- Every task holds the creator's object of its queue. -/
theorem initial_pMq (task : TaskId) :
    (initial pTimerPool attributes memory).pMq task =
      some (PosixMessageQueue.create task.getPathNameFromId true false (attributes task).1
        (attributes task).2 memory none).1 := by
  cases task <;> rfl

/-- The timer task opens the queue of every task. -/
theorem initial_pMQToTasks (task : TaskId) :
    (initial pTimerPool attributes memory).pMQToTasks task =
      (PosixMessageQueue.create task.getPathNameFromId false false 0 0 memory
        (PosixMessageQueue.create task.getPathNameFromId true false (attributes task).1
          (attributes task).2 memory none).2).1 := by
  cases task <;> rfl

/-- The system starts linked. -/
theorem initial_linked (pShm : UInt64) :
    (initial (timerPool pShm) attributes memory).Linked pShm attributes where
  wellFormed := initial_wellFormed pShm
  sized task queue found := by
    rw [initial_queues] at found
    exact ⟨(PosixMessageQueue.create_queue found).1, (PosixMessageQueue.create_queue found).2.1⟩
  owned task object owned := by
    rw [initial_pMq, Option.some.injEq] at owned
    rw [← owned]
    exact PosixMessageQueue.name_create _
  opened task := by
    rw [initial_pMQToTasks]
    exact PosixMessageQueue.name_create _
  transit task := by
    rw [unsent_of_free rfl, List.append_nil, waiting, initial_queues]
    split
    · rfl
    · next queue created => exact (PosixMessageQueue.create_queue created).2.2

end Initial

/-- Every step is matched by steps of the shared state, and keeps the link. -/
theorem step_simulates (pShm : UInt64) (attributes : TaskId → UInt32 × UInt32) :
    Simulates (step (timerPool pShm)) (TimerSystem.step (timerPool pShm)) (fun _ _ => True)
      (fun _ _ => True)
      (fun concrete abstract => concrete.shared = abstract ∧ concrete.Linked pShm attributes) := by
  rintro system action next abstract ⟨rfl, linked⟩ _ taken
  have transition := step_transition linked taken
  exact ⟨system.matched action, next.shared, along_of_forall fun _ _ _ => trivial,
    transition.exec_matched linked, rfl, linked.transition transition⟩

/-- Whatever the tasks, `TimerTask` and the receiving threads do, and however often they
wait, the shared state is one that a run with a single list of messages reaches. What
waits in the queue of a task, followed by what `TimerTask` has not sent it yet, are the
bytes of the messages to that task in that list. -/
theorem queues_refine_messages (pShm : UInt64) (attributes : TaskId → UInt32 × UInt32)
    (memory : ByteStream.Buffer) {actions : List QueuedAction} {final : QueuedSystem}
    (ran : exec (step (timerPool pShm)) (initial (timerPool pShm) attributes memory) actions =
      some final) :
    Reached pShm final.shared ∧ ∀ task,
      final.waiting task ++ final.unsent task =
        (mailbox Envelope.destination final.shared.messages task).map fun envelope =>
          envelope.message.wire := by
  obtain ⟨events, _, _, reached, rfl, linked⟩ := (step_simulates pShm attributes).exec
    ⟨rfl, initial_linked memory pShm⟩ (along_of_forall fun _ _ _ => trivial) ran
  exact ⟨⟨events, reached⟩, linked.transit⟩

/-- One firing, sent and not received. -/
theorem queues_refine_messages_one : ∃ final,
    exec (step (timerPool 0)) (initial (timerPool 0) (fun _ => (10, 4096)) fun _ => 0)
      [.client (.new (some (.Test, .ApplicationBaseTask))),
        .client (.schedule (timerAt 0) (.scheduleOneShotAtTimeout (some 0) 5 0) 0 0),
        .timerTask 5 fun _ => 0, .timerTask 5 fun _ => 0] = some final ∧
    Reached 0 final.shared ∧ ∀ task,
      final.waiting task ++ final.unsent task =
        (mailbox Envelope.destination final.shared.messages task).map fun envelope =>
          envelope.message.wire := by
  have ran : (exec (step (timerPool 0))
      (initial (timerPool 0) (fun _ => (10, 4096)) fun _ => 0)
      [.client (.new (some (.Test, .ApplicationBaseTask))),
        .client (.schedule (timerAt 0) (.scheduleOneShotAtTimeout (some 0) 5 0) 0 0),
        .timerTask 5 fun _ => 0, .timerTask 5 fun _ => 0]).isSome := by
    decide +kernel
  obtain ⟨final, ran⟩ := Option.isSome_iff_exists.mp ran
  exact ⟨final, ran, queues_refine_messages 0 (fun _ => (10, 4096)) (fun _ => 0) ran⟩

/-- The firings of the messages to a task, in order, are those that the task processed,
followed by those whose message is on the way. What was processed is compared with the
firing by what `sent` says of the firing and `seen` of the timer. -/
def Accounted {View : Type} (sent : Envelope → View) (seen : Processed → View)
    (system : QueuedSystem) : Prop :=
  ∀ task, ∃ done, mailbox Envelope.destination system.fired task =
      done ++ mailbox Envelope.destination system.shared.messages task ∧
    done.map sent = (mailbox Processed.task system.handled task).map seen

/-- A message leads a task to the timer that `sent` says fired. -/
theorem Accounted.transition {View : Type} {sent : Envelope → View} {seen : Processed → View}
    (accounted : system.Accounted sent seen) (linked : system.Linked pShm attributes)
    (agrees : ∀ task, ∀ envelope ∈ system.shared.messages,
      let pTimer := getTimerAtIndex (timerPool pShm) envelope.message.shmIndex
      sent envelope = seen ⟨task, pTimer, (system.shared.ledger pTimer).incarnation⟩)
    (transition : Transition (timerPool pShm) system action next) :
    next.Accounted sent seen := by
  cases transition with
  | called call shared taken =>
      intro task
      rw [(TimerSystem.step_transition linked.wellFormed taken).messages_client]
      exact accounted task
  | turned current buf shared free taken quiet =>
      intro task
      rw [quiet]
      exact accounted task
  | fired current buf shared envelope free taken added =>
      intro task
      obtain ⟨done, inOrder, processed⟩ := accounted task
      refine ⟨done, ?_, processed⟩
      rw [added, mailbox_append, mailbox_append, inOrder, List.append_assoc]
  | blocked | sent | waited => exact accounted
  | handled task current pMQO object queue pBuffer rest envelope shared owned found waits front
      taken =>
      have named := linked.owned task object owned
      rw [named] at found
      have messages := (TimerSystem.step_transition linked.wellFormed taken).messages_deliver
      have transit := linked.transit task
      rw [waiting_of_found found, waits, List.cons_append] at transit
      obtain ⟨first, others, letters, _, _⟩ := List.map_eq_cons_iff.mp transit.symm
      have destination := address_of_front letters
      obtain rfl : first = envelope :=
        Option.some.inj ((getElem?_oldest letters).symm.trans front)
      have same := agrees task first (List.mem_of_getElem? front)
      intro other
      obtain ⟨done, inOrder, processed⟩ := accounted other
      rw [messages, mailbox_append, List.map_append, ← processed]
      by_cases here : other = task
      · subst here
        refine ⟨done ++ [first], ?_, ?_⟩
        · rw [mailbox_eraseIdx_oldest letters, inOrder, letters, List.append_assoc]
          rfl
        · rw [mailbox_cons_self rfl, mailbox_nil, List.map_append]
          exact congrArg (done.map sent ++ [·]) same
      · refine ⟨done, ?_, ?_⟩
        · rw [mailbox_eraseIdx_other front (by rw [destination]; exact Ne.symm here)]
          exact inOrder
        · rw [mailbox_cons_other (Ne.symm here), mailbox_nil, List.map_nil, List.append_nil]

/-- No slot is freed or handed out under a message that is on the way. -/
def FreesUnqueued (pTimerPool : MemoryPool) (system : QueuedSystem) (action : QueuedAction) :
    Prop :=
  ∀ event ∈ system.matched action, system.shared.FreesUnqueued pTimerPool event

instance (pTimerPool : MemoryPool) (system : QueuedSystem) (action : QueuedAction) :
    Decidable (system.FreesUnqueued pTimerPool action) := by
  unfold FreesUnqueued
  infer_instance

/-- A step stands for one step of the shared state at most. -/
theorem matched_cases (system : QueuedSystem) (action : QueuedAction) :
    system.matched action = [] ∨ ∃ event, system.matched action = [event] := by
  cases action with
  | client call => exact Or.inr ⟨call.action, rfl⟩
  | timerTask current buf =>
      dsimp only [matched]
      split_ifs
      · exact Or.inr ⟨_, rfl⟩
      · exact Or.inl rfl
  | getMessages task current pMQO =>
      dsimp only [matched]
      split_ifs
      · exact Or.inl rfl
      · exact Or.inr ⟨_, rfl⟩

/-- Messages lead to the timers that fired as long as no slot is freed under them. -/
theorem Transition.sameIncarnation (linked : system.Linked pShm attributes)
    (same : system.shared.SameIncarnation pShm)
    (frees : system.FreesUnqueued (timerPool pShm) action)
    (transition : Transition (timerPool pShm) system action next) :
    next.shared.SameIncarnation pShm := by
  have ran := transition.exec_matched linked
  have wellFormed := linked.shared_wellFormed transition
  rcases system.matched_cases action with none | ⟨event, only⟩
  · rw [none, exec_nil, Option.some.injEq] at ran
    rw [← ran]
    exact same
  · rw [only, exec_singleton] at ran
    exact same.transition wellFormed (TimerSystem.step_transition linked.wellFormed ran)
      (frees event (only ▸ List.mem_singleton_self event))

/-- What a run leaves of the firings, as far as `agrees` says what a message leads to. -/
theorem accounted_run {View : Type} (sent : Envelope → View) (seen : Processed → View)
    (admits : QueuedSystem → QueuedAction → Prop) (invariant : QueuedSystem → Prop)
    {memory : ByteStream.Buffer} {actions : List QueuedAction} {final : QueuedSystem}
    (start : invariant (initial (timerPool pShm) attributes memory))
    (kept : ∀ system action next, system.Linked pShm attributes → invariant system →
      admits system action → Transition (timerPool pShm) system action next → invariant next)
    (agrees : ∀ system : QueuedSystem, system.Linked pShm attributes → invariant system →
      ∀ task, ∀ envelope ∈ system.shared.messages,
        let pTimer := getTimerAtIndex (timerPool pShm) envelope.message.shmIndex
        sent envelope = seen ⟨task, pTimer, (system.shared.ledger pTimer).incarnation⟩)
    (along : Along (step (timerPool pShm)) admits (initial (timerPool pShm) attributes memory)
      actions)
    (ran : exec (step (timerPool pShm)) (initial (timerPool pShm) attributes memory) actions =
      some final) : final.Linked pShm attributes ∧ final.Accounted sent seen := by
  have carried : ∀ (system : QueuedSystem) (action : QueuedAction) (next : QueuedSystem),
      (system.Linked pShm attributes ∧ system.Accounted sent seen) ∧ invariant system →
      admits system action → system.step (timerPool pShm) action = some next →
      (next.Linked pShm attributes ∧ next.Accounted sent seen) ∧ invariant next := by
    rintro system action next ⟨⟨linked, accounted⟩, holds⟩ admitted taken
    have transition := step_transition linked taken
    exact ⟨⟨linked.transition transition,
      accounted.transition linked (agrees system linked holds) transition⟩,
      kept system action next linked holds admitted transition⟩
  exact (exec_invariant carried
    ⟨⟨initial_linked memory pShm, fun _ => ⟨[], rfl, rfl⟩⟩, start⟩ along ran).1

/-- Each task processes the slots of the timers that fired for it in the order of their
firing, each firing once and none left out: the firings it has not processed are those
whose bytes are in its queue, never more than the queue may hold, or in the hands of
`TimerTask`. Where no slot is freed or handed out under a message, it processes the
timers that fired. -/
theorem firings_handled_inOrder (pShm : UInt64) (attributes : TaskId → UInt32 × UInt32)
    (memory : ByteStream.Buffer) {actions : List QueuedAction} {final : QueuedSystem}
    (ran : exec (step (timerPool pShm)) (initial (timerPool pShm) attributes memory) actions =
      some final) (task : TaskId) :
    ∃ done rest, mailbox Envelope.destination final.fired task = done ++ rest ∧
      done.map Envelope.timer =
        (mailbox Processed.task final.handled task).map Processed.timer ∧
      rest.map (fun envelope => envelope.message.wire) =
        final.waiting task ++ final.unsent task ∧
      (final.waiting task).length ≤ (attributes task).1.toNat ∧
      (Along (step (timerPool pShm)) (FreesUnqueued (timerPool pShm))
          (initial (timerPool pShm) attributes memory) actions →
        done.map (fun envelope => (envelope.timer, envelope.incarnation)) =
          (mailbox Processed.task final.handled task).map
            fun processed => (processed.timer, processed.incarnation)) := by
  obtain ⟨linked, accounted⟩ := accounted_run Envelope.timer Processed.timer (fun _ _ => True)
    (fun _ => True) trivial (fun _ _ _ _ _ _ _ => trivial)
    (fun _ linked _ _ envelope queued => (linked.wellFormed.resolved envelope queued).symm)
    (along_of_forall fun _ _ _ => trivial) ran
  obtain ⟨done, inOrder, processed⟩ := accounted task
  refine ⟨done, _, inOrder, processed, (linked.transit task).symm, ?_, fun frees => ?_⟩
  · rw [waiting]
    split
    · exact Nat.zero_le _
    · next queue found =>
        rw [← (linked.sized task queue found).1]
        exact queue.bounded
  · have exactly := (accounted_run (fun envelope => (envelope.timer, envelope.incarnation))
      (fun processed => (processed.timer, processed.incarnation)) (FreesUnqueued (timerPool pShm))
      (fun system => system.shared.SameIncarnation pShm) (initial_sameIncarnation pShm)
      (fun _ _ _ linked same frees transition => transition.sameIncarnation linked same frees)
      (fun _ _ same _ envelope queued => by
        obtain ⟨resolved, incarnation⟩ := same envelope queued
        dsimp only
        rw [resolved, incarnation]) frees ran).2 task
    obtain ⟨others, split, views⟩ := exactly
    rw [List.append_cancel_right (inOrder.symm.trans split)]
    exact views

/-- One firing, sent, received and processed by the timer that fired. -/
theorem firings_handled_inOrder_one : ∃ final,
    exec (step (timerPool 0)) (initial (timerPool 0) (fun _ => (10, 4096)) fun _ => 0)
      [.client (.new (some (.Test, .ApplicationBaseTask))),
        .client (.schedule (timerAt 0) (.scheduleOneShotAtTimeout (some 0) 5 0) 0 0),
        .timerTask 5 fun _ => 0, .timerTask 5 fun _ => 0,
        .getMessages .ApplicationBaseTask 6 ⟨.Test, 0, 0⟩] = some final ∧
    ∃ done rest,
      mailbox Envelope.destination final.fired .ApplicationBaseTask = done ++ rest ∧
      done.map (fun envelope => (envelope.timer, envelope.incarnation)) =
        (mailbox Processed.task final.handled .ApplicationBaseTask).map
          (fun processed => (processed.timer, processed.incarnation)) ∧
      rest.map (fun envelope => envelope.message.wire) =
        final.waiting .ApplicationBaseTask ++ final.unsent .ApplicationBaseTask ∧
      (final.waiting .ApplicationBaseTask).length ≤ (10 : UInt32).toNat := by
  let actions : List QueuedAction :=
    [.client (.new (some (.Test, .ApplicationBaseTask))),
      .client (.schedule (timerAt 0) (.scheduleOneShotAtTimeout (some 0) 5 0) 0 0),
      .timerTask 5 fun _ => 0, .timerTask 5 fun _ => 0,
      .getMessages .ApplicationBaseTask 6 ⟨.Test, 0, 0⟩]
  have ran : (exec (step (timerPool 0))
      (initial (timerPool 0) (fun _ => (10, 4096)) fun _ => 0) actions).isSome := by
    decide +kernel
  have frees : Along (step (timerPool 0)) (FreesUnqueued (timerPool 0))
      (initial (timerPool 0) (fun _ => (10, 4096)) fun _ => 0) actions := by
    decide +kernel
  obtain ⟨final, ran⟩ := Option.isSome_iff_exists.mp ran
  obtain ⟨done, rest, inOrder, _, onTheWay, bounded, exactly⟩ :=
    firings_handled_inOrder 0 (fun _ => (10, 4096)) (fun _ => 0) ran .ApplicationBaseTask
  exact ⟨final, ran, done, rest, inOrder, exactly frees, onTheWay, bounded⟩

end QueuedSystem

end TimerAndCallback
