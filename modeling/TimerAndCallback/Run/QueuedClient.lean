import TimerAndCallback.Run.QueuedRefinement
import TimerAndCallback.Run.PlainClient

/-! # Plain clients and their queues

Plain clients with queues that have room for a message: no send and no receive fails,
and a timer that fired has one message, in the queue of its callback context or in the
hands of `TimerTask`, until its callback context has processed it. `TimerTask` may wait
for a full queue, but never for good.
-/

namespace TimerAndCallback

namespace Timer

private theorem arm_cbContexTId {timer armed : Timer} {arguments : ScheduleArguments}
    {current rand : UInt64} (ran : timer.arm arguments current rand = some armed) :
    armed.cbContexTId = timer.cbContexTId := by
  obtain ⟨_, _, rfl⟩ := Option.map_eq_some_iff.mp ran
  rfl

end Timer

namespace PosixMessageQueueObject

/-- The bytes of a message determine its slot index. -/
theorem shmIndex_of_wire {object other : PosixMessageQueueObject}
    (same : object.wire = other.wire) : object.shmIndex = other.shmIndex := by
  let buffer : ByteStream.Buffer := fun _ => 0
  have decoded := deserializeFromCharBuf_message object object buffer buffer
  rw [message_eq, same, ← message_eq other buffer, deserializeFromCharBuf_message,
    Option.some.injEq] at decoded
  exact (congrArg PosixMessageQueueObject.shmIndex decoded).symm

end PosixMessageQueueObject

namespace TimerSystem

open Execution

variable {pShm pTimer : UInt64} {system next : TimerSystem} {action : Action}

/-- An allocated timer keeps its callback context. -/
theorem Transition.cbContexTId (transition : Transition (timerPool pShm) system action next)
    (live : pTimer ∈ system.pool.outstanding) :
    (next.timers pTimer).cbContexTId = (system.timers pTimer).cbContexTId := by
  by_cases touches : system.Touches pTimer action
  · cases transition with
    | created => exact absurd live touches
    | scheduled other request current rand timer heap _ armed =>
        obtain rfl : other = pTimer := touches
        simp only [setLedger_timers, setTimer_timers, Function.update_self]
        exact Timer.arm_cbContexTId armed
    | cancelled other | restarted other | stopped other | deleted other =>
        obtain rfl : other = pTimer := touches
        simp only [cancel_timers_self, setTimer_timers_self, setTimerState_timers_self,
          deleted_timers_self, Timer.requeued]
    | rested => rfl
    | fired current top heap onTop =>
        obtain rfl := touches.unique onTop
        simp only [send_timers, setTimer_timers_self, Timer.expired]
    | revived current top heap onTop =>
        obtain rfl := touches.unique onTop
        simp only [setTimer_timers_self, Timer.requeued]
    | ignored => rfl
    | rearmed position current envelope heap queued =>
        obtain rfl := touches.named queued
        simp only [setTimer_timers_self, Timer.requeued]
    | retired position current envelope heap queued =>
        obtain rfl := touches.named queued
        simp only [deleted_timers_self]
        rfl
  · rw [(transition.untouched touches).timer]

/-- Every message is the one `TimerTask` makes for its timer, on the way to the timer's
callback context. -/
def Addressed (pTimerPool : MemoryPool) (system : TimerSystem) : Prop :=
  ∀ envelope ∈ system.messages,
    envelope.message = ⟨.TimerTask, 0, getIndex pTimerPool envelope.timer⟩ ∧
      envelope.destination = (system.timers envelope.timer).cbContexTId

/-- A message in flight was there before or is addressed by its timer. -/
theorem Transition.mem_messages_or_addressed
    (transition : Transition (timerPool pShm) system action next) {envelope : Envelope}
    (queued : envelope ∈ next.messages) :
    envelope ∈ system.messages ∨
      envelope.message = ⟨.TimerTask, 0, getIndex (timerPool pShm) envelope.timer⟩ ∧
        envelope.destination = (next.timers envelope.timer).cbContexTId := by
  cases transition with
  | created | scheduled | cancelled | restarted | stopped | deleted | rested | revived =>
      exact Or.inl queued
  | fired current top heap onTop active count contents =>
      rcases List.mem_append.mp queued with earlier | sent
      · exact Or.inl earlier
      · rw [List.mem_singleton.mp sent]
        exact Or.inr ⟨rfl, rfl⟩
  | ignored | rearmed | retired => exact Or.inl (List.mem_of_mem_eraseIdx queued)

/-- Every step of plain clients keeps the messages addressed. -/
theorem Addressed.transition (addressed : system.Addressed (timerPool pShm))
    (plainClients : system.PlainClients pShm)
    (transition : Transition (timerPool pShm) system action next) :
    next.Addressed (timerPool pShm) := by
  intro envelope queued
  rcases transition.mem_messages_or_addressed queued with earlier | made
  · obtain ⟨message, destination⟩ := addressed envelope earlier
    have held := ((plainClients.situations _).fired_of_inFlight (inFlight_pos_of_mem earlier)).1
    exact ⟨message, destination.trans (transition.cbContexTId held.live).symm⟩
  · exact made

end TimerSystem

namespace QueuedSystem

open TimerSystem Execution Mailbox

variable {pShm pTimer : UInt64} {attributes : TaskId → UInt32 × UInt32}
variable {system next : QueuedSystem} {action : QueuedAction}

/-- How many messages for a timer are on the way to a task. -/
def notices (pTimerPool : MemoryPool) (system : QueuedSystem) (task : TaskId) (pTimer : UInt64) :
    Nat :=
  (system.waiting task ++ system.unsent task).count
    (PosixMessageQueueObject.wire ⟨.TimerTask, 0, getIndex pTimerPool pTimer⟩)

/-- The objects and the queues of the tasks as they were opened. -/
structure Connected (attributes : TaskId → UInt32 × UInt32) (system : QueuedSystem) : Prop where
  created : ∀ task : TaskId, (system.queues task.getPathNameFromId).isSome
  receives : ∀ task, ∃ object, system.pMq task = some object ∧ object.msgFD = some false ∧
    object.mQAttr.mq_msgsize = (attributes task).2.toNat ∧
    object.bufferSize = (attributes task).2.toNat
  sends : ∀ task, (system.pMQToTasks task).msgFD = some false
  sixteen : ∀ task message, system.sending = some (task, message) → message.length = 16

/-- The steps of plain clients, with a clock that does not go back. -/
def PlainStep (pTimerPool : MemoryPool) (system : QueuedSystem) : QueuedAction → Prop
  | .client call => system.shared.PlainStep pTimerPool call.action
  | .timerTask current _ => system.shared.clock.toNat ≤ current.toNat
  | .getMessages _ current _ => system.shared.clock.toNat ≤ current.toNat

instance (pTimerPool : MemoryPool) (system : QueuedSystem) (action : QueuedAction) :
    Decidable (system.PlainStep pTimerPool action) :=
  match action with
  | .client _ | .timerTask .. | .getMessages .. => by
      unfold PlainStep
      infer_instance

/-- What plain clients can rely on. -/
structure Conserved (pShm : UInt64) (system : QueuedSystem) : Prop where
  shared : system.shared.Conserved pShm
  /-- A scheduled timer that fired has one message on the way, to its callback context. -/
  noticed : ∀ pTimer ∈ system.shared.pool.outstanding, ∀ task,
    system.notices (timerPool pShm) task pTimer =
      if ((system.shared.ledger pTimer).scheduled = true ∧
        (system.shared.timers pTimer).state = .Done) ∧
          task = (system.shared.timers pTimer).cbContexTId then 1 else 0
  /-- Nothing else is on the way. -/
  named : ∀ task, ∀ message ∈ system.waiting task ++ system.unsent task,
    ∃ pTimer ∈ system.shared.pool.outstanding, message =
      PosixMessageQueueObject.wire ⟨.TimerTask, 0, getIndex (timerPool pShm) pTimer⟩

/-- What every state of a run of plain clients satisfies. -/
structure PlainClients (pShm : UInt64) (attributes : TaskId → UInt32 × UInt32)
    (system : QueuedSystem) : Prop where
  linked : system.Linked pShm attributes
  connected : system.Connected attributes
  plain : system.shared.PlainClients pShm
  addressed : system.shared.Addressed (timerPool pShm)

/-- The messages on the way to a task for a timer are those that lead to it, if the task
is its callback context. -/
theorem PlainClients.notices_eq (clients : system.PlainClients pShm attributes)
    (object : IsObject pShm pTimer) (task : TaskId) :
    system.notices (timerPool pShm) task pTimer =
      if task = (system.shared.timers pTimer).cbContexTId then system.shared.inFlight pTimer
      else 0 := by
  have leads : ∀ envelope ∈ system.shared.messages,
      envelope.message.wire = PosixMessageQueueObject.wire
        ⟨.TimerTask, 0, getIndex (timerPool pShm) pTimer⟩ ↔ envelope.timer = pTimer := by
    intro envelope queued
    rw [(clients.addressed envelope queued).1]
    constructor
    · intro same
      have index := congrArg (getTimerAtIndex (timerPool pShm))
        (PosixMessageQueueObject.shmIndex_of_wire same)
      have held :=
        ((clients.plain.situations _).fired_of_inFlight (inFlight_pos_of_mem queued)).1
      dsimp only at index
      rwa [getTimerAtIndex_getIndex object,
        getTimerAtIndex_getIndex (clients.plain.wellFormed.object held.live)] at index
    · rintro rfl
      rfl
  unfold notices
  rw [clients.linked.transit task, List.count_eq_countP, List.countP_map, mailbox,
    List.countP_filter]
  split_ifs with context
  · refine List.countP_congr fun envelope queued => ?_
    simp only [Function.comp_apply, Bool.and_eq_true, beq_iff_eq, decide_eq_true_eq,
      leads envelope queued]
    refine and_iff_left_of_imp fun same => ?_
    rw [(clients.addressed envelope queued).2, same, context]
  · refine List.countP_eq_zero.mpr fun envelope queued => ?_
    simp only [Function.comp_apply, Bool.and_eq_true, beq_iff_eq, decide_eq_true_eq,
      leads envelope queued, not_and]
    rintro rfl destination
    exact context (destination.symm.trans (clients.addressed envelope queued).2)

/-- Plain clients conserve their timers through the queues. -/
theorem PlainClients.conserved (clients : system.PlainClients pShm attributes) :
    system.Conserved pShm where
  shared := clients.plain.conserved
  noticed pTimer live task := by
    rw [clients.notices_eq (clients.plain.wellFormed.object live)]
    have fired : system.shared.inFlight pTimer =
        if (system.shared.ledger pTimer).scheduled = true ∧
          (system.shared.timers pTimer).state = .Done then 1 else 0 := by
      cases clients.plain.situations pTimer with
      | unscheduled unscheduled silent outside unqueued =>
          rw [(unscheduled live).1, unqueued]
          exact (if_neg fun both => Bool.false_ne_true both.1).symm
      | waiting held inHeap =>
          rw [inHeap.1, inHeap.2.2]
          exact (if_neg fun both => TimerState.noConfusion both.2).symm
      | fired held inQueue =>
          rw [inQueue.1, inQueue.2.2]
          exact (if_pos ⟨held.scheduled, rfl⟩).symm
    rw [fired]
    by_cases context : task = (system.shared.timers pTimer).cbContexTId
    · simp only [context, if_true, and_true]
    · simp only [context, if_false, and_false]
  named task message member := by
    rw [clients.linked.transit task] at member
    obtain ⟨envelope, queued, rfl⟩ := List.mem_map.mp member
    have mine := (List.mem_filter.mp queued).1
    have held := ((clients.plain.situations _).fired_of_inFlight (inFlight_pos_of_mem mine)).1
    exact ⟨envelope.timer, held.live, congrArg PosixMessageQueueObject.wire
      (clients.addressed envelope mine).1⟩

/-- Every step keeps the tasks connected to their queues. -/
theorem Connected.transition (connected : system.Connected attributes)
    (transition : Transition (timerPool pShm) system action next) : next.Connected attributes := by
  have updated : ∀ (name : String) (queue : MessageQueue) (task : TaskId),
      (Function.update system.queues name (some queue) task.getPathNameFromId).isSome := by
    intro name queue task
    by_cases same : task.getPathNameFromId = name
    · rw [same, Function.update_self]
      rfl
    · rw [Function.update_of_ne same]
      exact connected.created task
  cases transition with
  | called | turned | blocked | waited =>
      exact ⟨connected.created, connected.receives, connected.sends, connected.sixteen⟩
  | fired current buf shared envelope =>
      refine ⟨connected.created, connected.receives, connected.sends, fun task message busy => ?_⟩
      cases busy
      exact PosixMessageQueueObject.length_wire _
  | sent current buf destination message queue busy found fits room =>
      exact ⟨updated _ _, connected.receives, connected.sends, fun _ _ free => nomatch free⟩
  | handled task current pMQO object queue pBuffer rest envelope shared owned =>
      refine ⟨updated _ _, fun other => ?_, connected.sends, connected.sixteen⟩
      dsimp only
      by_cases same : other = task
      · subst same
        obtain ⟨known, found, open_, sizes⟩ := connected.receives other
        cases owned.symm.trans found
        exact ⟨_, Function.update_self _ _ _, open_, sizes⟩
      · rw [Function.update_of_ne same]
        exact connected.receives other

/-- A plain step stands for plain steps of the shared state. -/
theorem Linked.matched_plain (linked : system.Linked pShm attributes)
    (transition : Transition (timerPool pShm) system action next)
    (plain : system.PlainStep (timerPool pShm) action) :
    Along (TimerSystem.step (timerPool pShm)) (TimerSystem.PlainStep (timerPool pShm))
      system.shared (system.matched action) := by
  have one : ∀ {event : Action}, system.shared.PlainStep (timerPool pShm) event →
      Along (TimerSystem.step (timerPool pShm)) (TimerSystem.PlainStep (timerPool pShm))
        system.shared [event] :=
    fun admitted => along_cons.mpr ⟨admitted, fun _ _ => trivial⟩
  cases transition with
  | called => exact one plain
  | turned current buf shared free | fired current buf shared envelope free =>
      rw [matched, free]
      exact one plain
  | blocked current buf destination message queue busy
  | sent current buf destination message queue busy =>
      rw [matched, busy]
      trivial
  | waited task current pMQO object queue owned found empty =>
      rw [linked.owned task object owned] at found
      rw [matched, waiting_of_found found, empty]
      trivial
  | handled task current pMQO object queue pBuffer rest envelope shared owned found waits front =>
      rw [linked.owned task object owned] at found
      rw [matched, waiting_of_found found, waits]
      exact one ⟨(List.getElem?_eq_some_iff.mp front).1, plain⟩

/-- Every plain step keeps the clients plain. -/
theorem PlainClients.transition (clients : system.PlainClients pShm attributes)
    (transition : Transition (timerPool pShm) system action next)
    (plain : system.PlainStep (timerPool pShm) action) :
    next.PlainClients pShm attributes := by
  have kept : ∀ (state : TimerSystem) (event : Action) (after : TimerSystem),
      state.PlainClients pShm ∧ state.Addressed (timerPool pShm) →
      state.PlainStep (timerPool pShm) event →
      state.step (timerPool pShm) event = some after →
      after.PlainClients pShm ∧ after.Addressed (timerPool pShm) := by
    rintro state event after ⟨plainClients, addressed⟩ admitted taken
    have stepped := TimerSystem.step_transition plainClients.wellFormed taken
    exact ⟨plainClients.transition stepped admitted, addressed.transition plainClients stepped⟩
  obtain ⟨plainClients, addressed⟩ := exec_invariant kept ⟨clients.plain, clients.addressed⟩
    (clients.linked.matched_plain transition plain) (transition.exec_matched clients.linked)
  exact ⟨clients.linked.transition transition, clients.connected.transition transition,
    plainClients, addressed⟩

/-- Attributes with room for a message of sixteen bytes. -/
def Roomy (attributes : TaskId → UInt32 × UInt32) : Prop :=
  ∀ task, 1 ≤ (attributes task).1.toNat ∧ 16 ≤ (attributes task).2.toNat

/-- A message that `TimerTask` has to send is sent, unless its queue is full. -/
theorem Connected.send_taken (connected : system.Connected attributes)
    (linked : system.Linked pShm attributes) (roomy : Roomy attributes) {destination : TaskId}
    {message : List UInt8} (busy : system.sending = some (destination, message)) :
    ∃ next, system.send destination message = some next ∧
      (next.sending = none ∨ system.waiting destination ≠ []) := by
  obtain ⟨queue, found⟩ := Option.isSome_iff_exists.mp (connected.created destination)
  obtain ⟨positive, large⟩ := roomy destination
  have sizes := linked.sized destination queue found
  rw [← sizes.2, ← connected.sixteen destination message busy] at large
  rw [waiting_of_found found]
  rw [← linked.opened destination] at found
  rcases PosixMessageQueue.send_of_open (connected.sends destination) large with
    ⟨room, returns⟩ | ⟨full, blocks⟩
  · refine ⟨{ system with
        queues := Function.update system.queues (system.pMQToTasks destination).name
          (some (queue.push message large room))
        sending := none }, Option.bind_eq_some_iff.mpr ⟨queue, found, ?_⟩, Or.inl rfl⟩
    rw [returns]
  · refine ⟨system, Option.bind_eq_some_iff.mpr ⟨queue, found, ?_⟩, Or.inr fun empty => ?_⟩
    · rw [blocks]
    · rw [empty, List.length_nil] at full
      omega

/-- A message that waits is received and its timer processed. -/
theorem PlainClients.getMessages_taken (clients : system.PlainClients pShm attributes)
    (task : TaskId) {current : UInt64} (later : system.shared.clock.toNat ≤ current.toNat)
    (pMQO : PosixMessageQueueObject) :
    ∃ next, system.getMessages (timerPool pShm) task current pMQO = some next := by
  obtain ⟨object, owned, open_, size, large⟩ := clients.connected.receives task
  obtain ⟨queue, found⟩ := Option.isSome_iff_exists.mp (clients.connected.created task)
  have fits := (clients.linked.sized task queue found).2
  rw [← clients.linked.owned task object owned] at found
  unfold getMessages
  rw [owned, Option.bind_some, found, Option.bind_some]
  rcases PosixMessageQueue.receive_of_open open_ (size.trans large.symm)
    (fits.trans large.symm).le with ⟨memory, message, rest, waits, returns⟩ | ⟨_, blocks⟩
  · obtain ⟨envelope, others, letters, rfl⟩ := clients.linked.front owned found waits
    have front := getElem?_oldest letters
    have plain : system.shared.PlainStep (timerPool pShm)
        (.deliver (oldest Envelope.destination system.shared.messages task) current) :=
      ⟨(List.getElem?_eq_some_iff.mp front).1, later⟩
    obtain ⟨shared, taken⟩ := clients.plain.taken plain
    simp only [TimerSystem.step, front, Option.bind_some] at taken
    obtain ⟨⟨result, after⟩, processed, rfl⟩ := Option.map_eq_some_iff.mp taken
    have decoded := PosixMessageQueueObject.deserializeFromCharBuf_message pMQO envelope.message
      memory memory
    rw [PosixMessageQueueObject.message_eq] at decoded
    rw [returns]
    simp only [decoded, Option.bind_eq_bind, Option.bind_some, processed]
    exact ⟨_, rfl⟩
  · rw [blocks]
    exact ⟨system, rfl⟩

/-- No step of plain clients fails. -/
theorem PlainClients.taken (clients : system.PlainClients pShm attributes)
    (roomy : Roomy attributes) (plain : system.PlainStep (timerPool pShm) action) :
    ∃ next, system.step (timerPool pShm) action = some next := by
  cases action with
  | client call =>
      obtain ⟨shared, taken⟩ := clients.plain.taken plain
      exact ⟨_, Option.map_eq_some_iff.mpr ⟨shared, taken, rfl⟩⟩
  | timerTask current buf =>
      change ∃ next, system.timerTask (timerPool pShm) current buf = some next
      unfold timerTask
      split
      · have admitted : system.shared.PlainStep (timerPool pShm) (.timerTask current) := plain
        obtain ⟨shared, taken⟩ := clients.plain.taken admitted
        rw [← timerTaskTurn_shared (timerPool pShm) current buf] at taken
        obtain ⟨next, turned, _⟩ := Option.map_eq_some_iff.mp taken
        exact ⟨next, turned⟩
      · next destination message busy =>
          obtain ⟨next, sent, _⟩ := clients.connected.send_taken clients.linked roomy busy
          exact ⟨next, sent⟩
  | getMessages task current pMQO => exact clients.getMessages_taken task plain pMQO

/-- The clients start plain where the queues have room for a message. -/
theorem initial_plainClients (memory : ByteStream.Buffer) (roomy : Roomy attributes) :
    (initial (timerPool pShm) attributes memory).PlainClients pShm attributes := by
  have positive : ∀ task, 0 < (attributes task).1.toNat ∧ 0 < (attributes task).2.toNat :=
    fun task => ⟨(roomy task).1, Nat.lt_of_lt_of_le (by decide) (roomy task).2⟩
  refine ⟨initial_linked memory pShm, ?_, TimerSystem.initial_plainClients pShm,
    fun _ queued => absurd queued List.not_mem_nil⟩
  refine ⟨fun task => ?_, fun task => ?_, fun task => ?_, fun _ _ free => nomatch free⟩
  · rw [initial_queues]
    exact (PosixMessageQueue.create_positive _ _ _ (positive task)).1
  · rw [initial_pMq, (PosixMessageQueue.create_positive _ _ _ (positive task)).2]
    exact ⟨_, rfl, rfl, rfl, rfl⟩
  · obtain ⟨queue, created⟩ := Option.isSome_iff_exists.mp
      (PosixMessageQueue.create_positive task.getPathNameFromId false memory (positive task)).1
    rw [initial_pMQToTasks, created]
    rfl

/-- However plain clients, `TimerTask` and the receiving threads are interleaved, no send
and no receive fails, and every timer that fired has exactly one message on the way, in
the queue of its callback context or in the hands of `TimerTask`. -/
theorem plainClients_queued (roomy : Roomy attributes) (memory : ByteStream.Buffer)
    {actions : List QueuedAction}
    (plain : Along (step (timerPool pShm)) (PlainStep (timerPool pShm))
      (initial (timerPool pShm) attributes memory) actions) :
    (∃ final, exec (step (timerPool pShm)) (initial (timerPool pShm) attributes memory) actions =
        some final) ∧
      Always (step (timerPool pShm)) (Conserved pShm) (initial (timerPool pShm) attributes memory)
        actions := by
  have start : (initial (timerPool pShm) attributes memory).PlainClients pShm attributes :=
    initial_plainClients memory roomy
  have kept : ∀ (state : QueuedSystem) (action : QueuedAction) (next : QueuedSystem),
      state.PlainClients pShm attributes → state.PlainStep (timerPool pShm) action →
      state.step (timerPool pShm) action = some next → next.PlainClients pShm attributes :=
    fun _ _ _ clients admitted taken =>
      clients.transition (step_transition clients.linked taken) admitted
  constructor
  · have taken : ∀ (state : QueuedSystem) (action : QueuedAction),
        state.PlainClients pShm attributes → state.PlainStep (timerPool pShm) action →
        ∃ next, state.step (timerPool pShm) action = some next ∧
          next.PlainClients pShm attributes := by
      intro state action clients admitted
      obtain ⟨next, stepped⟩ := clients.taken roomy admitted
      exact ⟨next, stepped, kept state action next clients admitted stepped⟩
    obtain ⟨final, executed, _⟩ := exec_progress taken start plain
    exact ⟨final, executed⟩
  · exact Always.of_along (PlainClients pShm attributes) (fun _ clients => clients.conserved)
      kept start plain

/-- A timer for another task, fired, sent and processed, through queues of one message. -/
theorem plainClients_queued_one : ∃ actions : List QueuedAction,
    actions = [.client (.new (some (.Test, .ApplicationBaseTask))),
      .client (.schedule (timerAt 0) (.scheduleOneShotAtTimeout (some 0) 5 0) 0 0),
      .timerTask 5 fun _ => 0, .timerTask 5 fun _ => 0,
      .getMessages .ApplicationBaseTask 6 ⟨.Test, 0, 0⟩] ∧
    (∃ final, exec (step (timerPool 0))
        (initial (timerPool 0) (fun _ => (1, 16)) fun _ => 0) actions = some final) ∧
      Always (step (timerPool 0)) (Conserved 0)
        (initial (timerPool 0) (fun _ => (1, 16)) fun _ => 0) actions :=
  ⟨_, rfl, plainClients_queued (fun _ => by decide) (fun _ => 0) (by decide +kernel)⟩

/-- Steps that send and receive what is on the way, at one time. -/
def Drains (current : UInt64) (action : QueuedAction) : Prop :=
  (∃ buf, action = .timerTask current buf) ∨ ∃ task pMQO, action = .getMessages task current pMQO

/-- Receiving from a queue with messages leaves one fewer on the way. -/
theorem PlainClients.received (clients : system.PlainClients pShm attributes) {task : TaskId}
    {current : UInt64} {pMQO : PosixMessageQueueObject} (some_ : system.waiting task ≠ [])
    (ran : system.getMessages (timerPool pShm) task current pMQO = some next) :
    next.shared.messages.length < system.shared.messages.length ∧
      next.shared.clock = current ∧ next.fired = system.fired := by
  cases getMessages_transition clients.linked ran with
  | waited _ _ _ object queue owned found empty =>
      rw [clients.linked.owned task object owned] at found
      exact absurd ((waiting_of_found found).trans empty) some_
  | handled _ _ _ object queue pBuffer rest envelope shared owned found waits front taken =>
      have transition := TimerSystem.step_transition clients.plain.wellFormed taken
      have bound := (List.getElem?_eq_some_iff.mp front).1
      refine ⟨?_, transition.clock_deliver, rfl⟩
      rw [transition.messages_deliver, List.length_eraseIdx_of_lt bound]
      omega

private theorem exists_sending {task : TaskId} (some_ : system.unsent task ≠ []) :
    ∃ message, system.sending = some (task, message) := by
  unfold unsent at some_
  split at some_
  · exact absurd rfl some_
  · next destination message busy =>
      split_ifs at some_ with same
      · subst same
        exact ⟨message, busy⟩
      · exact absurd rfl some_

/-- Sending fires nothing and does not touch the shared state. -/
theorem send_shared {destination : TaskId} {message : List UInt8}
    (sent : system.send destination message = some next) :
    next.shared = system.shared ∧ next.fired = system.fired := by
  obtain ⟨queue, _, sent⟩ := Option.bind_eq_some_iff.mp sent
  split at sent
  next =>
    cases sent
    exact ⟨rfl, rfl⟩
  next =>
    cases sent
    exact ⟨rfl, rfl⟩
  all_goals cases sent

/-- While messages are on the way, one of them can be received, after `TimerTask` has
sent it if need be. -/
theorem PlainClients.drain_one (clients : system.PlainClients pShm attributes)
    (roomy : Roomy attributes) {current : UInt64}
    (later : system.shared.clock.toNat ≤ current.toNat) (busy : system.shared.messages ≠ []) :
    ∃ more after, (∀ action ∈ more, Drains current action) ∧
      exec (step (timerPool pShm)) system more = some after ∧
      after.PlainClients pShm attributes ∧ after.shared.clock.toNat ≤ current.toNat ∧
      after.shared.messages.length < system.shared.messages.length ∧
      after.fired = system.fired := by
  let pMQO : PosixMessageQueueObject := ⟨.Test, 0, 0⟩
  let buf : ByteStream.Buffer := fun _ => 0
  have receives : ∀ (state : QueuedSystem) (task : TaskId),
      state.PlainClients pShm attributes → state.shared.clock.toNat ≤ current.toNat →
      state.waiting task ≠ [] →
      ∃ after, state.step (timerPool pShm) (.getMessages task current pMQO) = some after ∧
        after.PlainClients pShm attributes ∧ after.shared.clock.toNat ≤ current.toNat ∧
        after.shared.messages.length < state.shared.messages.length ∧
        after.fired = state.fired := by
    intro state task plain early waits
    obtain ⟨after, taken⟩ := plain.getMessages_taken task early pMQO
    obtain ⟨fewer, clock, fired⟩ := plain.received waits taken
    exact ⟨after, taken, plain.transition (getMessages_transition plain.linked taken) early,
      (congrArg UInt64.toNat clock).le, fewer, fired⟩
  obtain ⟨envelope, rest, first⟩ := List.exists_cons_of_ne_nil busy
  have letters : mailbox Envelope.destination system.shared.messages envelope.destination ≠ [] := by
    rw [first, mailbox_cons_self rfl]
    exact List.cons_ne_nil _ _
  by_cases waits : system.waiting envelope.destination = []
  · have transit := clients.linked.transit envelope.destination
    rw [waits, List.nil_append] at transit
    have held : system.unsent envelope.destination ≠ [] := by
      rw [transit]
      exact fun none => letters (List.map_eq_nil_iff.mp none)
    obtain ⟨message, sending⟩ := exists_sending held
    obtain ⟨middle, sent, free | full⟩ :=
      clients.connected.send_taken clients.linked roomy sending
    · have taken : system.step (timerPool pShm) (.timerTask current buf) = some middle := by
        change system.timerTask (timerPool pShm) current buf = some middle
        rw [timerTask, sending]
        exact sent
      obtain ⟨same, fired⟩ := send_shared sent
      have plain := clients.transition (step_transition clients.linked taken) later
      have arrived : middle.waiting envelope.destination ≠ [] := by
        have transit := plain.linked.transit envelope.destination
        rw [unsent_of_free free, List.append_nil, same] at transit
        rw [transit]
        exact fun none => letters (List.map_eq_nil_iff.mp none)
      obtain ⟨after, received, settled, clock, fewer, others⟩ :=
        receives middle _ plain (same ▸ later) arrived
      refine ⟨[.timerTask current buf, .getMessages envelope.destination current pMQO], after,
        fun action member => ?_, exec_cons_eq_some.mpr
          ⟨middle, taken, (exec_singleton _ _).trans received⟩, settled, clock, same ▸ fewer,
        others.trans fired⟩
      rcases List.mem_cons.mp member with rfl | last
      · exact Or.inl ⟨buf, rfl⟩
      · exact Or.inr ⟨_, _, List.mem_singleton.mp last⟩
    · exact absurd waits full
  · obtain ⟨after, taken, plain, clock, fewer, fired⟩ := receives system _ clients later waits
    refine ⟨[.getMessages envelope.destination current pMQO], after, fun action member => ?_,
      (exec_singleton _ _).trans taken, plain, clock, fewer, fired⟩
    exact Or.inr ⟨_, _, List.mem_singleton.mp member⟩

/-- All that is on the way can be received, in some order of sends and receives. -/
theorem PlainClients.drains (roomy : Roomy attributes) {current : UInt64} (count : Nat)
    (clients : system.PlainClients pShm attributes)
    (later : system.shared.clock.toNat ≤ current.toNat)
    (counted : system.shared.messages.length ≤ count) :
    ∃ more after, (∀ action ∈ more, Drains current action) ∧
      exec (step (timerPool pShm)) system more = some after ∧
      after.PlainClients pShm attributes ∧ after.shared.messages = [] ∧
      after.fired = system.fired := by
  induction count generalizing system with
  | zero =>
      exact ⟨[], system, fun _ member => absurd member List.not_mem_nil, rfl, clients,
        List.length_eq_zero_iff.mp (Nat.le_zero.mp counted), rfl⟩
  | succ count ih =>
      by_cases none : system.shared.messages = []
      · exact ⟨[], system, fun _ member => absurd member List.not_mem_nil, rfl, clients, none, rfl⟩
      · obtain ⟨more, middle, draining, ran, plain, early, fewer, fired⟩ :=
          clients.drain_one roomy later none
        obtain ⟨rest, after, drainingRest, ranRest, settled, empty, others⟩ :=
          ih plain early (by omega)
        refine ⟨more ++ rest, after, fun action member => ?_,
          exec_append_eq_some.mpr ⟨middle, ran, ranRest⟩, settled, empty, others.trans fired⟩
        rcases List.mem_append.mp member with front | back
        · exact draining action front
        · exact drainingRest action back

/-- `TimerTask` and the receiving threads never wait for each other for good: from every
state that plain clients reach, receiving what waits and sending what is in hand, without
firing another timer, empties all queues and has every scheduled timer in the heap. -/
theorem queues_can_empty (roomy : Roomy attributes) (memory : ByteStream.Buffer)
    {actions : List QueuedAction} {final : QueuedSystem}
    (plain : Along (step (timerPool pShm)) (PlainStep (timerPool pShm))
      (initial (timerPool pShm) attributes memory) actions)
    (ran : exec (step (timerPool pShm)) (initial (timerPool pShm) attributes memory) actions =
      some final) {current : UInt64} (later : final.shared.clock.toNat ≤ current.toNat) :
    ∃ more emptied, (∀ action ∈ more, Drains current action) ∧
      exec (step (timerPool pShm)) final more = some emptied ∧
      emptied.fired = final.fired ∧ emptied.sending = none ∧
      (∀ task, emptied.waiting task = []) ∧
      ∀ pTimer ∈ emptied.shared.pool.outstanding,
        (emptied.shared.ledger pTimer).scheduled = true → emptied.shared.InHeap pTimer := by
  have kept : ∀ (state : QueuedSystem) (action : QueuedAction) (next : QueuedSystem),
      state.PlainClients pShm attributes → state.PlainStep (timerPool pShm) action →
      state.step (timerPool pShm) action = some next → next.PlainClients pShm attributes :=
    fun _ _ _ clients admitted taken =>
      clients.transition (step_transition clients.linked taken) admitted
  have clients := exec_invariant kept (initial_plainClients memory roomy) plain ran
  obtain ⟨more, emptied, draining, drained, settled, empty, fired⟩ :=
    clients.drains roomy _ later le_rfl
  have nothing : ∀ task, emptied.waiting task = [] ∧ emptied.unsent task = [] := by
    intro task
    have transit := settled.linked.transit task
    rw [empty] at transit
    exact List.append_eq_nil_iff.mp transit
  refine ⟨more, emptied, draining, drained, fired, ?_, fun task => (nothing task).1,
    fun pTimer live scheduled => ?_⟩
  · cases busy : emptied.sending with
    | none => rfl
    | some sending =>
        have held := (nothing sending.1).2
        rw [unsent_self busy] at held
        exact absurd held (List.cons_ne_nil _ _)
  · rcases ((settled.plain.situations pTimer).of_scheduled live scheduled).2 with inHeap | inQueue
    · exact inHeap
    · have one := inQueue.2.2
      rw [inFlight, empty] at one
      exact absurd one Nat.zero_ne_one

/-- One message in hand is sent and received. -/
theorem queues_can_empty_one : ∃ actions : List QueuedAction, ∃ final,
    actions = [.client (.new (some (.Test, .ApplicationBaseTask))),
      .client (.schedule (timerAt 0) (.scheduleOneShotAtTimeout (some 0) 5 0) 0 0),
      .timerTask 5 fun _ => 0] ∧
    exec (step (timerPool 0)) (initial (timerPool 0) (fun _ => (1, 16)) fun _ => 0) actions =
      some final ∧
    ∃ more emptied, (∀ action ∈ more, Drains 5 action) ∧
      exec (step (timerPool 0)) final more = some emptied ∧
      emptied.fired = final.fired ∧ emptied.sending = none ∧
      (∀ task, emptied.waiting task = []) ∧
      ∀ pTimer ∈ emptied.shared.pool.outstanding,
        (emptied.shared.ledger pTimer).scheduled = true → emptied.shared.InHeap pTimer := by
  let actions : List QueuedAction := [.client (.new (some (.Test, .ApplicationBaseTask))),
    .client (.schedule (timerAt 0) (.scheduleOneShotAtTimeout (some 0) 5 0) 0 0),
    .timerTask 5 fun _ => 0]
  have ran : (exec (step (timerPool 0)) (initial (timerPool 0) (fun _ => (1, 16)) fun _ => 0)
      actions).map (fun final => final.shared.clock) = some 5 := by
    decide +kernel
  obtain ⟨final, ran, clock⟩ := Option.map_eq_some_iff.mp ran
  exact ⟨actions, final, rfl, ran, queues_can_empty (fun _ => by decide) (fun _ => 0)
    (by decide +kernel) ran (congrArg UInt64.toNat clock).le⟩

end QueuedSystem

end TimerAndCallback
