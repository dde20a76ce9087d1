import TimerAndCallback.Platform.PosixMessageQueueObject

/-! # POSIX message queues

A message queue of the system is bounded, and its messages all have one priority, so
it is first in, first out. `PosixMessageQueue` is what a process keeps of a queue it
opened: its own copy of the attributes, which nothing brings up to date, and a buffer
of the message size that it asked for. Failing calls end in `assert (0)`.
-/

namespace TimerAndCallback

open ByteStream

/-- How a call on a queue ends. -/
inductive Call (α : Type)
  | returns (value : α)
  /-- The process waits until the call can go on. -/
  | blocks
  /-- The call ends in `assert (0)`. -/
  | aborts
  /-- The call writes past the end of `pBuffer`. -/
  | overruns

/-- What is made of the value of a call that returns. -/
def Call.map {α β : Type} (change : α → β) : Call α → Call β
  | .returns value => .returns (change value)
  | .blocks => .blocks
  | .aborts => .aborts
  | .overruns => .overruns

private theorem Call.map_eq_returns {α β : Type} {change : α → β} {call : Call α} {result : β} :
    call.map change = .returns result ↔ ∃ value, call = .returns value ∧ change value = result := by
  cases call with
  | returns value => simp only [map, Call.returns.injEq, exists_eq_left']
  | blocks | aborts | overruns => simp only [map, reduceCtorEq, false_and, exists_false]

private theorem Call.map_eq_blocks {α β : Type} {change : α → β} {call : Call α} :
    call.map change = .blocks ↔ call = .blocks := by
  cases call <;> simp only [map, reduceCtorEq]

private theorem Call.map_eq_overruns {α β : Type} {change : α → β} {call : Call α} :
    call.map change = .overruns ↔ call = .overruns := by
  cases call <;> simp only [map, reduceCtorEq]

/-- A message queue, as the system keeps it. -/
structure MessageQueue where
  mq_maxmsg : Nat
  mq_msgsize : Nat
  messages : List (List UInt8)
  bounded : messages.length ≤ mq_maxmsg
  sized : ∀ message ∈ messages, message.length ≤ mq_msgsize
  deriving DecidableEq

namespace MessageQueue

variable (queue : MessageQueue) {message : List UInt8} {rest : List (List UInt8)}

/-- A message goes to the end of a queue that has room for it. -/
@[simps]
def push (message : List UInt8) (fits : message.length ≤ queue.mq_msgsize)
    (room : queue.messages.length < queue.mq_maxmsg) : MessageQueue where
  mq_maxmsg := queue.mq_maxmsg
  mq_msgsize := queue.mq_msgsize
  messages := queue.messages ++ [message]
  bounded := by
    rw [List.length_append, List.length_singleton]
    exact room
  sized other member := by
    rcases List.mem_append.mp member with earlier | last
    · exact queue.sized other earlier
    · rw [List.mem_singleton.mp last]
      exact fits

/-- The first message leaves the queue. -/
@[simps]
def pop (waiting : queue.messages = message :: rest) : MessageQueue where
  mq_maxmsg := queue.mq_maxmsg
  mq_msgsize := queue.mq_msgsize
  messages := rest
  bounded := by
    have bounded := queue.bounded
    rw [waiting, List.length_cons] at bounded
    omega
  sized other member := queue.sized other (waiting ▸ List.mem_cons_of_mem message member)

/-- `mq_send`. A message that is too long is refused; a full queue is waited for. -/
def mqSend (nonBlocking : Bool) (message : List UInt8) : Call MessageQueue :=
  if fits : message.length ≤ queue.mq_msgsize then
    if room : queue.messages.length < queue.mq_maxmsg then
      .returns (queue.push message fits room)
    else if nonBlocking then .aborts
    else .blocks
  else
    .aborts

/-- `mq_receive`, into `size` bytes, which have to be enough for every message. -/
def mqReceive (nonBlocking : Bool) (size : Nat) : Call (List UInt8 × MessageQueue) :=
  if size < queue.mq_msgsize then
    .aborts
  else
    match waiting : queue.messages with
    | [] => if nonBlocking then .aborts else .blocks
    | message :: _ => .returns (message, queue.pop waiting)

variable {queue} {next : MessageQueue} {nonBlocking : Bool} {size : Nat}

/-- A message that is sent fits a slot, finds room and is queued last. -/
theorem mqSend_returns (returns : queue.mqSend nonBlocking message = .returns next) :
    ∃ (fits : message.length ≤ queue.mq_msgsize) (room : queue.messages.length < queue.mq_maxmsg),
      next = queue.push message fits room := by
  unfold mqSend at returns
  split_ifs at returns with fits room
  cases returns
  exact ⟨fits, room, rfl⟩

/-- A send waits at a full queue only. -/
theorem mqSend_blocks (blocks : queue.mqSend nonBlocking message = .blocks) :
    queue.mq_maxmsg ≤ queue.messages.length := by
  unfold mqSend at blocks
  split_ifs at blocks with fits room
  exact Nat.not_lt.mp room

/-- A message that is received fits the buffer and was the first of the queue. -/
theorem mqReceive_returns
    (returns : queue.mqReceive nonBlocking size = .returns (message, next)) :
    queue.mq_msgsize ≤ size ∧
      ∃ (rest : List (List UInt8)) (waiting : queue.messages = message :: rest),
        next = queue.pop waiting := by
  unfold mqReceive at returns
  by_cases short : size < queue.mq_msgsize
  · rw [if_pos short] at returns
    cases returns
  · rw [if_neg short] at returns
    split at returns
    · split at returns <;> cases returns
    · next rest waiting =>
        cases returns
        exact ⟨Nat.not_lt.mp short, rest, waiting, rfl⟩

/-- A receive waits at an empty queue only. -/
theorem mqReceive_blocks (blocks : queue.mqReceive nonBlocking size = .blocks) :
    queue.messages = [] := by
  unfold mqReceive at blocks
  by_cases short : size < queue.mq_msgsize
  · rw [if_pos short] at blocks
    cases blocks
  · rw [if_neg short] at blocks
    split at blocks
    · next empty => exact empty
    · cases blocks

private theorem mqReceive_ne_overruns : queue.mqReceive nonBlocking size ≠ .overruns := by
  unfold mqReceive
  by_cases short : size < queue.mq_msgsize
  · rw [if_pos short]
    exact nofun
  · rw [if_neg short]
    split
    · split <;> exact nofun
    · exact nofun

/-- A queue with a message in it delivers its first into a buffer that is large enough. -/
theorem mqReceive_waiting {rest : List (List UInt8)} (waiting : queue.messages = message :: rest)
    (large : queue.mq_msgsize ≤ size) :
    queue.mqReceive nonBlocking size = .returns (message, queue.pop waiting) := by
  unfold mqReceive
  rw [if_neg (Nat.not_lt.mpr large)]
  split
  · next empty => exact absurd (empty.symm.trans waiting) nofun
  · next other more found =>
      obtain ⟨rfl, rfl⟩ := List.cons.inj (found.symm.trans waiting)
      rfl

/-- A blocking receive waits at an empty queue. -/
theorem mqReceive_empty (empty : queue.messages = []) (large : queue.mq_msgsize ≤ size) :
    queue.mqReceive false size = .blocks := by
  unfold mqReceive
  rw [if_neg (Nat.not_lt.mpr large)]
  split
  · rfl
  · next found => exact absurd (found.symm.trans empty) nofun

end MessageQueue

/-- The members of `mq_attr`. `O_NONBLOCK` is the only flag. -/
structure MqAttr where
  nonBlocking : Bool
  mq_maxmsg : Nat
  mq_msgsize : Nat
  mq_curmsgs : Nat
  deriving DecidableEq

/-- The members of `PosixMessageQueue`. `msgFD` is `none` for -1, and says otherwise
whether `O_NONBLOCK` is set on the open description; `bufferSize` is the size that
`pBuffer` was allocated with. -/
structure PosixMessageQueue where
  name : String
  msgFD : Option Bool
  mQAttr : MqAttr
  bufferSize : Nat
  pBuffer : Buffer

namespace PosixMessageQueue

/-- The constructor, with `POSIX_MQ_CREATOR` or `POSIX_MQ_USER`, on the queue that
exists under the name. `mq_open` takes the two sizes of a creator and ignores every
other attribute; the limits of the system are not met. -/
def create (name : String) (creator nonBlocking : Bool) (maxMsg msgSize : UInt32)
    (memory : Buffer) (existing : Option MessageQueue) :
    PosixMessageQueue × Option MessageQueue :=
  let mQAttr := ⟨nonBlocking, maxMsg.toNat, msgSize.toNat, 0⟩
  let object := fun msgFD => ⟨name, msgFD, mQAttr, msgSize.toNat, memory⟩
  match creator, existing with
  | true, none =>
      if 0 < maxMsg.toNat ∧ 0 < msgSize.toNat then
        (object (some false),
          some ⟨maxMsg.toNat, msgSize.toNat, [], Nat.zero_le _, fun _ absent =>
            absurd absent List.not_mem_nil⟩)
      else
        (object none, none)
  | true, some queue => (object none, some queue)
  | false, none => (object none, none)
  | false, some queue => (object (some false), some queue)

section Create

variable {name : String} {creator nonBlocking : Bool} {maxMsg msgSize : UInt32} {memory : Buffer}

/-- An object keeps the name that it is constructed with. -/
theorem name_create (existing : Option MessageQueue) :
    (create name creator nonBlocking maxMsg msgSize memory existing).1.name = name := by
  unfold create
  dsimp only
  split
  · split_ifs <;> rfl
  all_goals rfl

/-- The queue that a creator leaves is empty and has the sizes that it asked for. -/
theorem create_queue {queue : MessageQueue}
    (created : (create name true nonBlocking maxMsg msgSize memory none).2 = some queue) :
    queue.mq_maxmsg = maxMsg.toNat ∧ queue.mq_msgsize = msgSize.toNat ∧ queue.messages = [] := by
  unfold create at created
  by_cases positive : 0 < maxMsg.toNat ∧ 0 < msgSize.toNat
  · simp only [if_pos positive, Option.some.injEq] at created
    subst created
    exact ⟨rfl, rfl, rfl⟩
  · simp only [if_neg positive, reduceCtorEq] at created

/-- Positive sizes are granted, and the creator's buffer has the message size. -/
theorem create_positive (name : String) (nonBlocking : Bool) (memory : Buffer)
    (positive : 0 < maxMsg.toNat ∧ 0 < msgSize.toNat) :
    (create name true nonBlocking maxMsg msgSize memory none).2.isSome ∧
      (create name true nonBlocking maxMsg msgSize memory none).1 =
        ⟨name, some false, ⟨nonBlocking, maxMsg.toNat, msgSize.toNat, 0⟩, msgSize.toNat,
          memory⟩ := by
  unfold create
  simp only [if_pos positive, Option.isSome_some, and_self]

end Create

/-- `send`: the queue after `mq_send`. -/
def send (object : PosixMessageQueue) (queue : MessageQueue) (buf : List UInt8) :
    Call MessageQueue :=
  match object.msgFD with
  | none => .aborts
  | some nonBlocking => queue.mqSend nonBlocking buf

/-- `receive`: the number of bytes, the object and the queue after `mq_receive`. The
buffer is cleared first, over the message size in the object's own attributes. -/
def receive (object : PosixMessageQueue) (queue : MessageQueue) :
    Call (Nat × PosixMessageQueue × MessageQueue) :=
  if object.bufferSize < object.mQAttr.mq_msgsize then
    .overruns
  else
    let pBuffer := object.pBuffer.store 0 (List.replicate object.mQAttr.mq_msgsize 0)
    match object.msgFD with
    | none => .aborts
    | some nonBlocking =>
        (queue.mqReceive nonBlocking object.mQAttr.mq_msgsize).map fun answer =>
          (answer.1.length, { object with pBuffer := pBuffer.store 0 answer.1 }, answer.2)

/-- `getNumberOfMessagesInQueue`. -/
def getNumberOfMessagesInQueue (object : PosixMessageQueue) : Nat := object.mQAttr.mq_curmsgs

/-- `setNonBlockingMode`. `mq_setattr` puts the attributes it replaces, with the number
of messages of that moment, where the new ones were copied from. -/
def setNonBlockingMode (object : PosixMessageQueue) (queue : MessageQueue) : PosixMessageQueue :=
  match object.msgFD with
  | none => object
  | some nonBlocking =>
      { object with
        msgFD := some true
        mQAttr := ⟨nonBlocking, queue.mq_maxmsg, queue.mq_msgsize, queue.messages.length⟩ }

section Calls

variable {object : PosixMessageQueue} {queue : MessageQueue}

/-- A receive overruns the buffer when `memset` clears more than it holds. -/
theorem receive_overruns_iff_small :
    object.receive queue = .overruns ↔ object.bufferSize < object.mQAttr.mq_msgsize := by
  unfold receive
  by_cases small : object.bufferSize < object.mQAttr.mq_msgsize
  · exact iff_of_true (if_pos small) small
  · rw [if_neg small]
    refine iff_of_false (fun overruns => ?_) small
    dsimp only at overruns
    split at overruns
    · cases overruns
    · exact MessageQueue.mqReceive_ne_overruns (Call.map_eq_overruns.mp overruns)

/-- `send` waits at a full queue only. -/
theorem send_blocks {buf : List UInt8} (blocks : object.send queue buf = .blocks) :
    queue.mq_maxmsg ≤ queue.messages.length := by
  unfold send at blocks
  split at blocks
  · cases blocks
  · exact MessageQueue.mqSend_blocks blocks

/-- `send` queues the buffer last. -/
theorem send_returns {buf : List UInt8} {next : MessageQueue}
    (returns : object.send queue buf = .returns next) :
    ∃ (fits : buf.length ≤ queue.mq_msgsize) (room : queue.messages.length < queue.mq_maxmsg),
      next = queue.push buf fits room := by
  unfold send at returns
  split at returns
  · cases returns
  · exact MessageQueue.mqSend_returns returns

/-- `receive` waits at an empty queue only. -/
theorem receive_blocks (blocks : object.receive queue = .blocks) : queue.messages = [] := by
  unfold receive at blocks
  by_cases small : object.bufferSize < object.mQAttr.mq_msgsize
  · rw [if_pos small] at blocks
    cases blocks
  · rw [if_neg small] at blocks
    dsimp only at blocks
    split at blocks
    · cases blocks
    · exact MessageQueue.mqReceive_blocks (Call.map_eq_blocks.mp blocks)

/-- A call that returns takes the first message into a buffer that has room for every
message of the queue, and leaves the rest of the object alone. -/
theorem receive_returns {count : Nat} {after : PosixMessageQueue} {next : MessageQueue}
    (returns : object.receive queue = .returns (count, after, next)) :
    queue.mq_msgsize ≤ object.bufferSize ∧
      ∃ (memory : Buffer) (message : List UInt8) (rest : List (List UInt8))
        (waiting : queue.messages = message :: rest),
        count = message.length ∧ after = { object with pBuffer := memory.store 0 message } ∧
          next = queue.pop waiting := by
  unfold receive at returns
  by_cases small : object.bufferSize < object.mQAttr.mq_msgsize
  · rw [if_pos small] at returns
    cases returns
  · rw [if_neg small] at returns
    dsimp only at returns
    split at returns
    · cases returns
    · obtain ⟨⟨message, rest⟩, received, answered⟩ := Call.map_eq_returns.mp returns
      obtain ⟨large, rest, waiting, popped⟩ := MessageQueue.mqReceive_returns received
      cases answered
      exact ⟨large.trans (Nat.not_lt.mp small), _, message, rest, waiting, rfl, rfl, popped⟩

/-- On an open queue a message that fits is sent, or waits while the queue is full. -/
theorem send_of_open {buf : List UInt8} (open_ : object.msgFD = some false)
    (fits : buf.length ≤ queue.mq_msgsize) :
    (∃ room, object.send queue buf = .returns (queue.push buf fits room)) ∨
      queue.mq_maxmsg ≤ queue.messages.length ∧ object.send queue buf = .blocks := by
  unfold send MessageQueue.mqSend
  rw [open_]
  dsimp only
  rw [dif_pos fits]
  by_cases room : queue.messages.length < queue.mq_maxmsg
  · exact Or.inl ⟨room, dif_pos room⟩
  · exact Or.inr ⟨Nat.not_lt.mp room, dif_neg room⟩

/-- Into a buffer of the message size the first message of an open queue is received; an
empty queue is waited for. -/
theorem receive_of_open (open_ : object.msgFD = some false)
    (size : object.mQAttr.mq_msgsize = object.bufferSize)
    (large : queue.mq_msgsize ≤ object.bufferSize) :
    (∃ (memory : Buffer) (message : List UInt8) (rest : List (List UInt8))
        (waiting : queue.messages = message :: rest),
        object.receive queue = .returns
          (message.length, { object with pBuffer := memory.store 0 message },
            queue.pop waiting)) ∨
      queue.messages = [] ∧ object.receive queue = .blocks := by
  unfold receive
  rw [if_neg (by omega), open_]
  dsimp only
  by_cases empty : queue.messages = []
  · refine Or.inr ⟨empty, ?_⟩
    rw [MessageQueue.mqReceive_empty empty (size ▸ large)]
    rfl
  · obtain ⟨message, rest, waiting⟩ := List.exists_cons_of_ne_nil empty
    refine Or.inl ⟨object.pBuffer.store 0 (List.replicate object.mQAttr.mq_msgsize 0), message,
      rest, waiting, ?_⟩
    rw [MessageQueue.mqReceive_waiting waiting (size ▸ large)]
    rfl

end Calls

end PosixMessageQueue

end TimerAndCallback
