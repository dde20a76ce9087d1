import TimerAndCallback.Platform.PosixMessageQueue
import TimerAndCallback.Foundation.Execution

/-! # Calls on one queue

A queue with its creator's object and the objects of any number of users, and every order
of calls on them. Messages arrive in the order they were sent. What an object knows of
the queue is what its constructor was told, or what the last change to the non-blocking
mode left in its attributes.
-/

namespace TimerAndCallback

open Execution ByteStream

/-- One queue over time: the objects it was opened with, its creator's first, and what
was sent to it and received from it so far. -/
structure QueueRun where
  name : String
  queue : MessageQueue
  objects : List PosixMessageQueue
  sent : List (List UInt8)
  received : List (List UInt8)

/-- What a process does with a queue. The object of a call is given by its place. -/
inductive QueueCall
  | user (maxMsg msgSize : UInt32) (memory : Buffer)
  | send (index : Nat) (buf : List UInt8)
  | receive (index : Nat)
  | setNonBlockingMode (index : Nat)

namespace QueueRun

open PosixMessageQueue

/-- The queue that its creator leaves. -/
def create (name : String) (maxMsg msgSize : UInt32) (memory : Buffer) : Option QueueRun :=
  match PosixMessageQueue.create name true false maxMsg msgSize memory none with
  | (object, some queue) => some ⟨name, queue, [object], [], []⟩
  | (_, none) => none

/-- One call. A process that has to wait makes its call again later. -/
def step (run : QueueRun) : QueueCall → Option QueueRun
  | .user maxMsg msgSize memory =>
      some { run with
        objects := run.objects ++
          [(PosixMessageQueue.create run.name false false maxMsg msgSize memory
            (some run.queue)).1] }
  | .send index buf =>
      run.objects[index]?.bind fun object =>
        match object.send run.queue buf with
        | .returns queue => some { run with queue := queue, sent := run.sent ++ [buf] }
        | .blocks => some run
        | .aborts | .overruns => none
  | .receive index =>
      run.objects[index]?.bind fun object =>
        match object.receive run.queue with
        | .returns (count, object, queue) =>
            some { run with
              queue := queue
              objects := run.objects.set index object
              received := run.received ++ [object.pBuffer.load 0 count] }
        | .blocks => some run
        | .aborts | .overruns => none
  | .setNonBlockingMode index =>
      run.objects[index]?.map fun object =>
        { run with objects := run.objects.set index (object.setNonBlockingMode run.queue) }

variable {run next start final : QueueRun} {maxMsg msgSize : UInt32} {calls : List QueueCall}

/-- Every way a call can end. -/
inductive Called (run : QueueRun) : QueueCall → QueueRun → Prop
  | opened (maxMsg msgSize : UInt32) (memory : Buffer) :
      Called run (.user maxMsg msgSize memory)
        { run with
          objects := run.objects ++
            [⟨run.name, some false, ⟨false, maxMsg.toNat, msgSize.toNat, 0⟩, msgSize.toNat,
              memory⟩] }
  | sent (index : Nat) (buf : List UInt8) (fits : buf.length ≤ run.queue.mq_msgsize)
      (room : run.queue.messages.length < run.queue.mq_maxmsg) :
      Called run (.send index buf)
        { run with queue := run.queue.push buf fits room, sent := run.sent ++ [buf] }
  | waited (call : QueueCall) (waits : ∀ index, call ≠ .setNonBlockingMode index) :
      Called run call run
  | received (index : Nat) (object : PosixMessageQueue) (pBuffer : Buffer)
      (message : List UInt8) (rest : List (List UInt8))
      (found : run.objects[index]? = some object)
      (waiting : run.queue.messages = message :: rest) :
      Called run (.receive index)
        { run with
          queue := run.queue.pop waiting
          objects := run.objects.set index { object with pBuffer := pBuffer }
          received := run.received ++ [message] }
  | switched (index : Nat) (object : PosixMessageQueue)
      (found : run.objects[index]? = some object) :
      Called run (.setNonBlockingMode index)
        { run with objects := run.objects.set index (object.setNonBlockingMode run.queue) }

/-- What a step of the queue may be. -/
theorem step_called {call : QueueCall} (taken : run.step call = some next) :
    run.Called call next := by
  cases call with
  | user maxMsg msgSize memory =>
      cases taken
      exact .opened maxMsg msgSize memory
  | send index buf =>
      obtain ⟨object, found, taken⟩ := Option.bind_eq_some_iff.mp taken
      split at taken
      next queue returns =>
        cases taken
        obtain ⟨fits, room, rfl⟩ := send_returns returns
        exact .sent index buf fits room
      next =>
        cases taken
        exact .waited _ nofun
      all_goals cases taken
  | receive index =>
      obtain ⟨object, found, taken⟩ := Option.bind_eq_some_iff.mp taken
      split at taken
      next count after queue returns =>
        cases taken
        obtain ⟨_, memory, message, rest, waiting, rfl, rfl, rfl⟩ := receive_returns returns
        rw [Buffer.load_store]
        exact .received index object _ message rest found waiting
      next =>
        cases taken
        exact .waited _ nofun
      all_goals cases taken
  | setNonBlockingMode index =>
      obtain ⟨object, found, rfl⟩ := Option.map_eq_some_iff.mp taken
      exact .switched index object found

/-- The sizes stay as the creator set them, and what was sent is what was received,
followed by what waits. -/
structure Sound (maxMsg msgSize : Nat) (run : QueueRun) : Prop where
  mq_maxmsg : run.queue.mq_maxmsg = maxMsg
  mq_msgsize : run.queue.mq_msgsize = msgSize
  inOrder : run.sent = run.received ++ run.queue.messages
  read : ∀ message ∈ run.received, message.length ≤ msgSize

/-- Every call keeps the bounds of the queue and of its objects. -/
theorem Called.sound {call : QueueCall} {most size : Nat} (called : run.Called call next)
    (sound : run.Sound most size) : next.Sound most size := by
  cases called with
  | opened | waited | switched =>
      exact ⟨sound.mq_maxmsg, sound.mq_msgsize, sound.inOrder, sound.read⟩
  | sent index buf fits room =>
      refine ⟨sound.mq_maxmsg, sound.mq_msgsize, ?_, sound.read⟩
      rw [MessageQueue.push_messages, sound.inOrder, List.append_assoc]
  | received index object pBuffer message rest found waiting =>
      refine ⟨sound.mq_maxmsg, sound.mq_msgsize, ?_, fun other member => ?_⟩
      · rw [MessageQueue.pop_messages, sound.inOrder, waiting, List.append_assoc,
          List.singleton_append]
      · rcases List.mem_append.mp member with earlier | last
        · exact sound.read other earlier
        · rw [List.mem_singleton.mp last, ← sound.mq_msgsize]
          exact run.queue.sized _ (waiting ▸ List.mem_cons_self)

/-- A queue that is created is within the bounds it was created with. -/
theorem create_sound {name : String} {memory : Buffer}
    (created : create name maxMsg msgSize memory = some start) :
    start.Sound maxMsg.toNat msgSize.toNat := by
  unfold create PosixMessageQueue.create at created
  by_cases positive : 0 < maxMsg.toNat ∧ 0 < msgSize.toNat
  · simp only [if_pos positive, Option.some.injEq] at created
    subst created
    exact ⟨rfl, rfl, rfl, fun _ member => absurd member List.not_mem_nil⟩
  · simp only [if_neg positive, reduceCtorEq] at created

/-- Whatever processes open, send, receive and switch to the non-blocking mode, in any
order, the messages received are the first ones sent, in the order they were sent,
and the rest waits, never more of them than the creator asked for. -/
theorem calls_inOrder {name : String} {memory : Buffer}
    (created : create name maxMsg msgSize memory = some start)
    (ran : exec step start calls = some final) :
    final.sent = final.received ++ final.queue.messages ∧
      final.queue.messages.length ≤ maxMsg.toNat ∧
      ∀ message ∈ final.received, message.length ≤ msgSize.toNat := by
  have kept : ∀ (run : QueueRun) (call : QueueCall) (next : QueueRun),
      run.Sound maxMsg.toNat msgSize.toNat → run.step call = some next →
      next.Sound maxMsg.toNat msgSize.toNat :=
    fun _ _ _ sound taken => (step_called taken).sound sound
  have sound := exec_invariant_of_step kept (create_sound created) ran
  exact ⟨sound.inOrder, sound.mq_maxmsg ▸ final.queue.bounded, sound.read⟩

/-- Two messages through a queue with room for one. -/
theorem calls_inOrder_two : ∃ start final,
    create "/Test" 1 2 (fun _ => 0) = some start ∧
    exec step start [.user 0 0 fun _ => 0, .send 1 [7, 8], .send 1 [9], .receive 0, .send 1 [9]] =
      some final ∧
    final.sent = final.received ++ final.queue.messages ∧
      final.queue.messages.length ≤ (1 : UInt32).toNat ∧
      ∀ message ∈ final.received, message.length ≤ (2 : UInt32).toNat := by
  have ran : ((create "/Test" 1 2 fun _ => 0).bind fun start => exec step start
      [.user 0 0 fun _ => 0, .send 1 [7, 8], .send 1 [9], .receive 0, .send 1 [9]]).isSome := by
    decide +kernel
  obtain ⟨final, ran⟩ := Option.isSome_iff_exists.mp ran
  obtain ⟨start, created, ran⟩ := Option.bind_eq_some_iff.mp ran
  exact ⟨start, final, created, ran, calls_inOrder created ran⟩

/-- Where the attributes of an object come from: from the arguments of its constructor,
or from the queue at the last change to the non-blocking mode. -/
inductive Tracked (start : QueueRun) (index : Nat) (past : List QueueCall)
    (object : PosixMessageQueue) : Prop
  | constructed (unset : .setNonBlockingMode index ∉ past)
      (size : object.mQAttr.mq_msgsize = object.bufferSize)
      (count : object.getNumberOfMessagesInQueue = 0)
  | replaced (first rest : List QueueCall) (middle : QueueRun)
      (split : past = first ++ .setNonBlockingMode index :: rest)
      (last : .setNonBlockingMode index ∉ rest) (reached : exec step start first = some middle)
      (size : object.mQAttr.mq_msgsize = middle.queue.mq_msgsize)
      (count : object.getNumberOfMessagesInQueue = middle.queue.messages.length)

/-- A call that does not change the mode of an object leaves its attributes as they are. -/
theorem Tracked.append {index : Nat} {past : List QueueCall} {call : QueueCall}
    {object after : PosixMessageQueue} (tracked : Tracked start index past object)
    (other : call ≠ .setNonBlockingMode index) (mQAttr : after.mQAttr = object.mQAttr)
    (bufferSize : after.bufferSize = object.bufferSize) :
    Tracked start index (past ++ [call]) after := by
  have absent : ∀ {calls : List QueueCall}, .setNonBlockingMode index ∉ calls →
      .setNonBlockingMode index ∉ calls ++ [call] := by
    intro calls unset member
    rcases List.mem_append.mp member with earlier | now
    · exact unset earlier
    · exact other (List.mem_singleton.mp now).symm
  cases tracked with
  | constructed unset size count =>
      refine .constructed (absent unset) ?_ ?_
      · rw [mQAttr, bufferSize, size]
      · rw [getNumberOfMessagesInQueue, mQAttr]
        exact count
  | replaced first rest middle split last reached size count =>
      refine .replaced first (rest ++ [call]) middle ?_ (absent last) reached ?_ ?_
      · rw [split, List.append_assoc, List.cons_append]
      · rw [mQAttr, size]
      · rw [getNumberOfMessagesInQueue, mQAttr]
        exact count

/-- The objects after some calls. -/
structure Objects (start : QueueRun) (past : List QueueCall) (run : QueueRun) : Prop where
  opened : ∀ object ∈ run.objects, object.msgFD.isSome
  tracked : ∀ index object, run.objects[index]? = some object → Tracked start index past object
  unknown : ∀ index, run.objects.length ≤ index → .setNonBlockingMode index ∉ past

/-- The creator is the only object of a new queue. -/
theorem create_objects {name : String} {memory : Buffer}
    (created : create name maxMsg msgSize memory = some start) : Objects start [] start := by
  unfold create PosixMessageQueue.create at created
  by_cases positive : 0 < maxMsg.toNat ∧ 0 < msgSize.toNat
  · simp only [if_pos positive, Option.some.injEq] at created
    subst created
    refine ⟨fun object member => ?_, fun index object found => ?_, fun _ _ => List.not_mem_nil⟩
    · rw [List.mem_singleton.mp member]
      rfl
    · rw [List.mem_singleton.mp (List.mem_of_getElem? found)]
      exact .constructed List.not_mem_nil rfl rfl
  · simp only [if_neg positive, reduceCtorEq] at created

/-- Every call keeps what is known of the objects. -/
theorem Called.objects {call : QueueCall} {past : List QueueCall} (called : run.Called call next)
    (reached : exec step start past = some run) (objects : Objects start past run) :
    Objects start (past ++ [call]) next := by
  have unset : ∀ {index : Nat}, call ≠ .setNonBlockingMode index →
      .setNonBlockingMode index ∉ past → .setNonBlockingMode index ∉ past ++ [call] := by
    intro index other absent member
    rcases List.mem_append.mp member with earlier | now
    · exact absent earlier
    · exact other (List.mem_singleton.mp now).symm
  cases called with
  | opened maxMsg msgSize memory =>
      refine ⟨fun object member => ?_, fun index object found => ?_, fun index past => ?_⟩
      · rcases List.mem_append.mp member with earlier | last
        · exact objects.opened object earlier
        · rw [List.mem_singleton.mp last]
          rfl
      · rcases Nat.lt_or_ge index run.objects.length with before | behind
        · rw [List.getElem?_append_left before] at found
          exact (objects.tracked index object found).append nofun rfl rfl
        · rw [List.getElem?_append_right behind] at found
          rw [List.mem_singleton.mp (List.mem_of_getElem? found)]
          exact .constructed (unset nofun (objects.unknown index behind)) rfl rfl
      · rw [List.length_append] at past
        exact unset nofun (objects.unknown index (by omega))
  | sent index buf fits room =>
      exact ⟨objects.opened,
        fun other object found => (objects.tracked other object found).append nofun rfl rfl,
        fun other past => unset nofun (objects.unknown other past)⟩
  | waited call waits =>
      exact ⟨objects.opened,
        fun other object found => (objects.tracked other object found).append (waits other) rfl rfl,
        fun other past => unset (waits other) (objects.unknown other past)⟩
  | received index object pBuffer message rest found waiting =>
      refine ⟨fun other member => ?_, fun other after known => ?_, fun other past => ?_⟩
      · rcases List.mem_or_eq_of_mem_set member with earlier | rfl
        · exact objects.opened other earlier
        · exact objects.opened object (List.mem_of_getElem? found)
      · rw [List.getElem?_set] at known
        split_ifs at known with same inside
        · cases known
          subst same
          exact (objects.tracked index object found).append nofun rfl rfl
        · exact (objects.tracked other after known).append nofun rfl rfl
      · rw [List.length_set] at past
        exact unset nofun (objects.unknown other past)
  | switched index object found =>
      obtain ⟨nonBlocking, open_⟩ := Option.isSome_iff_exists.mp
        (objects.opened object (List.mem_of_getElem? found))
      refine ⟨fun other member => ?_, fun other after known => ?_, fun other past => ?_⟩
      · rcases List.mem_or_eq_of_mem_set member with earlier | rfl
        · exact objects.opened other earlier
        · rw [setNonBlockingMode, open_]
          rfl
      · rw [List.getElem?_set] at known
        split_ifs at known with same inside
        · cases known
          subst same
          refine .replaced past [] run rfl List.not_mem_nil reached ?_ ?_
          · rw [setNonBlockingMode, open_]
          · rw [setNonBlockingMode, open_]
            rfl
        · refine (objects.tracked other after known).append (fun equal => ?_) rfl rfl
          exact same (QueueCall.setNonBlockingMode.inj equal)
      · rw [List.length_set] at past
        refine unset (fun equal => ?_) (objects.unknown other past)
        rw [← QueueCall.setNonBlockingMode.inj equal] at past
        exact absurd (List.getElem?_eq_some_iff.mp found).1 (Nat.not_lt.mpr past)

private theorem objects_of_exec {name : String} {memory : Buffer}
    (created : create name maxMsg msgSize memory = some start)
    (ran : exec step start calls = some final) : Objects start calls final :=
  exec_history (create_objects created)
    (fun _ _ _ _ reached objects taken => (step_called taken).objects reached objects) ran

/-- `getNumberOfMessagesInQueue` answers how many messages waited when the object was
last switched to the non-blocking mode, and zero before; no later call changes it. -/
theorem getNumberOfMessagesInQueue_stale {name : String} {memory : Buffer}
    (created : create name maxMsg msgSize memory = some start)
    (ran : exec step start calls = some final) {index : Nat} {object : PosixMessageQueue}
    (found : final.objects[index]? = some object) :
    (.setNonBlockingMode index ∉ calls ∧ object.getNumberOfMessagesInQueue = 0) ∨
      ∃ first rest middle, calls = first ++ .setNonBlockingMode index :: rest ∧
        .setNonBlockingMode index ∉ rest ∧ exec step start first = some middle ∧
        object.getNumberOfMessagesInQueue = middle.queue.messages.length := by
  cases (objects_of_exec created ran).tracked index object found with
  | constructed unset _ count => exact Or.inl ⟨unset, count⟩
  | replaced first rest middle split last reached _ count =>
      exact Or.inr ⟨first, rest, middle, split, last, reached, count⟩

/-- One message waits when a user switches its object, and two in the end. -/
theorem getNumberOfMessagesInQueue_stale_two : ∃ (calls : List QueueCall) (start final : QueueRun)
    (object : PosixMessageQueue),
    calls = [.user 0 0 fun _ => 0, .send 1 [7], .setNonBlockingMode 1, .send 1 [8]] ∧
    create "/Test" 2 2 (fun _ => 0) = some start ∧ exec step start calls = some final ∧
    final.objects[1]? = some object ∧
    ((.setNonBlockingMode 1 ∉ calls ∧ object.getNumberOfMessagesInQueue = 0) ∨
      ∃ first rest middle, calls = first ++ .setNonBlockingMode 1 :: rest ∧
        .setNonBlockingMode 1 ∉ rest ∧ exec step start first = some middle ∧
        object.getNumberOfMessagesInQueue = middle.queue.messages.length) := by
  have ran : ((create "/Test" 2 2 fun _ => 0).bind fun start => (exec step start
      [.user 0 0 fun _ => 0, .send 1 [7], .setNonBlockingMode 1, .send 1 [8]]).bind fun final =>
        final.objects[1]?).isSome := by
    decide +kernel
  obtain ⟨object, ran⟩ := Option.isSome_iff_exists.mp ran
  obtain ⟨start, created, ran⟩ := Option.bind_eq_some_iff.mp ran
  obtain ⟨final, ran, found⟩ := Option.bind_eq_some_iff.mp ran
  exact ⟨_, start, final, object, rfl, created, ran, found,
    getNumberOfMessagesInQueue_stale created ran found⟩

/-- A process that opened the queue with less than its message size never receives:
`receive` aborts, and overruns `pBuffer` once the object was switched to the
non-blocking mode. No other object overruns its buffer. -/
theorem receive_overruns_iff {name : String} {memory : Buffer}
    (created : create name maxMsg msgSize memory = some start)
    (ran : exec step start calls = some final) {index : Nat} {object : PosixMessageQueue}
    (found : final.objects[index]? = some object) :
    (object.receive final.queue = .overruns ↔
        object.bufferSize < msgSize.toNat ∧ .setNonBlockingMode index ∈ calls) ∧
      (object.bufferSize < msgSize.toNat → .setNonBlockingMode index ∉ calls →
        object.receive final.queue = .aborts) := by
  have kept : ∀ (run : QueueRun) (call : QueueCall) (next : QueueRun),
      run.Sound maxMsg.toNat msgSize.toNat → run.step call = some next →
      next.Sound maxMsg.toNat msgSize.toNat :=
    fun _ _ _ sound taken => (step_called taken).sound sound
  have sized : ∀ {labels : List QueueCall} {middle : QueueRun},
      exec step start labels = some middle → middle.queue.mq_msgsize = msgSize.toNat :=
    fun reached => (exec_invariant_of_step kept (create_sound created) reached).mq_msgsize
  have objects := objects_of_exec created ran
  rw [receive_overruns_iff_small]
  cases objects.tracked index object found with
  | constructed unset size count =>
      refine ⟨iff_of_false (by omega) fun both => unset both.2, fun small _ => ?_⟩
      obtain ⟨nonBlocking, open_⟩ := Option.isSome_iff_exists.mp
        (objects.opened object (List.mem_of_getElem? found))
      unfold receive
      rw [if_neg (by omega), open_]
      dsimp only
      rw [MessageQueue.mqReceive, if_pos (by rw [sized ran]; omega)]
      rfl
  | replaced first rest middle split last reached size count =>
      have called : .setNonBlockingMode index ∈ calls := by
        rw [split]
        exact List.mem_append_right first List.mem_cons_self
      rw [size, sized reached]
      exact ⟨(and_iff_left called).symm, fun _ unset => absurd called unset⟩

/-- The object of a user that opened the queue with a message size of zero. -/
theorem receive_overruns_iff_zero : ∃ (calls : List QueueCall) (start final : QueueRun)
    (object : PosixMessageQueue),
    calls = [.user 0 0 fun _ => 0, .setNonBlockingMode 1] ∧
    create "/Test" 2 2 (fun _ => 0) = some start ∧ exec step start calls = some final ∧
    final.objects[1]? = some object ∧
    (object.receive final.queue = .overruns ↔
        object.bufferSize < (2 : UInt32).toNat ∧ .setNonBlockingMode 1 ∈ calls) ∧
      (object.bufferSize < (2 : UInt32).toNat → .setNonBlockingMode 1 ∉ calls →
        object.receive final.queue = .aborts) := by
  have ran : ((create "/Test" 2 2 fun _ => 0).bind fun start => (exec step start
      [.user 0 0 fun _ => 0, .setNonBlockingMode 1]).bind fun final =>
        final.objects[1]?).isSome := by
    decide +kernel
  obtain ⟨object, ran⟩ := Option.isSome_iff_exists.mp ran
  obtain ⟨start, created, ran⟩ := Option.bind_eq_some_iff.mp ran
  obtain ⟨final, ran, found⟩ := Option.bind_eq_some_iff.mp ran
  exact ⟨_, start, final, object, rfl, created, ran, found, receive_overruns_iff created ran found⟩

end QueueRun

end TimerAndCallback
