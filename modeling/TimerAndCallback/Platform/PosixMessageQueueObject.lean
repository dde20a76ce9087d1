import TimerAndCallback.Platform.TimerSystem
import TimerAndCallback.Common.Util

/-! # The queue message on the wire

A message is sixteen bytes: the sender's id, the event and the slot index. What
`deserializeFromCharBuf` makes of them is the message but for the event, which is
decoded and not stored. The slot index survives, so a message leads the receiver
to the object that the sender named.
-/

namespace TimerAndCallback

open ByteStream

/-- `TaskId::getId`, as the number that is sent. -/
def TaskId.getId : TaskId → UInt32
  | .Test => 0
  | .ApplicationBaseTask => 1
  | .TimerTask => 2

/-- `TaskId::setId ((TaskId::Id) id)`; `none` for a number that no task has. -/
def TaskId.ofId (id : UInt32) : Option TaskId :=
  if id = 0 then some .Test
  else if id = 1 then some .ApplicationBaseTask
  else if id = 2 then some .TimerTask
  else none

/-- `getId` names each task by its own number. -/
@[simp] theorem TaskId.ofId_getId (task : TaskId) : TaskId.ofId task.getId = some task := by
  cases task <;> rfl

namespace PosixMessageQueueObject

/-- `serializeToCharBuf`. -/
def serializeToCharBuf (object : PosixMessageQueueObject) (buf : Buffer) : Buffer :=
  serializeUINT64ToCharBuf object.shmIndex
    (serializeUINT32ToCharBuf object.event
      (serializeUINT32ToCharBuf object.fromTask.getId buf 0) 4) 8

/-- `deserializeFromCharBuf`, on an object with members already. The event is
decoded into a local variable. -/
def deserializeFromCharBuf (object : PosixMessageQueueObject) (buf : Buffer) :
    Option PosixMessageQueueObject := do
  let _event := deserializeUINT32FromCharBuf buf 4
  let fromTask ← TaskId.ofId (deserializeUINT32FromCharBuf buf 0)
  some { object with fromTask := fromTask, shmIndex := deserializeUINT64FromCharBuf buf 8 }

/-- The sixteen bytes that are sent from a buffer the object was written to. -/
def message (object : PosixMessageQueueObject) (buf : Buffer) : List UInt8 :=
  (object.serializeToCharBuf buf).load 0 16

/-- The bytes of a message, word by word. -/
def wire (object : PosixMessageQueueObject) : List UInt8 :=
  UINT32.memory (htonl object.fromTask.getId) ++
    (UINT32.memory (htonl object.event) ++
      (UINT32.memory (htonl (UINT64.uint64s object.shmIndex).msb) ++
        UINT32.memory (htonl (UINT64.uint64s object.shmIndex).lsb)))

/-- An object takes 16 bytes on the wire. -/
@[simp] theorem length_wire (object : PosixMessageQueueObject) : object.wire.length = 16 := by
  simp only [wire, List.length_append, UINT32.length_memory]

/-- A word written right behind others. -/
theorem serializeUINT32ToCharBuf_store (buf : Buffer) (bytes : List UInt8) (value : UInt32)
    (offset : Nat) (behind : offset = bytes.length) :
    serializeUINT32ToCharBuf value (buf.store 0 bytes) offset =
      buf.store 0 (bytes ++ UINT32.memory (htonl value)) :=
  Buffer.store_store buf bytes (UINT32.memory (htonl value)) (by rw [behind, Nat.zero_add])

/-- Serializing an object stores its wire form at the start of the buffer. -/
theorem serializeToCharBuf_eq (object : PosixMessageQueueObject) (buf : Buffer) :
    object.serializeToCharBuf buf = buf.store 0 object.wire := by
  have first : serializeUINT32ToCharBuf object.fromTask.getId buf 0 =
      buf.store 0 (UINT32.memory (htonl object.fromTask.getId)) := rfl
  unfold serializeToCharBuf serializeUINT64ToCharBuf wire
  rw [first, serializeUINT32ToCharBuf_store _ _ _ 4, serializeUINT32ToCharBuf_store _ _ _ 8,
    serializeUINT32ToCharBuf_store _ _ _ (8 + 4), List.append_assoc, List.append_assoc]
  all_goals simp only [List.length_append, UINT32.length_memory]

/-- The message that is sent is the wire form, whatever the buffer held. -/
theorem message_eq (object : PosixMessageQueueObject) (buf : Buffer) :
    object.message buf = object.wire := by
  have read := Buffer.load_store buf 0 object.wire
  rwa [length_wire, ← serializeToCharBuf_eq] at read

/-- A word is decoded from its place in a message. -/
theorem deserializeUINT32FromCharBuf_store (inbox : Buffer) (front back : List UInt8)
    (value : UInt32) (offset : Nat) (place : offset = front.length) :
    deserializeUINT32FromCharBuf
      (inbox.store 0 (front ++ UINT32.memory (htonl value) ++ back)) offset = value := by
  have behind : offset = 0 + front.length := by rw [place, Nat.zero_add]
  unfold deserializeUINT32FromCharBuf
  rw [Buffer.load_store_part inbox front _ back behind (UINT32.length_memory _).symm,
    UINT32.ofMemory_memory, ntohl_htonl]

/-- Decoding a message restores everything but the event. -/
theorem deserializeFromCharBuf_message (object sent : PosixMessageQueueObject)
    (outbox inbox : Buffer) :
    object.deserializeFromCharBuf (inbox.store 0 (sent.message outbox)) =
      some { sent with event := object.event } := by
  let id := UINT32.memory (htonl sent.fromTask.getId)
  let event := UINT32.memory (htonl sent.event)
  let msb := UINT32.memory (htonl (UINT64.uint64s sent.shmIndex).msb)
  let lsb := UINT32.memory (htonl (UINT64.uint64s sent.shmIndex).lsb)
  have idRead : deserializeUINT32FromCharBuf (inbox.store 0 (id ++ (event ++ (msb ++ lsb)))) 0 =
      sent.fromTask.getId := deserializeUINT32FromCharBuf_store inbox [] _ _ 0 rfl
  have msbRead : deserializeUINT32FromCharBuf (inbox.store 0 (id ++ (event ++ (msb ++ lsb)))) 8 =
      (UINT64.uint64s sent.shmIndex).msb := by
    have read := deserializeUINT32FromCharBuf_store inbox (id ++ event) lsb
      (UINT64.uint64s sent.shmIndex).msb 8
      (by simp only [id, event, List.length_append, UINT32.length_memory])
    rwa [List.append_assoc, List.append_assoc] at read
  have lsbRead : deserializeUINT32FromCharBuf (inbox.store 0 (id ++ (event ++ (msb ++ lsb)))) 12 =
      (UINT64.uint64s sent.shmIndex).lsb := by
    have read := deserializeUINT32FromCharBuf_store inbox (id ++ (event ++ msb)) []
      (UINT64.uint64s sent.shmIndex).lsb 12
      (by simp only [id, event, msb, List.length_append, UINT32.length_memory])
    rwa [List.append_nil, List.append_assoc, List.append_assoc] at read
  have whole : sent.message outbox = id ++ (event ++ (msb ++ lsb)) := message_eq sent outbox
  unfold deserializeFromCharBuf deserializeUINT64FromCharBuf
  rw [whole, idRead, msbRead, lsbRead, TaskId.ofId_getId]
  simp only [Option.bind_eq_bind, Option.bind_some]
  exact congrArg (fun shmIndex => some { sent with event := object.event, shmIndex := shmIndex })
    (UINT64.uint64_uint64s sent.shmIndex)

/-- One task on the way of a relayed message: the object it decodes into, with the
members it has before, and the buffers it receives in and sends from. -/
structure Hop where
  object : PosixMessageQueueObject
  inbox : Buffer
  outbox : Buffer

/-- Pass a message on: what each hop decoded, and what it sent on. -/
def relay : List UInt8 → List Hop → Option (List (PosixMessageQueueObject × List UInt8))
  | _, [] => some []
  | bytes, hop :: hops => do
      let received ← hop.object.deserializeFromCharBuf (hop.inbox.store 0 bytes)
      let passed ← relay (received.message hop.outbox) hops
      some ((received, received.message hop.outbox) :: passed)

/-- What a hop decodes and sends on. -/
def Hop.received (hop : Hop) (sent : PosixMessageQueueObject) : PosixMessageQueueObject :=
  { sent with event := hop.object.event }

private theorem relay_cons (sent : PosixMessageQueueObject) (outbox : Buffer) (hop : Hop)
    (hops : List Hop) :
    relay (sent.message outbox) (hop :: hops) =
      (relay ((hop.received sent).message hop.outbox) hops).map
        ((hop.received sent, (hop.received sent).message hop.outbox) :: ·) := by
  rw [relay, deserializeFromCharBuf_message, Option.bind_eq_bind, Option.bind_some,
    Option.map_eq_bind]
  rfl

/-- A relayed message is decoded and sent on unchanged by every hop exactly when
each hop's object holds the message's event already. -/
theorem relay_unchanged_iff (sent : PosixMessageQueueObject) (outbox : Buffer) (hops : List Hop) :
    (∃ passed, relay (sent.message outbox) hops = some passed ∧
      ∀ hop ∈ passed, hop.1 = sent ∧ hop.2 = sent.message outbox) ↔
      ∀ hop ∈ hops, hop.object.event = sent.event := by
  induction hops generalizing outbox with
  | nil =>
      refine iff_of_true ⟨[], rfl, fun hop member => ?_⟩ fun hop member => ?_
      · cases member
      · cases member
  | cons hop hops ih =>
      have sameBytes : sent.message hop.outbox = sent.message outbox := by
        rw [message_eq, message_eq]
      rw [List.forall_mem_cons, relay_cons]
      constructor
      · rintro ⟨passed, relayed, unchanged⟩
        obtain ⟨rest, passedOn, rfl⟩ := Option.map_eq_some_iff.mp relayed
        obtain ⟨⟨unchangedHere, _⟩, unchangedRest⟩ := List.forall_mem_cons.mp unchanged
        have same : hop.received sent = sent := unchangedHere
        have here : (hop.received sent).event = sent.event := by rw [same]
        rw [same] at passedOn
        rw [← sameBytes] at unchangedRest
        exact ⟨here, (ih hop.outbox).mp ⟨rest, passedOn, unchangedRest⟩⟩
      · rintro ⟨here, later⟩
        have same : hop.received sent = sent := by
          unfold Hop.received
          rw [here]
        obtain ⟨rest, passedOn, unchanged⟩ := (ih hop.outbox).mpr later
        rw [sameBytes] at unchanged
        refine ⟨_, Option.map_eq_some_iff.mpr ⟨rest, by rw [same]; exact passedOn, rfl⟩, ?_⟩
        rw [same]
        exact List.forall_mem_cons.mpr ⟨⟨rfl, sameBytes⟩, unchanged⟩

/-- Sent with event 7 to an object that holds event 0, a message arrives with event 0. -/
theorem message_loses_event :
    let sent : PosixMessageQueueObject := ⟨.TimerTask, 7, 3⟩
    let object : PosixMessageQueueObject := ⟨.Test, 0, 0⟩
    let buffer : Buffer := fun _ => 0
    object.deserializeFromCharBuf (buffer.store 0 (sent.message buffer)) =
        some ⟨.TimerTask, 0, 3⟩ ∧
      some ⟨.TimerTask, 0, 3⟩ ≠ some sent := by
  decide

/-- The message about an object of a pool carries the index of its slot and leads its
receiver to the object, in a pool whose layout `UINT32` sizes can describe. The slots lie one
behind the other after the management area. -/
theorem message_resolves (pShm : UInt64) (objectSize maxNumberOfObjects : UInt32)
    (sized : 1 ≤ objectSize.toNat)
    (fits : 4 + 8 + 8 * maxNumberOfObjects.toNat +
      maxNumberOfObjects.toNat * objectSize.toNat < 2 ^ 32)
    (index : Nat) (bound : index < maxNumberOfObjects.toNat) (fromTask : TaskId) (event : UInt32)
    (object : PosixMessageQueueObject) (outbox inbox : Buffer) :
    let pool := MemoryPool.create pShm objectSize maxNumberOfObjects
    let address := pShm + UInt64.ofNat
      (4 + 8 + 8 * maxNumberOfObjects.toNat + index * objectSize.toNat)
    let sent : PosixMessageQueueObject :=
      ⟨fromTask, event, pool.getIndexFromMemoryLocation address⟩
    pool.getMemoryLocationFromIndex (UInt64.ofNat index) = address ∧
      ∃ received, object.deserializeFromCharBuf (inbox.store 0 (sent.message outbox)) =
          some received ∧
        received.shmIndex = UInt64.ofNat index ∧
        pool.getMemoryLocationFromIndex received.shmIndex = address ∧
        received.fromTask = fromTask := by
  intro pool address sent
  have managed : pool.sizeOfSharedManagementArea.toNat = 4 + 8 + 8 * maxNumberOfObjects.toNat :=
    UInt32.toNat_ofNat_of_lt' (Nat.lt_of_le_of_lt (Nat.le_add_right _ _) fits)
  have addressable : pool.Addressable := by
    refine ⟨?_⟩
    change _ + maxNumberOfObjects.toNat * objectSize.toNat ≤ 2 ^ 63
    omega
  have count := maxNumberOfObjects.toNat_lt
  have named : (UInt64.ofNat index).toNat = index := UINT64.toNat_ofNat (by omega)
  have located : pool.getMemoryLocationFromIndex (UInt64.ofNat index) = address :=
    MemoryPool.getMemoryLocationFromIndex_eq managed index
  have recovered : pool.getIndexFromMemoryLocation address = UInt64.ofNat index := by
    rw [← located]
    exact addressable.getIndexFromMemoryLocation_eq sized (named.symm ▸ bound)
  refine ⟨located, _, deserializeFromCharBuf_message object sent outbox inbox, recovered, ?_, rfl⟩
  exact (congrArg pool.getMemoryLocationFromIndex recovered).trans located

/-- The message of the last timer names the last slot of the pool. -/
theorem message_resolves_last :
    let pool := MemoryPool.create 4096 56 1024
    let address := 4096 + UInt64.ofNat
      (4 + 8 + 8 * (1024 : UInt32).toNat + 1023 * (56 : UInt32).toNat)
    let sent : PosixMessageQueueObject := ⟨.TimerTask, 0, pool.getIndexFromMemoryLocation address⟩
    pool.getMemoryLocationFromIndex (UInt64.ofNat 1023) = address ∧
      ∃ received, deserializeFromCharBuf ⟨.Test, 9, 9⟩
            (Buffer.store (fun _ => 0) 0 (sent.message fun _ => 0)) = some received ∧
        received.shmIndex = UInt64.ofNat 1023 ∧
        pool.getMemoryLocationFromIndex received.shmIndex = address ∧
        received.fromTask = .TimerTask :=
  message_resolves 4096 56 1024 (by decide) (by decide) 1023 (by decide) .TimerTask 0
    ⟨.Test, 9, 9⟩ (fun _ => 0) (fun _ => 0)

end PosixMessageQueueObject

end TimerAndCallback
