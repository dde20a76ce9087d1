import TimerAndCallback.Common.Util

/-! # Sequences of integers on a stream

Every codec of an integer transfers it: the deserializer takes off exactly the
bytes the serializer appended. A sequence of items of any kinds is transferred
item by item. The codecs over character buffers copy the bytes that the codecs
over streams write.
-/

namespace TimerAndCallback

open ByteStream

private theorem serializePadding_transfers (padLen : UInt32) :
    Transfers (serializePadding padLen) (deserializePadding padLen) () :=
  ⟨List.replicate padLen.toNat 0, fun _ => rfl,
    (delivers_take (List.length_replicate ..)).map fun _ => ()⟩

private theorem serializeUINT32_transfers (value : UInt32) :
    Transfers (serializeUINT32 value) deserializeUINT32 value := by
  refine ⟨UINT32.memory (htonl value), fun _ => rfl, ?_⟩
  have read := (delivers_take (UINT32.length_memory (htonl value))).map fun buffer =>
    ntohl (UINT32.ofMemory buffer)
  rw [UINT32.ofMemory_memory, ntohl_htonl] at read
  exact read

private theorem serializeSINT32_transfers (value : Int32) :
    Transfers (serializeSINT32 value) deserializeSINT32 value := by
  refine ⟨UINT32.memory (htonl value.toUInt32), fun _ => rfl, ?_⟩
  have read := (delivers_take (UINT32.length_memory (htonl value.toUInt32))).map fun buffer =>
    (ntohl (UINT32.ofMemory buffer).toInt32.toUInt32).toInt32
  rw [UINT32.ofMemory_memory, UInt32.toUInt32_toInt32, ntohl_htonl, Int32.toInt32_toUInt32] at read
  exact read

private theorem serializeUINT64_transfers (value : UInt64) :
    Transfers (serializeUINT64 value) deserializeUINT64 value := by
  have low := (serializeUINT32_transfers (UINT64.uint64s value).lsb).map fun lsb =>
    Unsigned64.uint64 ⟨lsb, (UINT64.uint64s value).msb⟩
  rw [UINT64.uint64_uint64s] at low
  let readLow : UInt32 → Reader UInt64 := fun msb =>
    deserializeUINT32 >>= fun lsb => pure (Unsigned64.uint64 ⟨lsb, msb⟩)
  change Transfers (serializeUINT32 _ ∘ serializeUINT32 _) (deserializeUINT32 >>= readLow) value
  exact (serializeUINT32_transfers (UINT64.uint64s value).msb).bind low

private theorem serializeSINT64_transfers (value : Int64) :
    Transfers (serializeSINT64 value) deserializeSINT64 value := by
  have low := (serializeUINT32_transfers (SINT64.int64s value).lsb).map fun lsb =>
    Integer64.int64 ⟨lsb, (SINT64.int64s value).msb⟩
  rw [SINT64.int64_int64s] at low
  let readLow : Int32 → Reader Int64 := fun msb =>
    deserializeUINT32 >>= fun lsb => pure (Integer64.int64 ⟨lsb, msb⟩)
  change Transfers (serializeUINT32 _ ∘ serializeSINT32 _) (deserializeSINT32 >>= readLow) value
  exact (serializeSINT32_transfers (SINT64.int64s value).msb).bind low

private theorem serialize3ByteUnsignedChar_transfers (threeByteInteger : Vector UInt8 3) :
    Transfers (serialize3ByteUnsignedChar threeByteInteger) deserializeTo3ByteUnsignedChar
      threeByteInteger := by
  let buffer := [threeByteInteger[2], threeByteInteger[1], threeByteInteger[0]]
  have length : buffer.length = 3 := rfl
  have read := (delivers_take length).map fun buffer =>
    #v[buffer.getD 2 0, buffer.getD 1 0, buffer.getD 0 0]
  have same : #v[buffer.getD 2 0, buffer.getD 1 0, buffer.getD 0 0] = threeByteInteger := by
    refine Vector.ext fun index bound => ?_
    rcases index with _ | _ | _ | index
    · rfl
    · rfl
    · rfl
    · omega
  rw [same] at read
  exact ⟨buffer, fun _ => rfl, read⟩

private theorem serializeUINT8_transfers (value : UInt8) :
    Transfers (serializeUINT8 value) deserializeUINT8 value := by
  have length : [value].length = 1 := rfl
  exact ⟨[value], fun _ => rfl, (delivers_take length).map fun buffer => buffer.getD 0 0⟩

/-- Splitting keeps the low 24 bits. -/
theorem unsplit3ByteUINT8ArrayToUINT32_split (value : UInt32) :
    unsplit3ByteUINT8ArrayToUINT32 (splitUINT32To3ByteUINT8Array value) =
      value &&& 0x00FFFFFF := by
  apply UInt32.toBitVec_inj.mp
  have split : (unsplit3ByteUINT8ArrayToUINT32 (splitUINT32To3ByteUINT8Array value)).toBitVec =
      (((value.toBitVec &&& (0xFF#32 <<< 16)) >>> 16).setWidth 8).setWidth 32 <<< 16 |||
        (((value.toBitVec &&& (0xFF#32 <<< 8)) >>> 8).setWidth 8).setWidth 32 <<< 8 |||
          ((value.toBitVec &&& 0xFF#32).setWidth 8).setWidth 32 := by
    change (((value &&& 0x00FF0000) >>> 16).toUInt8.toUInt32 <<< 16 |||
      ((value &&& 0x0000FF00) >>> 8).toUInt8.toUInt32 <<< 8 |||
        (value &&& 0x000000FF).toUInt8.toUInt32).toBitVec = _
    simp only [UInt32.toBitVec_or, UInt32.toBitVec_shiftLeft, UInt32.toBitVec_and,
      UInt8.toBitVec_toUInt32, UInt32.toBitVec_toUInt8, UInt32.toBitVec_shiftRight,
      BitVec.shiftLeft_eq', BitVec.ushiftRight_eq']
    rfl
  have lowest := byte_restored value.toBitVec 0
  rw [BitVec.shiftLeft_zero, BitVec.shiftLeft_zero, BitVec.ushiftRight_zero] at lowest
  rw [split, byte_restored, byte_restored, lowest, ← BitVec.and_or_distrib_left,
    ← BitVec.and_or_distrib_left]
  rfl

/-- One call of a serializer. A 24-bit value is split into three bytes first. -/
inductive Item
  | uint8 (value : UInt8)
  | uint24 (value : UInt32)
  | uint32 (value : UInt32)
  | sint32 (value : Int32)
  | uint64 (value : UInt64)
  | sint64 (value : Int64)
  | padding (padLen : UInt32)
  deriving DecidableEq, Repr

/-- What the reader of an item has to know. -/
inductive ItemKind
  | uint8
  | uint24
  | uint32
  | sint32
  | uint64
  | sint64
  | padding (padLen : UInt32)

namespace Item

def kind : Item → ItemKind
  | uint8 _ => .uint8
  | uint24 _ => .uint24
  | uint32 _ => .uint32
  | sint32 _ => .sint32
  | uint64 _ => .uint64
  | sint64 _ => .sint64
  | padding padLen => .padding padLen

/-- Write an item with its serializer. -/
def serialize : Item → OutputStream → OutputStream
  | uint8 value => serializeUINT8 value
  | uint24 value => serialize3ByteUnsignedChar (splitUINT32To3ByteUINT8Array value)
  | uint32 value => serializeUINT32 value
  | sint32 value => serializeSINT32 value
  | uint64 value => serializeUINT64 value
  | sint64 value => serializeSINT64 value
  | padding padLen => serializePadding padLen

/-- The item as it comes back: a 24-bit value loses its high byte. -/
def received : Item → Item
  | uint24 value => uint24 (value &&& 0x00FFFFFF)
  | item => item

end Item

/-- Read an item of a kind with its deserializer. -/
def ItemKind.deserialize : ItemKind → Reader Item
  | uint8 => deserializeUINT8 >>= fun value => pure (.uint8 value)
  | uint24 => deserializeTo3ByteUnsignedChar >>= fun bytes =>
      pure (.uint24 (unsplit3ByteUINT8ArrayToUINT32 bytes))
  | uint32 => deserializeUINT32 >>= fun value => pure (.uint32 value)
  | sint32 => deserializeSINT32 >>= fun value => pure (.sint32 value)
  | uint64 => deserializeUINT64 >>= fun value => pure (.uint64 value)
  | sint64 => deserializeSINT64 >>= fun value => pure (.sint64 value)
  | padding padLen => deserializePadding padLen >>= fun _ => pure (.padding padLen)

/-- Write items in order. -/
def serializeItems (items : List Item) (os : OutputStream) : OutputStream :=
  items.foldl (fun written item => item.serialize written) os

/-- Read items of these kinds in order. -/
def deserializeItems (kinds : List ItemKind) : Reader (List Item) := kinds.mapM ItemKind.deserialize

/-- Each kind of item is read back as it was written. -/
theorem Item.serialize_transfers (item : Item) :
    Transfers item.serialize item.kind.deserialize item.received := by
  cases item with
  | uint8 value => exact (serializeUINT8_transfers value).map Item.uint8
  | uint24 value =>
      have bytes := (serialize3ByteUnsignedChar_transfers
        (splitUINT32To3ByteUINT8Array value)).map fun bytes =>
          Item.uint24 (unsplit3ByteUINT8ArrayToUINT32 bytes)
      rw [unsplit3ByteUINT8ArrayToUINT32_split] at bytes
      exact bytes
  | uint32 value => exact (serializeUINT32_transfers value).map Item.uint32
  | sint32 value => exact (serializeSINT32_transfers value).map Item.sint32
  | uint64 value => exact (serializeUINT64_transfers value).map Item.uint64
  | sint64 value => exact (serializeSINT64_transfers value).map Item.sint64
  | padding padLen => exact (serializePadding_transfers padLen).map fun _ => Item.padding padLen

section CharBuf

/-- The buffer gets the bytes that the stream would. -/
theorem serializeUINT32ToCharBuf_eq (value : UInt32) (buf : Buffer) (offset : Nat) :
    serializeUINT32ToCharBuf value buf offset = buf.store offset (serializeUINT32 value []) := rfl

/-- Writing into a buffer stores the bytes that writing to a stream appends. -/
theorem serializeUINT64ToCharBuf_eq (value : UInt64) (buf : Buffer) (offset : Nat) :
    serializeUINT64ToCharBuf value buf offset = buf.store offset (serializeUINT64 value []) :=
  Buffer.store_store buf (UINT32.memory (htonl (UINT64.uint64s value).msb))
    (UINT32.memory (htonl (UINT64.uint64s value).lsb)) rfl

end CharBuf

/-- Whatever items are written one after another, reading items of their kinds
answers them, takes off exactly what was written, and leaves what follows; and a
character buffer gets the same bytes, at any offset. -/
theorem deserializeItems_serializeItems :
    (∀ items : List Item, ∃ bytes, (∀ os, serializeItems items os = os ++ bytes) ∧
      ∀ following, (deserializeItems (items.map Item.kind)).run (bytes ++ following) =
        some (items.map Item.received, following)) ∧
    (∀ (value : UInt32) (buf : Buffer) (offset : Nat),
      serializeUINT32ToCharBuf value buf offset = buf.store offset (serializeUINT32 value [])) ∧
    ∀ (value : UInt64) (buf : Buffer) (offset : Nat),
      serializeUINT64ToCharBuf value buf offset = buf.store offset (serializeUINT64 value []) :=
  ⟨transfers_list Item.serialize_transfers, serializeUINT32ToCharBuf_eq,
    serializeUINT64ToCharBuf_eq⟩

example : serializeItems [.uint24 0x01020304, .sint32 (-2), .uint64 0x0102030405060708] [] =
    [4, 3, 2, 255, 255, 255, 254, 1, 2, 3, 4, 5, 6, 7, 8] := by decide

end TimerAndCallback
