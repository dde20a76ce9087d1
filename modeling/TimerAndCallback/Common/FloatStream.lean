import TimerAndCallback.Common.Util
import TimerAndCallback.Foundation.Binary32

/-! # Sequences of floats on a stream

The serializer of a float writes its bits, and the deserializer takes them for a number
to convert. A sequence of floats comes back item by item, converted, and unchanged only
where conversion leaves the bits alone.
-/

namespace TimerAndCallback

open ByteStream

private theorem serializeFLT32_transfers (value : FLT32) :
    Transfers (serializeFLT32 value) deserializeFLT32 (FLT32.ofUINT32 value.bits) := by
  refine ⟨UINT32.memory (htonl value.bits), fun _ => rfl, delivers_take_map_iff.mpr ?_⟩
  rw [UINT32.ofMemory_memory, ntohl_htonl]
  exact ⟨UINT32.length_memory _, rfl⟩

private theorem serializeFLT64_transfers (value : Float64) :
    Transfers (serializeFLT64 value) deserializeFLT64
      ⟨FLT32.ofUINT32 value.lsb.bits, FLT32.ofUINT32 value.msb.bits⟩ := by
  have low := (serializeFLT32_transfers value.lsb).map fun lsb =>
    (⟨lsb, FLT32.ofUINT32 value.msb.bits⟩ : Float64)
  let readLow : FLT32 → Reader Float64 := fun msb =>
    deserializeFLT32 >>= fun lsb => pure ⟨lsb, msb⟩
  change Transfers (serializeFLT32 _ ∘ serializeFLT32 _) (deserializeFLT32 >>= readLow) _
  exact (serializeFLT32_transfers value.msb).bind low

/-- One call of a serializer of floats. -/
inductive FloatItem
  | flt32 (value : FLT32)
  | flt64 (value : Float64)
  deriving DecidableEq, Repr

/-- Which deserializer reads an item. -/
inductive FloatKind
  | flt32
  | flt64

namespace FloatItem

def kind : FloatItem → FloatKind
  | flt32 _ => .flt32
  | flt64 _ => .flt64

/-- The 32-bit patterns of an item, in the order in which they are written. -/
def patterns : FloatItem → List UInt32
  | flt32 value => [value.bits]
  | flt64 value => [value.msb.bits, value.lsb.bits]

/-- Write an item with its serializer. -/
def serialize : FloatItem → OutputStream → OutputStream
  | flt32 value => serializeFLT32 value
  | flt64 value => serializeFLT64 value

/-- The item as it comes back. -/
def received : FloatItem → FloatItem
  | flt32 value => flt32 (FLT32.ofUINT32 value.bits)
  | flt64 value => flt64 ⟨FLT32.ofUINT32 value.lsb.bits, FLT32.ofUINT32 value.msb.bits⟩

end FloatItem

/-- Read an item of a kind with its deserializer. -/
def FloatKind.deserialize : FloatKind → Reader FloatItem
  | flt32 => deserializeFLT32 >>= fun value => pure (.flt32 value)
  | flt64 => deserializeFLT64 >>= fun value => pure (.flt64 value)

/-- Write items in order. -/
def serializeFloats (items : List FloatItem) (os : OutputStream) : OutputStream :=
  items.foldl (fun written item => item.serialize written) os

/-- Read items of these kinds in order. -/
def deserializeFloats (kinds : List FloatKind) : Reader (List FloatItem) :=
  kinds.mapM FloatKind.deserialize

/-- The items are read back with their bits, from exactly the bytes that were written. -/
def FloatsPreserved (items : List FloatItem) : Prop :=
  ∃ bytes, (∀ os, serializeFloats items os = os ++ bytes) ∧
    ∀ following, (deserializeFloats (items.map FloatItem.kind)).run (bytes ++ following) =
      some (items, following)

/-- Each kind of float is read back as its pattern denotes it as an integer. -/
theorem FloatItem.serialize_transfers (item : FloatItem) :
    Transfers item.serialize item.kind.deserialize item.received := by
  cases item with
  | flt32 value => exact (serializeFLT32_transfers value).map FloatItem.flt32
  | flt64 value => exact (serializeFLT64_transfers value).map FloatItem.flt64

/-- A float comes back unchanged when its bits are those of the number they make. -/
theorem FLT32.ofUINT32_bits_iff (value : FLT32) :
    FLT32.ofUINT32 value.bits = value ↔ value.bits = 0 ∨ value.bits = 0x4E9D3A75 := by
  rw [← Binary32.toBits_toFloat32_eq_self_iff]
  cases value
  rw [FLT32.ofUINT32, FLT32.mk.injEq]

/-- A float is preserved when its patterns are fixed points of the conversion. -/
theorem FloatItem.received_eq_iff (item : FloatItem) :
    item.received = item ↔ ∀ pattern ∈ item.patterns, pattern = 0 ∨ pattern = 0x4E9D3A75 := by
  cases item with
  | flt32 value =>
      rw [patterns, List.forall_mem_singleton, ← FLT32.ofUINT32_bits_iff, received,
        flt32.injEq]
  | flt64 value =>
      obtain ⟨lsb, msb⟩ := value
      rw [patterns, List.forall_mem_cons, List.forall_mem_singleton, ← FLT32.ofUINT32_bits_iff,
        ← FLT32.ofUINT32_bits_iff, received, flt64.injEq, Float64.mk.injEq]
      exact And.comm

/-- A sequence of floats is read back with its bits if and only if each 32-bit pattern in
it is zero or `0x4E9D3A75`. -/
theorem floatsPreserved_iff (items : List FloatItem) :
    FloatsPreserved items ↔
      ∀ item ∈ items, ∀ pattern ∈ item.patterns, pattern = 0 ∨ pattern = 0x4E9D3A75 := by
  have transfers : Transfers (serializeFloats items)
      (deserializeFloats (items.map FloatItem.kind)) (items.map FloatItem.received) :=
    transfers_list FloatItem.serialize_transfers items
  calc
    FloatsPreserved items ↔ items.map FloatItem.received = items.map id := by
      rw [List.map_id]
      exact transfers.iff
    _ ↔ ∀ item ∈ items, item.received = item := List.map_inj_left
    _ ↔ ∀ item ∈ items, ∀ pattern ∈ item.patterns, pattern = 0 ∨ pattern = 0x4E9D3A75 :=
      forall₂_congr fun item _ => item.received_eq_iff

/-- One has the bits of the integer 1065353216, and is read back as that number. -/
theorem one_not_preserved :
    serializeFloats [.flt32 ⟨0x3F800000⟩] [] = [0x3F, 0x80, 0, 0] ∧
      (deserializeFloats [.flt32]).run [0x3F, 0x80, 0, 0] =
        some ([.flt32 ⟨0x4E7E0000⟩], []) ∧
      ¬ FloatsPreserved [.flt32 ⟨0x3F800000⟩] := by
  have written : serializeFloats [.flt32 ⟨0x3F800000⟩] [] = [0x3F, 0x80, 0, 0] := by
    decide +kernel
  have answered : (deserializeFloats [.flt32]).run [0x3F, 0x80, 0, 0] =
      some ([.flt32 ⟨0x4E7E0000⟩], []) := by
    decide +kernel
  refine ⟨written, answered, ?_⟩
  rintro ⟨bytes, appends, delivers⟩
  have same : bytes = [0x3F, 0x80, 0, 0] := (appends []).symm.trans written
  subst same
  exact absurd (answered.symm.trans (delivers [])) (by decide)

end TimerAndCallback
