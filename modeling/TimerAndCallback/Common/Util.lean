import TimerAndCallback.Common.Types
import TimerAndCallback.Foundation.ByteStream

/-! # Codecs

The functions that write values to streams or character buffers and read them
back. Words go out in network order, through `htonl` and the bytes of its result
in memory; three-byte values go out low byte first. The characters of a string go
out through a C string.
-/

namespace TimerAndCallback

open ByteStream

/-- The bytes of a `BasicString`. -/
abbrev BasicString := List UInt8

/-- The bytes written to an `OutputStream` so far. -/
abbrev OutputStream := List UInt8

/-- `os.write (buffer, length)`, of the whole buffer. -/
def OutputStream.write (os : OutputStream) (buffer : List UInt8) : OutputStream := os ++ buffer

/-- The bytes of a `UINT32` in memory. -/
def UINT32.memory (value : UInt32) : List UInt8 := littleEndian 4 value.toNat

/-- The `UINT32` that four bytes of memory hold. -/
def UINT32.ofMemory (bytes : List UInt8) : UInt32 := UInt32.ofNat (ofLittleEndian bytes)

@[simp] theorem UINT32.length_memory (value : UInt32) : (UINT32.memory value).length = 4 :=
  length_littleEndian _ _

/-- The bytes of a word make up the word. -/
@[simp] theorem UINT32.ofMemory_memory (value : UInt32) :
    UINT32.ofMemory (UINT32.memory value) = value := by
  apply UInt32.toNat_inj.mp
  have bound := value.toNat_lt
  unfold ofMemory memory
  rw [ofLittleEndian_littleEndian, UInt32.toNat_ofNat']
  omega

/-- Four bytes are the bytes of their word. -/
theorem UINT32.memory_ofMemory {bytes : List UInt8} (length : bytes.length = 4) :
    UINT32.memory (UINT32.ofMemory bytes) = bytes := by
  have bound := ofLittleEndian_lt bytes
  rw [length] at bound
  unfold ofMemory memory
  rw [UInt32.toNat_ofNat', Nat.mod_eq_of_lt (by omega), ← length, littleEndian_ofLittleEndian]

/-- `htonl`: the four bytes in memory are swapped. -/
def htonl (hostlong : UInt32) : UInt32 := UINT32.ofMemory (UINT32.memory hostlong).reverse

/-- `ntohl`. -/
def ntohl (netlong : UInt32) : UInt32 := UINT32.ofMemory (UINT32.memory netlong).reverse

/-- Network order and back. -/
@[simp] theorem ntohl_htonl (value : UInt32) : ntohl (htonl value) = value := by
  unfold ntohl htonl
  rw [UINT32.memory_ofMemory (by rw [List.length_reverse, UINT32.length_memory]),
    List.reverse_reverse, UINT32.ofMemory_memory]

section Streams

/-- `serializeString`. `memory` is what the new buffer holds before `strcpy` copies the
string to it up to its first zero; `value.size()` bytes of the buffer are written. -/
def serializeString (memory : Buffer) (value : BasicString) (os : OutputStream) : OutputStream :=
  os.write ((memory.store 0 (cString value ++ [0])).load 0 value.length)

/-- `deserializeString`. The buffer has `datalen + 1` bytes, a `UINT32`: where the sum
wraps it has none, and the bytes read are written past it. -/
def deserializeString (datalen : UInt32) : Reader BasicString :=
  if datalen + 1 = 0 then failure
  else take datalen.toNat >>= fun buffer => pure (cString buffer)

/-- `serializePadding`. -/
def serializePadding (padLen : UInt32) (os : OutputStream) : OutputStream :=
  os.write (List.replicate padLen.toNat 0)

/-- `deserializePadding`. -/
def deserializePadding (padLen : UInt32) : Reader Unit := do
  let _buffer ← take padLen.toNat
  pure ()

/-- `serializeUINT32`. -/
def serializeUINT32 (value : UInt32) (os : OutputStream) : OutputStream :=
  os.write (UINT32.memory (htonl value))

/-- `deserializeUINT32`. -/
def deserializeUINT32 : Reader UInt32 := do
  let buffer ← take 4
  pure (ntohl (UINT32.ofMemory buffer))

/-- `serializeSINT32`, which writes the value as the `uint32_t` in its place. -/
def serializeSINT32 (value : Int32) (os : OutputStream) : OutputStream :=
  os.write (UINT32.memory (htonl value.toUInt32))

/-- `deserializeSINT32`. The bytes are read as an `SINT32`, which `ntohl` converts. -/
def deserializeSINT32 : Reader Int32 := do
  let buffer ← take 4
  pure (ntohl (UINT32.ofMemory buffer).toInt32.toUInt32).toInt32

/-- `serializeUINT64`. -/
def serializeUINT64 (value : UInt64) (os : OutputStream) : OutputStream :=
  serializeUINT32 (UINT64.uint64s value).lsb (serializeUINT32 (UINT64.uint64s value).msb os)

/-- `deserializeUINT64`. -/
def deserializeUINT64 : Reader UInt64 := do
  let msb ← deserializeUINT32
  let lsb ← deserializeUINT32
  pure (Unsigned64.uint64 ⟨lsb, msb⟩)

/-- `serializeSINT64`. -/
def serializeSINT64 (value : Int64) (os : OutputStream) : OutputStream :=
  serializeUINT32 (SINT64.int64s value).lsb (serializeSINT32 (SINT64.int64s value).msb os)

/-- `deserializeSINT64`. -/
def deserializeSINT64 : Reader Int64 := do
  let msb ← deserializeSINT32
  let lsb ← deserializeUINT32
  pure (Integer64.int64 ⟨lsb, msb⟩)

/-- `serializeFLT32`, which writes the value as the `uint32_t` in its place. -/
def serializeFLT32 (value : FLT32) (os : OutputStream) : OutputStream :=
  os.write (UINT32.memory (htonl value.bits))

/-- `deserializeFLT32`. The bytes are read as a `UINT32`, and what `ntohl` makes of it
is assigned to the value. -/
def deserializeFLT32 : Reader FLT32 := do
  let buffer ← take 4
  pure (FLT32.ofUINT32 (ntohl (UINT32.ofMemory buffer)))

/-- `serializeFLT64`, of the two halves. -/
def serializeFLT64 (value : Float64) (os : OutputStream) : OutputStream :=
  serializeFLT32 value.lsb (serializeFLT32 value.msb os)

/-- `deserializeFLT64`. -/
def deserializeFLT64 : Reader Float64 := do
  let msb ← deserializeFLT32
  let lsb ← deserializeFLT32
  pure ⟨lsb, msb⟩

/-- `serialize3ByteUnsignedChar`. -/
def serialize3ByteUnsignedChar (threeByteInteger : Vector UInt8 3) (os : OutputStream) :
    OutputStream :=
  os.write [threeByteInteger[2], threeByteInteger[1], threeByteInteger[0]]

/-- `deserializeTo3ByteUnsignedChar`. -/
def deserializeTo3ByteUnsignedChar : Reader (Vector UInt8 3) := do
  let buffer ← take 3
  pure #v[buffer.getD 2 0, buffer.getD 1 0, buffer.getD 0 0]

/-- `serializeUINT8`. -/
def serializeUINT8 (value : UInt8) (os : OutputStream) : OutputStream :=
  os.write [value]

/-- `deserializeUINT8`. -/
def deserializeUINT8 : Reader UInt8 := do
  let buffer ← take 1
  pure (buffer.getD 0 0)

end Streams

/-- `splitUINT32To3ByteUINT8Array`. -/
def splitUINT32To3ByteUINT8Array (value : UInt32) : Vector UInt8 3 :=
  #v[((value &&& 0x00FF0000) >>> 16).toUInt8, ((value &&& 0x0000FF00) >>> 8).toUInt8,
    (value &&& 0x000000FF).toUInt8]

/-- `unsplit3ByteUINT8ArrayToUINT32`. -/
def unsplit3ByteUINT8ArrayToUINT32 (bytes : Vector UInt8 3) : UInt32 :=
  (bytes[0].toUInt32 <<< 16) ||| (bytes[1].toUInt32 <<< 8) ||| bytes[2].toUInt32

section CharBuf

/-- `serializeUINT32ToCharBuf`, at an offset of the buffer. -/
def serializeUINT32ToCharBuf (value : UInt32) (buf : Buffer) (offset : Nat) : Buffer :=
  buf.store offset (UINT32.memory (htonl value))

/-- `deserializeUINT32FromCharBuf`. -/
def deserializeUINT32FromCharBuf (buf : Buffer) (offset : Nat) : UInt32 :=
  ntohl (UINT32.ofMemory (buf.load offset 4))

/-- `serializeUINT64ToCharBuf`. -/
def serializeUINT64ToCharBuf (value : UInt64) (buf : Buffer) (offset : Nat) : Buffer :=
  serializeUINT32ToCharBuf (UINT64.uint64s value).lsb
    (serializeUINT32ToCharBuf (UINT64.uint64s value).msb buf offset) (offset + 4)

/-- `deserializeUINT64FromCharBuf`. -/
def deserializeUINT64FromCharBuf (buf : Buffer) (offset : Nat) : UInt64 :=
  Unsigned64.uint64
    ⟨deserializeUINT32FromCharBuf buf (offset + 4), deserializeUINT32FromCharBuf buf offset⟩

end CharBuf

end TimerAndCallback
