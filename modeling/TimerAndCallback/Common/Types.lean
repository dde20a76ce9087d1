import Mathlib

/-! # Common types

The scalar types keep their widths: `UINT32` is `UInt32` and `UINT64` is
`UInt64`, whose arithmetic wraps as the source's does. The two 32-bit halves of
the 64-bit unions are only used by the codecs; the host is little-endian, so that
the first half in memory holds the low bits. Of the floating point types only the
bits are used.
-/

namespace TimerAndCallback

/-- `Result`, the return codes. -/
inductive Result
  | OK
  | WARNING
  | ERROR
  | SEVERE
  | FATAL
  | NOT_UNIQUE
  | BUFFER_PROBLEMS
  | INVALID
  deriving DecidableEq, Repr

/-- `uint64LT`. -/
def uint64LT (value1 value2 : UInt64) : Bool := decide (value1 < value2)

/-- `uint64LEQ`. -/
def uint64LEQ (value1 value2 : UInt64) : Bool := decide (value1 ≤ value2)

/-- `uint64LT` compares the numbers. -/
@[simp] theorem uint64LT_iff {value1 value2 : UInt64} :
    uint64LT value1 value2 = true ↔ value1.toNat < value2.toNat := by
  unfold uint64LT
  rw [decide_eq_true_eq, UInt64.lt_iff_toNat_lt]

/-- `uint64LEQ` compares the numbers. -/
@[simp] theorem uint64LEQ_iff {value1 value2 : UInt64} :
    uint64LEQ value1 value2 = true ↔ value1.toNat ≤ value2.toNat := by
  unfold uint64LEQ
  rw [decide_eq_true_eq, UInt64.le_iff_toNat_le]

/-- A number below 2^64 fits 64 bits. -/
theorem UINT64.toNat_ofNat {value : Nat} (bound : value < 2 ^ 64) :
    (UInt64.ofNat value).toNat = value :=
  UInt64.toNat_ofNat_of_lt' bound

/-- `__Unsigned64`, the halves of `UINT64`. -/
structure Unsigned64 where
  lsb : UInt32
  msb : UInt32

/-- `uint64s` of the union. -/
def UINT64.uint64s (value : UInt64) : Unsigned64 :=
  ⟨UInt32.ofNat value.toNat, UInt32.ofNat (value.toNat / 2 ^ 32)⟩

/-- `uint64` of the union. -/
def Unsigned64.uint64 (halves : Unsigned64) : UInt64 :=
  UInt64.ofNat (halves.lsb.toNat + 2 ^ 32 * halves.msb.toNat)

/-- The two halves make up the value. -/
@[simp] theorem UINT64.uint64_uint64s (value : UInt64) : (UINT64.uint64s value).uint64 = value := by
  apply UInt64.toNat_inj.mp
  have bound := value.toNat_lt
  simp only [uint64s, Unsigned64.uint64, UInt32.toNat_ofNat', UInt64.toNat_ofNat']
  omega

/-- `__Integer64`, the halves of `SINT64`. -/
structure Integer64 where
  lsb : UInt32
  msb : Int32

/-- `int64s` of the union. -/
def SINT64.int64s (value : Int64) : Integer64 :=
  ⟨(UINT64.uint64s value.toUInt64).lsb, (UINT64.uint64s value.toUInt64).msb.toInt32⟩

/-- `int64` of the union. -/
def Integer64.int64 (halves : Integer64) : Int64 :=
  (Unsigned64.uint64 ⟨halves.lsb, halves.msb.toUInt32⟩).toInt64

/-- The two halves make up the value. -/
@[simp] theorem SINT64.int64_int64s (value : Int64) : (SINT64.int64s value).int64 = value := by
  have whole := UINT64.uint64_uint64s value.toUInt64
  unfold Integer64.int64 int64s
  rw [UInt32.toUInt32_toInt32]
  change (UINT64.uint64s value.toUInt64).uint64.toInt64 = value
  rw [whole, Int64.toInt64_toUInt64]

/-- A `FLT32`, by its bits. -/
structure FLT32 where
  bits : UInt32
  deriving DecidableEq, Repr

/-- A `UINT32` assigned to a `FLT32`, which converts the number. -/
def FLT32.ofUINT32 (value : UInt32) : FLT32 := ⟨value.toFloat32.toBits⟩

/-- `__Float64`, the halves of `FLT64`. -/
structure Float64 where
  lsb : FLT32
  msb : FLT32
  deriving DecidableEq, Repr

/-- `MAX_NUMBER_OF_TIMERS`. -/
abbrev MAX_NUMBER_OF_TIMERS : Nat := 1024

/-- `TaskId::Id`, the registered tasks; each has its own message queue. -/
inductive TaskId
  | Test
  | ApplicationBaseTask
  | TimerTask
  deriving DecidableEq, Repr

end TimerAndCallback
