import TimerAndCallback.Common.Types
import TimerAndCallback.Foundation.FreeList

/-! # The memory pool

A pool is one shared mapping: a management area with the count, the first free
index and the free list, and after it the object slots. `MemoryPool` holds what
each process keeps for itself, and `SharedManagementArea` what the mapping holds.

The count lies at offset 0, `*pFirstFree` at 4 and `pFreeList` at 12, so all words
of 64 bits that the pool reads and writes lie at offsets `4 + 8 * word`. An
operation answers `none` where it accesses a word outside the mapping or divides
by an object size of zero.
-/

namespace TimerAndCallback

/-- The process-private attributes of `MemoryPool` that its operations read. -/
structure MemoryPool where
  /-- Where this process maps the pool. -/
  pShm : UInt64
  sizeOfSharedManagementArea : UInt32
  totalSize : UInt32
  objectSize : UInt32
  maxNumberOfObjects : UInt32

/-- What the mapping holds: `*pNumberAllocated` and the words behind it. The words past
the free list, which the list's array type does not bound, are words of the slots. -/
structure SharedManagementArea where
  numberAllocated : UInt32
  words : Nat → UInt64

namespace SharedManagementArea

/-- A new mapping. -/
def zeroFilled : SharedManagementArea := ⟨0, fun _ => 0⟩

/-- `pFirstFree->uint64`. -/
def firstFree (area : SharedManagementArea) : UInt64 := area.words 0

/-- `pFreeList[index].uint64`. -/
def freeList (area : SharedManagementArea) (index : Nat) : UInt64 := area.words (index + 1)

end SharedManagementArea

namespace MemoryPool

open SharedManagementArea

/-- The sizes `MemoryPool::MemoryPool` computes. They are computed from `size_t`
operands and stored in `UINT32`; the product of the two arguments is `UINT32`. -/
def create (pShm : UInt64) (objectSize maxNumberOfObjects : UInt32) : MemoryPool :=
  let sizeOfSharedManagementArea := UInt32.ofNat (4 + 8 + 8 * maxNumberOfObjects.toNat)
  { pShm := pShm
    sizeOfSharedManagementArea := sizeOfSharedManagementArea
    totalSize := sizeOfSharedManagementArea + maxNumberOfObjects * objectSize
    objectSize := objectSize
    maxNumberOfObjects := maxNumberOfObjects }

/-- The bytes a process can access. `mmap` maps whole pages, and nothing for a size of 0. -/
def mappedBytes (pool : MemoryPool) : Nat := (pool.totalSize.toNat + 4095) / 4096 * 4096

/-- Read a word of the mapping. Where it is mapped, so is the count before it. -/
def load (pool : MemoryPool) (area : SharedManagementArea) (word : Nat) : Option UInt64 :=
  if 4 + 8 * (word + 1) ≤ pool.mappedBytes then some (area.words word) else none

/-- Write a word of the mapping. -/
def store (pool : MemoryPool) (area : SharedManagementArea) (word : Nat) (value : UInt64) :
    Option SharedManagementArea :=
  if 4 + 8 * (word + 1) ≤ pool.mappedBytes then
    some { area with words := Function.update area.words word value }
  else
    none

/-- The word that `pFreeList [index]` is. Pointer arithmetic wraps at 64 bits: the index
`2 ^ 64 - 1` names `*pFirstFree`, and the word of `2 ^ 64 - 2`, which overlaps the count,
begins before the mapping. -/
def freeListWord (index : UInt64) : Nat := ((index + 1) * 8).toNat / 8

/-- The loop that sets the free list up, from `index` on. -/
def linkFrom (pool : MemoryPool) (index : Nat) :
    Nat → SharedManagementArea → Option SharedManagementArea
  | 0, area => some area
  | remaining + 1, area => do
      let area ← pool.store area (index + 1) (UInt64.ofNat (index + 1))
      pool.linkFrom (index + 1) remaining area

/-- What `MemoryPool::MemoryPool` does to the mapping in the exclusive creator. -/
def createArea (pool : MemoryPool) (memory : SharedManagementArea) :
    Option SharedManagementArea := do
  let area ← pool.store { memory with numberAllocated := 0 } 0 0
  pool.linkFrom 0 pool.maxNumberOfObjects.toNat area

/-- `getMemoryLocationFromIndex`. -/
def getMemoryLocationFromIndex (pool : MemoryPool) (index : UInt64) : UInt64 :=
  pool.pShm + pool.sizeOfSharedManagementArea.toUInt64 + index * pool.objectSize.toUInt64

/-- `getIndexFromMemoryLocation`, where an object has a size. The pointer difference is
signed, and the sizes are promoted to its type, so the division truncates towards zero. -/
def getIndexFromMemoryLocation (pool : MemoryPool) (location : UInt64) : UInt64 :=
  UInt64.ofInt
    (((location - pool.pShm).toInt64.toInt - pool.sizeOfSharedManagementArea.toNat).tdiv
      pool.objectSize.toNat)

/-- `getFromPool`: the object handed out, `none` for `NULL`. The next index is read before
the pool is known to have a free slot, and the index of the object is computed for the
trace. -/
def getFromPool (pool : MemoryPool) (area : SharedManagementArea) :
    Option (Option UInt64 × SharedManagementArea) := do
  let index ← pool.load area 0
  let next ← pool.load area (freeListWord index)
  if area.numberAllocated = pool.maxNumberOfObjects then
    some (none, area)
  else if pool.objectSize = 0 then
    none
  else do
    let area ← pool.store area 0 next
    some (some (pool.getMemoryLocationFromIndex index),
      { area with numberAllocated := area.numberAllocated + 1 })

/-- `removeFromPool`. -/
def removeFromPool (pool : MemoryPool) (area : SharedManagementArea) (object : UInt64) :
    Option SharedManagementArea :=
  if pool.objectSize = 0 ∨ pool.mappedBytes < 4 then
    none
  else if area.numberAllocated = 0 then
    some area
  else do
    let index := pool.getIndexFromMemoryLocation object
    let firstFree ← pool.load area 0
    let area ← pool.store area (freeListWord index) firstFree
    let area ← pool.store area 0 index
    some { area with numberAllocated := area.numberAllocated - 1 }

/-- The object that `getFromPool` hands out, if it returns one. -/
def handedOut (pool : MemoryPool) (area : SharedManagementArea) : Option UInt64 :=
  (pool.getFromPool area).bind Prod.fst

/-- The pool lies within the range of a pointer difference, as one mapping does. -/
structure Addressable (pool : MemoryPool) : Prop where
  spans : pool.sizeOfSharedManagementArea.toNat +
    pool.maxNumberOfObjects.toNat * pool.objectSize.toNat ≤ 2 ^ 63

/-- An object has a size, and the free list is mapped up to the word behind it that a full
pool reads. -/
structure Serviceable (pool : MemoryPool) : Prop extends Addressable pool where
  sized : 0 < pool.maxNumberOfObjects.toNat → 0 < pool.objectSize.toNat
  loads : 4 + 8 * (pool.maxNumberOfObjects.toNat + 2) ≤ pool.mappedBytes

end MemoryPool

end TimerAndCallback
