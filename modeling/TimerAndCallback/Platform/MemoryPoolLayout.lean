import TimerAndCallback.Platform.MemoryPool

/-! # Where the slots of a pool lie

Addresses are computed in 64 bits from sizes that are kept in 32. The addresses of a
slot's bytes are therefore always where the index and the object size put them, but
the sizes, which decide what is mapped, wrap.
-/

namespace TimerAndCallback

namespace MemoryPool

/-- How far an address is from the start of the mapping. -/
def offset (pool : MemoryPool) (location : UInt64) : Nat := (location - pool.pShm).toNat

/-- The addresses of the bytes of a slot. -/
def slotRange (pool : MemoryPool) (index : Nat) : Set UInt64 :=
  {location | ∃ byte < pool.objectSize.toNat,
    location = pool.getMemoryLocationFromIndex (UInt64.ofNat index) + UInt64.ofNat byte}

/-- The slots lie in the mapping behind the count, the first free index and the free
list, they do not overlap, and each of their addresses leads back to its slot. -/
structure SoundLayout (pool : MemoryPool) : Prop where
  managed : ∀ index < pool.maxNumberOfObjects.toNat, ∀ location ∈ pool.slotRange index,
    4 + 8 + 8 * pool.maxNumberOfObjects.toNat ≤ pool.offset location
  mapped : ∀ index < pool.maxNumberOfObjects.toNat, ∀ location ∈ pool.slotRange index,
    pool.offset location < pool.totalSize.toNat
  disjoint : ∀ first < pool.maxNumberOfObjects.toNat,
    ∀ second < pool.maxNumberOfObjects.toNat, first ≠ second →
      Disjoint (pool.slotRange first) (pool.slotRange second)
  indexed : ∀ index < pool.maxNumberOfObjects.toNat, ∀ location ∈ pool.slotRange index,
    pool.getIndexFromMemoryLocation location = UInt64.ofNat index

variable {pool : MemoryPool}

/-- The slots below an index and the bytes below one of its slot take no more than the
slots of the pool together. -/
theorem slot_le {index byte : Nat} (bound : index < pool.maxNumberOfObjects.toNat)
    (inside : byte < pool.objectSize.toNat) :
    index * pool.objectSize.toNat + byte + 1 ≤
      pool.maxNumberOfObjects.toNat * pool.objectSize.toNat := by
  calc
    index * pool.objectSize.toNat + byte + 1 ≤ (index + 1) * pool.objectSize.toNat := by
      rw [Nat.succ_mul]
      omega
    _ ≤ pool.maxNumberOfObjects.toNat * pool.objectSize.toNat := Nat.mul_le_mul_right _ bound

/-- No offset of a slot's byte wraps: two 32-bit factors and two 32-bit summands stay
below 64 bits. -/
theorem offset_slot {index byte : Nat} (bound : index < pool.maxNumberOfObjects.toNat)
    (inside : byte < pool.objectSize.toNat) :
    pool.offset (pool.getMemoryLocationFromIndex (UInt64.ofNat index) + UInt64.ofNat byte) =
      pool.sizeOfSharedManagementArea.toNat + index * pool.objectSize.toNat + byte := by
  have count := pool.maxNumberOfObjects.toNat_lt
  have size := pool.objectSize.toNat_lt
  have managed := pool.sizeOfSharedManagementArea.toNat_lt
  have product : pool.maxNumberOfObjects.toNat * pool.objectSize.toNat ≤
      (2 ^ 32 - 1) * (2 ^ 32 - 1) := Nat.mul_le_mul (by omega) (by omega)
  have fits := slot_le bound inside
  have cancelled : pool.getMemoryLocationFromIndex (UInt64.ofNat index) + UInt64.ofNat byte -
      pool.pShm = pool.sizeOfSharedManagementArea.toUInt64 +
        UInt64.ofNat index * pool.objectSize.toUInt64 + UInt64.ofNat byte := by
    unfold getMemoryLocationFromIndex
    grind
  rw [offset, cancelled, UInt64.toNat_add, UInt64.toNat_add, UInt64.toNat_mul,
    UInt32.toNat_toUInt64, UInt32.toNat_toUInt64, UINT64.toNat_ofNat (by omega),
    UINT64.toNat_ofNat (by omega)]
  omega

/-- Where the management area does not wrap, a slot lies as far behind it as the slots before
it take. -/
theorem getMemoryLocationFromIndex_eq
    (managed : pool.sizeOfSharedManagementArea.toNat = 4 + 8 + 8 * pool.maxNumberOfObjects.toNat)
    (index : Nat) : pool.getMemoryLocationFromIndex (UInt64.ofNat index) =
      pool.pShm + UInt64.ofNat (4 + 8 + 8 * pool.maxNumberOfObjects.toNat +
        index * pool.objectSize.toNat) := by
  have area : pool.sizeOfSharedManagementArea.toUInt64 =
      UInt64.ofNat pool.sizeOfSharedManagementArea.toNat := (UInt64.ofNat_uInt32ToNat _).symm
  have size : pool.objectSize.toUInt64 = UInt64.ofNat pool.objectSize.toNat :=
    (UInt64.ofNat_uInt32ToNat _).symm
  rw [getMemoryLocationFromIndex, area, size, managed, UInt64.ofNat_add _ (index * _),
    UInt64.ofNat_mul, UInt64.add_assoc]

/-- The pointer difference is the offset where the offset is positive as a signed word. -/
theorem getIndexFromMemoryLocation_eq_div {location : UInt64}
    (signed : pool.offset location < 2 ^ 63)
    (behind : pool.sizeOfSharedManagementArea.toNat ≤ pool.offset location) :
    pool.getIndexFromMemoryLocation location =
      UInt64.ofNat ((pool.offset location - pool.sizeOfSharedManagementArea.toNat) /
        pool.objectSize.toNat) := by
  have difference : (location - pool.pShm).toInt64.toInt = (pool.offset location : Int) :=
    BitVec.toInt_eq_toNat_of_lt (by
      change 2 * pool.offset location < 2 ^ 64
      omega)
  unfold getIndexFromMemoryLocation
  rw [difference, ← Nat.cast_sub behind, ← Int.ofNat_tdiv]
  apply UInt64.toNat_inj.mp
  rw [UInt64.ofInt, UInt64.toNat_ofNat', UInt64.toNat_ofNat']
  omega

/-- In an addressable pool every address of a slot leads back to its index. -/
theorem Addressable.getIndexFromMemoryLocation_slot (addressable : pool.Addressable)
    {index byte : Nat} (bound : index < pool.maxNumberOfObjects.toNat)
    (inside : byte < pool.objectSize.toNat) :
    pool.getIndexFromMemoryLocation
        (pool.getMemoryLocationFromIndex (UInt64.ofNat index) + UInt64.ofNat byte) =
      UInt64.ofNat index := by
  have fits := slot_le bound inside
  have spans := addressable.spans
  have offset := offset_slot bound inside
  rw [getIndexFromMemoryLocation_eq_div (by omega) (by omega), offset, Nat.add_assoc,
    Nat.add_sub_cancel_left, Nat.mul_comm, Nat.mul_add_div (Nat.zero_lt_of_lt inside),
    Nat.div_eq_of_lt inside, Nat.add_zero]

/-- A pool whose sizes did not wrap is laid out soundly. -/
theorem SoundLayout.of_fits (managed : pool.sizeOfSharedManagementArea.toNat =
      4 + 8 + 8 * pool.maxNumberOfObjects.toNat)
    (mapped : pool.sizeOfSharedManagementArea.toNat +
      pool.maxNumberOfObjects.toNat * pool.objectSize.toNat = pool.totalSize.toNat) :
    pool.SoundLayout := by
  have total := pool.totalSize.toNat_lt
  have addressable : pool.Addressable := ⟨by omega⟩
  have indexed : ∀ index < pool.maxNumberOfObjects.toNat, ∀ location ∈ pool.slotRange index,
      pool.getIndexFromMemoryLocation location = UInt64.ofNat index := by
    rintro index bound _ ⟨byte, inside, rfl⟩
    exact addressable.getIndexFromMemoryLocation_slot bound inside
  refine ⟨?_, ?_, ?_, indexed⟩
  · rintro index bound _ ⟨byte, inside, rfl⟩
    rw [offset_slot bound inside]
    omega
  · rintro index bound _ ⟨byte, inside, rfl⟩
    have fits := slot_le bound inside
    rw [offset_slot bound inside]
    omega
  · intro first firstBound second secondBound different
    rw [Set.disjoint_left]
    intro location inFirst inSecond
    have count := pool.maxNumberOfObjects.toNat_lt
    have same := (indexed first firstBound location inFirst).symm.trans
      (indexed second secondBound location inSecond)
    have numbers := congrArg UInt64.toNat same
    rw [UINT64.toNat_ofNat (by omega), UINT64.toNat_ofNat (by omega)] at numbers
    exact different numbers

/-- A pool without slots is laid out soundly. -/
theorem SoundLayout.of_empty (empty : pool.maxNumberOfObjects.toNat = 0) : pool.SoundLayout := by
  constructor <;> intro index bound <;> rw [empty] at bound <;> exact absurd bound (by omega)

/-- The first byte of the first slot and the last byte of the last one show whether the
sizes wrapped. -/
theorem SoundLayout.spans (sound : pool.SoundLayout) (sized : 1 ≤ pool.objectSize.toNat)
    (holds : 0 < pool.maxNumberOfObjects.toNat) :
    4 + 8 + 8 * pool.maxNumberOfObjects.toNat ≤ pool.sizeOfSharedManagementArea.toNat ∧
      pool.sizeOfSharedManagementArea.toNat +
        pool.maxNumberOfObjects.toNat * pool.objectSize.toNat ≤ pool.totalSize.toNat := by
  constructor
  · have first := sound.managed 0 holds _ ⟨0, sized, rfl⟩
    rwa [offset_slot holds sized, Nat.zero_mul, Nat.add_zero, Nat.add_zero] at first
  · have lastBound : pool.maxNumberOfObjects.toNat - 1 < pool.maxNumberOfObjects.toNat := by omega
    have lastByte : pool.objectSize.toNat - 1 < pool.objectSize.toNat := by omega
    have last := sound.mapped _ lastBound _ ⟨_, lastByte, rfl⟩
    rw [offset_slot lastBound lastByte, Nat.sub_mul, Nat.one_mul] at last
    have one := Nat.le_mul_of_pos_left pool.objectSize.toNat holds
    omega

/-- The layout of a pool that holds objects is sound if and only if its size fits in the
`UINT32` it is kept in. -/
theorem soundLayout_iff (pShm : UInt64) (objectSize maxNumberOfObjects : UInt32)
    (sized : 1 ≤ objectSize.toNat) :
    (create pShm objectSize maxNumberOfObjects).SoundLayout ↔
      maxNumberOfObjects.toNat = 0 ∨
        4 + 8 + 8 * maxNumberOfObjects.toNat +
          maxNumberOfObjects.toNat * objectSize.toNat < 2 ^ 32 := by
  have managed : (create pShm objectSize maxNumberOfObjects).sizeOfSharedManagementArea.toNat =
      (4 + 8 + 8 * maxNumberOfObjects.toNat) % 2 ^ 32 := UInt32.toNat_ofNat'
  have mapped : (create pShm objectSize maxNumberOfObjects).totalSize.toNat =
      ((4 + 8 + 8 * maxNumberOfObjects.toNat) % 2 ^ 32 +
        maxNumberOfObjects.toNat * objectSize.toNat % 2 ^ 32) % 2 ^ 32 := by
    rw [← managed, ← UInt32.toNat_mul, ← UInt32.toNat_add]
    rfl
  constructor
  · intro sound
    by_cases empty : maxNumberOfObjects.toNat = 0
    · exact Or.inl empty
    · obtain ⟨behind, inside⟩ := sound.spans sized (Nat.pos_of_ne_zero empty)
      rw [managed] at behind inside
      rw [mapped] at inside
      change 4 + 8 + 8 * maxNumberOfObjects.toNat ≤ _ at behind
      change _ + maxNumberOfObjects.toNat * objectSize.toNat ≤ _ at inside
      right
      omega
  · rintro (empty | fits)
    · exact SoundLayout.of_empty empty
    · have unwrapped : (4 + 8 + 8 * maxNumberOfObjects.toNat) % 2 ^ 32 =
          4 + 8 + 8 * maxNumberOfObjects.toNat := Nat.mod_eq_of_lt (by omega)
      rw [unwrapped] at managed mapped
      refine SoundLayout.of_fits managed ?_
      rw [managed, mapped]
      change _ + maxNumberOfObjects.toNat * objectSize.toNat = _
      rw [Nat.mod_eq_of_lt (by omega), Nat.mod_eq_of_lt (by omega)]

/-- A pool of 1024 objects of 56 bytes. -/
theorem soundLayout_iff_small : (create 4096 56 1024).SoundLayout :=
  (soundLayout_iff 4096 56 1024 (by decide)).mpr (Or.inr (by decide))

/-- Of 65536 objects of 64 KiB, which wrap to a mapping of the management area alone, not
even the first byte of the first is mapped. -/
theorem layout_wraps :
    (create 4096 65536 65536).totalSize =
        (create 4096 65536 65536).sizeOfSharedManagementArea ∧
      ¬ (create 4096 65536 65536).SoundLayout := by
  refine ⟨by decide, fun sound => ?_⟩
  have first := sound.mapped 0 (by decide) _ ⟨0, by decide, rfl⟩
  exact absurd first (by decide)

end MemoryPool

end TimerAndCallback
