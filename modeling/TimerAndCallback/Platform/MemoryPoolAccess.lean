import TimerAndCallback.Platform.MemoryPool

/-! # What the pool accesses

Each operation returns where the words it accesses are mapped. These lemmas say which
words those are and what an operation that returns leaves behind.
-/

namespace TimerAndCallback

namespace MemoryPool

open SharedManagementArea

variable {pool : MemoryPool} {area memory : SharedManagementArea}

private theorem load_eq_some_iff {word : Nat} {value : UInt64} :
    pool.load area word = some value ↔
      4 + 8 * (word + 1) ≤ pool.mappedBytes ∧ area.words word = value := by
  simp only [load, Option.ite_none_right_eq_some, Option.some.injEq]

private theorem store_eq_some_iff {word : Nat} {value : UInt64} {next : SharedManagementArea} :
    pool.store area word value = some next ↔
      4 + 8 * (word + 1) ≤ pool.mappedBytes ∧
        { area with words := Function.update area.words word value } = next := by
  simp only [store, Option.ite_none_right_eq_some, Option.some.injEq]

/-- The words of the free list follow each other behind `*pFirstFree`. -/
theorem freeListWord_eq {index : UInt64} (bound : index.toNat < 2 ^ 61 - 1) :
    freeListWord index = index.toNat + 1 := by
  unfold freeListWord
  rw [UInt64.toNat_mul, UInt64.toNat_add]
  change (index.toNat + 1) % 2 ^ 64 * 8 % 2 ^ 64 / 8 = _
  omega

/-- The word before the free list is `*pFirstFree`, and the one before that begins outside
of every mapping. -/
example : freeListWord (0 - 1) = 0 ∧ 4 + 8 * freeListWord (0 - 2) = 2 ^ 64 - 4 := by decide

/-- The area once the loop of the constructor has run: each slot is linked to the next. -/
def linkedArea (pool : MemoryPool) (memory : SharedManagementArea) : SharedManagementArea where
  numberAllocated := 0
  words word :=
    if word ≤ pool.maxNumberOfObjects.toNat then UInt64.ofNat word else memory.words word

/-- The loop links the slots it is for, and leaves the other words alone. -/
theorem linkFrom_eq_some_iff {index remaining : Nat} {next : SharedManagementArea} :
    pool.linkFrom index remaining area = some next ↔
      (remaining = 0 ∨ 4 + 8 * (index + remaining + 1) ≤ pool.mappedBytes) ∧
        { area with
          words := fun word =>
            if index < word ∧ word ≤ index + remaining then UInt64.ofNat word
            else area.words word } = next := by
  induction remaining generalizing index area with
  | zero =>
      have none : ∀ word, ¬ (index < word ∧ word ≤ index + 0) := fun word => by omega
      simp only [linkFrom, none, if_false, Option.some.injEq, true_or, true_and]
  | succ remaining ih =>
      simp only [linkFrom, Option.bind_eq_bind, Option.bind_eq_some_iff, store_eq_some_iff, ih]
      have words : (fun word => if index + 1 < word ∧ word ≤ index + 1 + remaining then
            UInt64.ofNat word
          else Function.update area.words (index + 1) (UInt64.ofNat (index + 1)) word) =
          fun word => if index < word ∧ word ≤ index + (remaining + 1) then UInt64.ofNat word
          else area.words word := by
        funext word
        by_cases first : word = index + 1
        · subst first
          simp only [Nat.lt_irrefl, false_and, if_false, Function.update_self]
          rw [if_pos (by omega)]
        · rw [Function.update_of_ne first]
          exact if_congr (by omega) rfl rfl
      constructor
      · rintro ⟨_, ⟨mapped, rfl⟩, rest, rfl⟩
        refine ⟨Or.inr ?_, by rw [words]⟩
        rcases rest with rfl | mappedAll <;> omega
      · rintro ⟨empty | mapped, rfl⟩
        · exact absurd empty (Nat.succ_ne_zero remaining)
        · exact ⟨_, ⟨by omega, rfl⟩, Or.inr (by omega), by rw [words]⟩

/-- The constructor returns exactly where the whole free list is mapped. -/
theorem createArea_eq_some_iff {next : SharedManagementArea} :
    pool.createArea memory = some next ↔
      4 + 8 * (pool.maxNumberOfObjects.toNat + 1) ≤ pool.mappedBytes ∧
        pool.linkedArea memory = next := by
  have words : (fun word => if 0 < word ∧ word ≤ 0 + pool.maxNumberOfObjects.toNat then
        UInt64.ofNat word
      else Function.update memory.words 0 0 word) = (pool.linkedArea memory).words := by
    funext word
    simp only [linkedArea]
    cases word with
    | zero => rfl
    | succ word =>
        rw [Function.update_of_ne (Nat.succ_ne_zero word)]
        exact if_congr (by omega) rfl rfl
  simp only [createArea, Option.bind_eq_bind, Option.bind_eq_some_iff, store_eq_some_iff,
    linkFrom_eq_some_iff]
  constructor
  · rintro ⟨_, ⟨mapped, rfl⟩, rest, rfl⟩
    refine ⟨by omega, ?_⟩
    rw [words]
    rfl
  · rintro ⟨mapped, rfl⟩
    refine ⟨_, ⟨by omega, rfl⟩, by omega, ?_⟩
    rw [words]
    rfl

private theorem objectSize_ne_zero : pool.objectSize ≠ 0 ↔ 0 < pool.objectSize.toNat := by
  rw [Nat.pos_iff_ne_zero, ne_eq, ne_eq, ← UInt32.toNat_inj]
  rfl

/-- A request returns where the head of the free list is mapped and, unless the pool is
full, an object has a size. -/
theorem getFromPool_eq_some_iff {outcome : Option UInt64 × SharedManagementArea} :
    pool.getFromPool area = some outcome ↔
      4 + 8 * 1 ≤ pool.mappedBytes ∧
      4 + 8 * (freeListWord area.firstFree + 1) ≤ pool.mappedBytes ∧
      (area.numberAllocated = pool.maxNumberOfObjects ∧ outcome = (none, area) ∨
        area.numberAllocated ≠ pool.maxNumberOfObjects ∧ 0 < pool.objectSize.toNat ∧
        outcome = (some (pool.getMemoryLocationFromIndex area.firstFree),
          { numberAllocated := area.numberAllocated + 1
            words := Function.update area.words 0
              (area.words (freeListWord area.firstFree)) })) := by
  simp only [getFromPool, Option.bind_eq_bind, Option.bind_eq_some_iff, load_eq_some_iff,
    firstFree, ← objectSize_ne_zero]
  constructor
  · rintro ⟨_, ⟨first, rfl⟩, _, ⟨head, rfl⟩, left⟩
    refine ⟨first, head, ?_⟩
    split_ifs at left with full sizeless
    · exact Or.inl ⟨full, (Option.some.inj left).symm⟩
    · obtain ⟨_, stored, rest⟩ := Option.bind_eq_some_iff.mp left
      obtain ⟨_, rfl⟩ := store_eq_some_iff.mp stored
      exact Or.inr ⟨full, sizeless, (Option.some.inj rest).symm⟩
  · rintro ⟨first, head, ⟨full, rfl⟩ | ⟨room, sized, rfl⟩⟩
    · exact ⟨_, ⟨first, rfl⟩, _, ⟨head, rfl⟩, if_pos full⟩
    · refine ⟨_, ⟨first, rfl⟩, _, ⟨head, rfl⟩, ?_⟩
      rw [if_neg room, if_neg sized, Option.bind_eq_some_iff]
      exact ⟨_, store_eq_some_iff.mpr ⟨first, rfl⟩, rfl⟩

/-- A return comes back where an object has a size and, unless the pool is empty, the
word for the object's index is mapped. -/
theorem removeFromPool_eq_some_iff {object : UInt64} {next : SharedManagementArea} :
    pool.removeFromPool area object = some next ↔
      0 < pool.objectSize.toNat ∧ 4 ≤ pool.mappedBytes ∧
      (area.numberAllocated = 0 ∧ next = area ∨
        area.numberAllocated ≠ 0 ∧ 4 + 8 * 1 ≤ pool.mappedBytes ∧
        4 + 8 * (freeListWord (pool.getIndexFromMemoryLocation object) + 1) ≤ pool.mappedBytes ∧
        next =
          { numberAllocated := area.numberAllocated - 1
            words := Function.update (Function.update area.words
              (freeListWord (pool.getIndexFromMemoryLocation object)) area.firstFree) 0
              (pool.getIndexFromMemoryLocation object) }) := by
  simp only [removeFromPool, Option.ite_none_left_eq_some, not_or, Nat.not_lt, and_assoc,
    ← objectSize_ne_zero, ne_eq]
  refine and_congr_right fun _ => and_congr_right fun _ => ?_
  by_cases empty : area.numberAllocated = 0
  · simp only [empty, if_true, Option.some.injEq, true_and, not_true_eq_false, false_and,
      or_false, eq_comm]
  · simp only [empty, if_false, Option.bind_eq_bind, Option.bind_eq_some_iff, load_eq_some_iff,
      store_eq_some_iff, false_and, false_or, not_false_eq_true, true_and]
    constructor
    · rintro ⟨_, ⟨first, rfl⟩, _, ⟨head, rfl⟩, _, ⟨_, rfl⟩, rest⟩
      exact ⟨first, head, (Option.some.inj rest).symm⟩
    · rintro ⟨first, head, rfl⟩
      exact ⟨_, ⟨first, rfl⟩, _, ⟨head, rfl⟩, _, ⟨first, rfl⟩, rfl⟩

/-- A mapping that holds the free list is one whose sizes are within the range of a
pointer difference. -/
theorem addressable_create {pShm : UInt64} {objectSize maxNumberOfObjects : UInt32}
    (fits : 4 + 8 * (maxNumberOfObjects.toNat + 1) ≤
      (create pShm objectSize maxNumberOfObjects).mappedBytes) :
    (create pShm objectSize maxNumberOfObjects).Addressable := by
  have total := (create pShm objectSize maxNumberOfObjects).totalSize.toNat_lt
  have managed := (create pShm objectSize maxNumberOfObjects).sizeOfSharedManagementArea.toNat_lt
  have count : maxNumberOfObjects.toNat ≤ 2 ^ 29 := by
    unfold mappedBytes at fits
    omega
  have product : maxNumberOfObjects.toNat * objectSize.toNat ≤ 2 ^ 29 * 2 ^ 32 :=
    Nat.mul_le_mul count objectSize.toNat_lt.le
  refine ⟨?_⟩
  change _ + maxNumberOfObjects.toNat * objectSize.toNat ≤ 2 ^ 63
  omega

end MemoryPool

end TimerAndCallback
