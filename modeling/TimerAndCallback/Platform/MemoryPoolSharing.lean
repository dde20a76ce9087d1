import TimerAndCallback.Platform.MemoryPoolAllocator

/-! # A pool in several processes

Every process that opens a pool computes its sizes and maps it where it likes. Only the
exclusive creator sets the management area up. The free list holds indices, not addresses,
so a process can return an object that another one was handed out, at its own address for
the slot. `SharedRun.slots` records the slots in use. No operation reads it.
-/

namespace TimerAndCallback

namespace MemoryPool

/-- `MemoryPool::MemoryPool`, where `pShm` is where the process maps the pool. -/
def openPool (exclusive : Bool) (pShm : UInt64) (objectSize maxNumberOfObjects : UInt32)
    (area : SharedManagementArea) : Option (MemoryPool × SharedManagementArea) :=
  let pool := create pShm objectSize maxNumberOfObjects
  (if exclusive then pool.createArea area else some area).map fun area => (pool, area)

/-- A call of a process that maps the pool at `pShm`. -/
inductive SharedCall
  | openPool (pShm : UInt64)
  | getFromPool (pShm : UInt64)
  | removeFromPool (pShm object : UInt64)

structure SharedRun where
  area : SharedManagementArea
  slots : Finset Nat

/-- The pool that its creator leaves. -/
def createShared (pShm : UInt64) (objectSize maxNumberOfObjects : UInt32)
    (memory : SharedManagementArea) : Option SharedRun :=
  (openPool true pShm objectSize maxNumberOfObjects memory).map fun opened => ⟨opened.2, ∅⟩

/-- One call. An object may be returned at an address that a slot in use has in the
process, whichever process it was handed out to. -/
def callShared (objectSize maxNumberOfObjects : UInt32) (run : SharedRun) :
    SharedCall → Option SharedRun
  | .openPool pShm =>
      (openPool false pShm objectSize maxNumberOfObjects run.area).map fun opened =>
        { run with area := opened.2 }
  | .getFromPool pShm =>
      let pool := create pShm objectSize maxNumberOfObjects
      (pool.getFromPool run.area).map fun
        | (none, area) => { run with area := area }
        | (some object, area) =>
            ⟨area, insert (pool.getIndexFromMemoryLocation object).toNat run.slots⟩
  | .removeFromPool pShm object =>
      let pool := create pShm objectSize maxNumberOfObjects
      let index := pool.getIndexFromMemoryLocation object
      if index.toNat ∈ run.slots ∧ object = pool.getMemoryLocationFromIndex index then
        (pool.removeFromPool run.area object).map fun area =>
          ⟨area, run.slots.erase index.toNat⟩
      else
        none

section Sizes

variable {objectSize maxNumberOfObjects : UInt32}

/-- What every process can rely on between calls. -/
structure SharedRun.Invariant (maxNumberOfObjects : UInt32) (run : SharedRun) : Prop where
  /-- Whatever the object size and the mapping, the free list covers the slots not in use. -/
  sound : ∀ pool : MemoryPool, pool.maxNumberOfObjects = maxNumberOfObjects →
    run.area.Sound pool (· ∈ run.slots)
  counted : run.area.numberAllocated.toNat = run.slots.card
  bounded : ∀ index ∈ run.slots, index < maxNumberOfObjects.toNat

/-- The allocator invariant does not depend on where the pool is mapped. -/
theorem sound_of_size {area : SharedManagementArea} {used : Nat → Prop} {pool other : MemoryPool}
    (sound : area.Sound pool used) (same : other.maxNumberOfObjects = pool.maxNumberOfObjects) :
    area.Sound other used := by
  unfold SharedManagementArea.Sound
  rw [same]
  exact sound

/-- The creator of a pool that is serviceable leaves it with no slot in use. -/
theorem createShared_invariant {pShm : UInt64} (memory : SharedManagementArea)
    (serviceable : (create pShm objectSize maxNumberOfObjects).Serviceable) :
    ∃ start, createShared pShm objectSize maxNumberOfObjects memory = some start ∧
      start.Invariant maxNumberOfObjects := by
  refine ⟨⟨(create pShm objectSize maxNumberOfObjects).linkedArea memory, ∅⟩, ?_, ?_⟩
  · simp only [createShared, openPool, if_true, serviceable.createArea_eq, Option.map_some]
  · refine ⟨fun pool size => ?_, rfl, fun index member => ?_⟩
    · have sound := SharedManagementArea.linkedArea_sound
        (create pShm objectSize maxNumberOfObjects) memory
      exact sound_of_size (sound.congr fun index _ => by simp only [Finset.notMem_empty]) size
    · exact absurd member (Finset.notMem_empty index)

/-- A process finds the index of a slot from its own address of the slot. -/
theorem index_of_slot {pool : MemoryPool} (serviceable : pool.Serviceable) {index : Nat}
    (bound : index < pool.maxNumberOfObjects.toNat) :
    pool.getIndexFromMemoryLocation (pool.getMemoryLocationFromIndex (UInt64.ofNat index)) =
        UInt64.ofNat index ∧ (UInt64.ofNat index).toNat = index := by
  have count := pool.maxNumberOfObjects.toNat_lt
  have sized := serviceable.sized (Nat.zero_lt_of_lt bound)
  have named : (UInt64.ofNat index).toNat = index := UINT64.toNat_ofNat (by omega)
  exact ⟨serviceable.getIndexFromMemoryLocation_eq sized (named.symm ▸ bound), named⟩

/-- Every call of a process keeps the shared pool sound. -/
theorem SharedRun.Invariant.call {run next : SharedRun} {call : SharedCall}
    (invariant : run.Invariant maxNumberOfObjects)
    (serviceable : ∀ pShm, (create pShm objectSize maxNumberOfObjects).Serviceable)
    (called : callShared objectSize maxNumberOfObjects run call = some next) :
    next.Invariant maxNumberOfObjects := by
  cases call with
  | openPool pShm =>
      cases called
      exact ⟨invariant.sound, invariant.counted, invariant.bounded⟩
  | getFromPool pShm =>
      obtain ⟨outcome, ran, rfl⟩ := Option.map_eq_some_iff.mp called
      cases (invariant.sound _ rfl).getFromPool ran with
      | refused => exact ⟨invariant.sound, invariant.counted, invariant.bounded⟩
      | granted index area bound unused room sized incremented sound =>
          obtain ⟨recovered, named⟩ := index_of_slot (serviceable pShm) bound
          simp only [recovered, named]
          refine ⟨fun pool size => sound_of_size (sound.congr fun other _ => ?_) size, ?_, ?_⟩
          · exact Finset.mem_insert.symm
          · rw [incremented, Finset.card_insert_of_notMem unused, invariant.counted]
          · intro other member
            rcases Finset.mem_insert.mp member with rfl | earlier
            · exact bound
            · exact invariant.bounded other earlier
  | removeFromPool pShm object =>
      obtain ⟨⟨member, named⟩, result⟩ := Option.ite_none_right_eq_some.mp called
      obtain ⟨area, ran, rfl⟩ := Option.map_eq_some_iff.mp result
      have spelled : object = (create pShm objectSize maxNumberOfObjects).getMemoryLocationFromIndex
          (UInt64.ofNat ((create pShm objectSize
            maxNumberOfObjects).getIndexFromMemoryLocation object).toNat) := by
        rw [UInt64.ofNat_toNat]
        exact named
      rw [spelled] at ran
      obtain ⟨decremented, sound⟩ := (invariant.sound _ rfl).removeFromPool
        (serviceable pShm).toAddressable (invariant.bounded _ member) member ran
      refine ⟨fun pool size => sound_of_size (sound.congr fun other _ => ?_) size, ?_, ?_⟩
      · exact Finset.mem_erase.symm
      · have erased := Finset.card_erase_add_one member
        have counted := invariant.counted
        dsimp only
        omega
      · intro other remaining
        exact invariant.bounded other (Finset.mem_of_mem_erase remaining)

end Sizes

/-- Where a pool's size fits in 32 bits, its creator returns, and however processes then open
it, allocate from it and return objects, also objects that others were handed out, at whatever
addresses they map it, no slot is handed out twice or lost: each process is refused exactly
when all slots are in use, is otherwise handed out one that is not, and can return any slot
in use. -/
theorem processes_share_pool (objectSize maxNumberOfObjects : UInt32)
    (sized : 1 ≤ objectSize.toNat)
    (fits : 4 + 8 + 8 * maxNumberOfObjects.toNat +
      maxNumberOfObjects.toNat * objectSize.toNat < 2 ^ 32)
    (creator : UInt64) (memory : SharedManagementArea) :
    ∃ start, createShared creator objectSize maxNumberOfObjects memory = some start ∧
      ∀ calls run, Execution.exec (callShared objectSize maxNumberOfObjects) start calls =
        some run → ∀ pShm,
      ((create pShm objectSize maxNumberOfObjects).getFromPool run.area = some (none, run.area) ↔
        run.slots.card = maxNumberOfObjects.toNat) ∧
      (run.slots.card ≠ maxNumberOfObjects.toNat → ∃ object area index,
        (create pShm objectSize maxNumberOfObjects).getFromPool run.area =
          some (some object, area) ∧
        (create pShm objectSize maxNumberOfObjects).IsSlot index object ∧ index ∉ run.slots) ∧
      ∀ index ∈ run.slots, ∃ area, callShared objectSize maxNumberOfObjects run
        (.removeFromPool pShm
          ((create pShm objectSize maxNumberOfObjects).getMemoryLocationFromIndex
            (UInt64.ofNat index))) = some ⟨area, run.slots.erase index⟩ := by
  have serviceable := fun pShm => serviceable_of_fits pShm sized fits
  obtain ⟨start, created, initial⟩ := createShared_invariant memory (serviceable creator)
  refine ⟨start, created, fun calls run executed pShm => ?_⟩
  have invariant := Execution.exec_invariant_of_step
    (fun _ _ _ invariant called => SharedRun.Invariant.call invariant serviceable called)
    initial executed
  have sound := invariant.sound (create pShm objectSize maxNumberOfObjects) rfl
  obtain ⟨outcome, ran⟩ := sound.getFromPool_returns (serviceable pShm)
  have requested := sound.getFromPool ran
  refine ⟨?_, fun left => ?_, fun index member => ?_⟩
  · rw [ran, ← invariant.counted]
    cases requested with
    | refused all full => exact iff_of_true rfl (congrArg UInt32.toNat full)
    | granted index area bound unused room =>
        exact iff_of_false nofun fun full => room (UInt32.toNat_inj.mp full)
  · cases requested with
    | refused all full =>
        exact absurd (invariant.counted.symm.trans (congrArg UInt32.toNat full)) left
    | granted index area bound unused => exact ⟨_, area, index, ran, ⟨bound, rfl⟩, unused⟩
  · have bound := invariant.bounded index member
    obtain ⟨recovered, named⟩ := index_of_slot (serviceable pShm) bound
    obtain ⟨area, returned⟩ := (serviceable pShm).removeFromPool_returns run.area bound
    refine ⟨area, ?_⟩
    simp only [callShared, recovered, named, member, and_self, if_true, returned, Option.map_some]

/-- Two processes map a pool of two slots at `0` and at `4096`; the second one returns what
the first one was handed out. -/
theorem processes_share_pool_two : ∃ start run,
    createShared 0 16 2 ⟨7, fun _ => 7⟩ = some start ∧
    Execution.exec (callShared 16 2) start
      [.openPool 4096, .getFromPool 0, .getFromPool 4096, .removeFromPool 4096 4124] = some run ∧
    ((create 4096 16 2).getFromPool run.area = some (none, run.area) ↔
      run.slots.card = (2 : UInt32).toNat) := by
  obtain ⟨start, created, shared⟩ :=
    processes_share_pool 16 2 (by decide) (by decide) 0 ⟨7, fun _ => 7⟩
  have executed : ((createShared 0 16 2 ⟨7, fun _ => 7⟩).bind fun start =>
      Execution.exec (callShared 16 2) start
        [.openPool 4096, .getFromPool 0, .getFromPool 4096,
          .removeFromPool 4096 4124]).isSome := by
    decide +kernel
  rw [created, Option.bind_some] at executed
  obtain ⟨run, executed⟩ := Option.isSome_iff_exists.mp executed
  exact ⟨start, run, created, executed, (shared _ run executed 4096).1⟩

end MemoryPool

end TimerAndCallback
