import TimerAndCallback.Platform.MemoryPoolLayout
import TimerAndCallback.Platform.MemoryPoolAccess
import TimerAndCallback.Foundation.Execution

/-! # The allocator hands out free slots only

`SharedManagementArea.Sound` is the allocator invariant at the level of slot
indices: the free list covers exactly the slots not in use. Slot addresses and
slot indices determine each other inside an addressable pool, so the invariant
carries over to sequences of calls that only see addresses. The calls return
where the words they access are mapped, which decides for which sizes a pool works.
-/

namespace TimerAndCallback

namespace MemoryPool

variable {pool : MemoryPool}

/-- A slot index is recovered from the address of its slot. -/
theorem Addressable.getIndexFromMemoryLocation_eq (addressable : pool.Addressable)
    (sized : 0 < pool.objectSize.toNat) {index : UInt64}
    (bound : index.toNat < pool.maxNumberOfObjects.toNat) :
    pool.getIndexFromMemoryLocation (pool.getMemoryLocationFromIndex index) = index := by
  have start := addressable.getIndexFromMemoryLocation_slot bound sized
  have first : pool.getMemoryLocationFromIndex index + UInt64.ofNat 0 =
      pool.getMemoryLocationFromIndex index := UInt64.add_zero _
  rwa [UInt64.ofNat_toNat, first] at start

/-- Distinct slots have distinct addresses. -/
theorem Addressable.getMemoryLocationFromIndex_inj (addressable : pool.Addressable)
    (sized : 0 < pool.objectSize.toNat) {first second : Nat}
    (firstBound : first < pool.maxNumberOfObjects.toNat)
    (secondBound : second < pool.maxNumberOfObjects.toNat)
    (same : pool.getMemoryLocationFromIndex (UInt64.ofNat first) =
      pool.getMemoryLocationFromIndex (UInt64.ofNat second)) : first = second := by
  have count := pool.maxNumberOfObjects.toNat_lt
  have firstNat : (UInt64.ofNat first).toNat = first := UINT64.toNat_ofNat (by omega)
  have secondNat : (UInt64.ofNat second).toNat = second := UINT64.toNat_ofNat (by omega)
  have indices := congrArg pool.getIndexFromMemoryLocation same
  rw [addressable.getIndexFromMemoryLocation_eq sized (firstNat.symm ▸ firstBound),
    addressable.getIndexFromMemoryLocation_eq sized (secondNat.symm ▸ secondBound)] at indices
  rw [← firstNat, ← secondNat, indices]

end MemoryPool

namespace SharedManagementArea

open FreeList MemoryPool

/-- The free list as links between slot indices. -/
def links (area : SharedManagementArea) : Nat → Nat := UInt64.toNat ∘ area.freeList

/-- The free list covers the slots not in use, and the count is their complement. -/
def Sound (pool : MemoryPool) (area : SharedManagementArea) (used : Nat → Prop) : Prop :=
  ∃ visited, Covers area.links area.firstFree.toNat pool.maxNumberOfObjects.toNat used visited ∧
    area.numberAllocated.toNat + visited.length = pool.maxNumberOfObjects.toNat

variable {pool : MemoryPool} {area next : SharedManagementArea} {used : Nat → Prop}

/-- Soundness depends on which slots are in use only. -/
theorem Sound.congr {others : Nat → Prop} (sound : area.Sound pool used)
    (agree : ∀ index < pool.maxNumberOfObjects.toNat, used index ↔ others index) :
    area.Sound pool others := by
  obtain ⟨visited, covers, counted⟩ := sound
  exact ⟨visited, covers.congr agree, counted⟩

/-- The creator links every slot to the next and uses none. -/
theorem linkedArea_sound (pool : MemoryPool) (memory : SharedManagementArea) :
    (pool.linkedArea memory).Sound pool fun _ => False := by
  have count := pool.maxNumberOfObjects.toNat_lt
  refine ⟨List.range' 0 pool.maxNumberOfObjects.toNat, ⟨?_, List.nodup_range', ?_⟩, ?_⟩
  · have successor : ∀ index, 0 ≤ index → index < 0 + pool.maxNumberOfObjects.toNat →
        (pool.linkedArea memory).links index = index + 1 := by
      intro index _ bound
      have linked : index + 1 ≤ pool.maxNumberOfObjects.toNat := by omega
      simp only [links, Function.comp_apply, freeList, linkedArea, if_pos linked]
      exact UINT64.toNat_ofNat (by omega)
    have walk := follows_successors 0 pool.maxNumberOfObjects.toNat successor
    rwa [Nat.zero_add] at walk
  · intro index
    rw [List.mem_range'_1]
    simp only [Nat.zero_le, Nat.zero_add, true_and, not_false_eq_true, and_true]
  · rw [List.length_range']
    exact Nat.zero_add _

/-- The head of the free list is a slot, or the end of the list. -/
theorem Sound.firstFree_le (sound : area.Sound pool used) :
    area.firstFree.toNat ≤ pool.maxNumberOfObjects.toNat := by
  obtain ⟨visited, covers, _⟩ := sound
  cases visited with
  | nil => exact Nat.le_of_eq covers.follows
  | cons index rest =>
      obtain ⟨head, bound, _, _⟩ := covers.pop
      exact head ▸ bound.le

/-- A pool with a slot in use has a count to take down. -/
theorem Sound.allocated (sound : area.Sound pool used) {index : Nat}
    (bound : index < pool.maxNumberOfObjects.toNat) (inUse : used index) :
    0 < area.numberAllocated.toNat := by
  obtain ⟨visited, covers, counted⟩ := sound
  have returned := covers.push bound inUse
  have all : (index :: visited).length ≤ (List.range pool.maxNumberOfObjects.toNat).length := by
    refine (returned.nodup.subperm fun other member => ?_).length_le
    exact List.mem_range.mpr ((returned.mem_iff other).mp member).1
  rw [List.length_cons, List.length_range] at all
  omega

/-- How a request ends: refused when every slot is in use, which changes nothing, or
granted the slot at the head of the free list. -/
inductive Requested (pool : MemoryPool) (area : SharedManagementArea) (used : Nat → Prop) :
    Option UInt64 × SharedManagementArea → Prop
  | refused (all : ∀ index < pool.maxNumberOfObjects.toNat, used index)
      (full : area.numberAllocated = pool.maxNumberOfObjects) :
      Requested pool area used (none, area)
  | granted (index : Nat) (next : SharedManagementArea)
      (bound : index < pool.maxNumberOfObjects.toNat) (unused : ¬ used index)
      (room : area.numberAllocated ≠ pool.maxNumberOfObjects)
      (sized : 0 < pool.objectSize.toNat)
      (incremented : next.numberAllocated.toNat = area.numberAllocated.toNat + 1)
      (sound : next.Sound pool fun other => other = index ∨ used other) :
      Requested pool area used
        (some (pool.getMemoryLocationFromIndex (UInt64.ofNat index)), next)

/-- A request that returns is refused or granted a free slot. -/
theorem Sound.getFromPool (sound : area.Sound pool used)
    {outcome : Option UInt64 × SharedManagementArea} (ran : pool.getFromPool area = some outcome) :
    Requested pool area used outcome := by
  obtain ⟨visited, covers, counted⟩ := sound
  have count := pool.maxNumberOfObjects.toNat_lt
  obtain ⟨-, -, ⟨full, rfl⟩ | ⟨room, sized, rfl⟩⟩ := getFromPool_eq_some_iff.mp ran
  · rw [full] at counted
    have exhausted : visited = [] := List.length_eq_zero_iff.mp (by omega)
    exact .refused (covers.eq_nil_iff.mp exhausted) full
  · cases visited with
    | nil =>
        refine absurd (UInt32.toNat_inj.mp ?_) room
        simpa only [List.length_nil, Nat.add_zero] using counted
    | cons index rest =>
        obtain ⟨head, bound, unused, tail⟩ := covers.pop
        rw [List.length_cons] at counted
        have named : area.firstFree = UInt64.ofNat index := by
          apply UInt64.toNat_inj.mp
          rw [head, UINT64.toNat_ofNat (by omega)]
        have word : freeListWord area.firstFree = index + 1 := by
          rw [freeListWord_eq (by omega), head]
        have incremented : (area.numberAllocated + 1).toNat =
            area.numberAllocated.toNat + 1 := by
          rw [UInt32.toNat_add]
          change (area.numberAllocated.toNat + 1) % 2 ^ 32 = _
          omega
        rw [named]
        refine .granted index _ bound unused room sized incremented ⟨rest, ?_, ?_⟩
        · rw [← named, word]
          exact tail
        · change (area.numberAllocated + 1).toNat + rest.length = _
          omega

/-- Where the free list is mapped up to the word behind it, every request returns. -/
theorem Sound.getFromPool_returns (sound : area.Sound pool used)
    (serviceable : pool.Serviceable) : ∃ outcome, pool.getFromPool area = some outcome := by
  have count := pool.maxNumberOfObjects.toNat_lt
  have head := sound.firstFree_le
  have loads := serviceable.loads
  have word : freeListWord area.firstFree = _ := freeListWord_eq (by omega)
  have mapped : 4 + 8 * (freeListWord area.firstFree + 1) ≤ pool.mappedBytes := by omega
  by_cases full : area.numberAllocated = pool.maxNumberOfObjects
  · exact ⟨_, getFromPool_eq_some_iff.mpr ⟨by omega, mapped, Or.inl ⟨full, rfl⟩⟩⟩
  · have holds : 0 < pool.maxNumberOfObjects.toNat := by
      obtain ⟨_, _, counted⟩ := sound
      refine Nat.pos_of_ne_zero fun none => full (UInt32.toNat_inj.mp ?_)
      omega
    exact ⟨_, getFromPool_eq_some_iff.mpr
      ⟨by omega, mapped, Or.inr ⟨full, serviceable.sized holds, rfl⟩⟩⟩

/-- The link of a slot is a word behind the head of the list. -/
theorem links_update (count : UInt32) (words : Nat → UInt64) (index : Nat)
    (link head : UInt64) :
    links ⟨count, Function.update (Function.update words (index + 1) link) 0 head⟩ =
      Function.update (links ⟨count, words⟩) index link.toNat := by
  funext other
  by_cases same : other = index
  · subst same
    simp only [links, freeList, Function.comp_apply, Function.update_self, ne_eq,
      Nat.add_one_ne_zero, not_false_eq_true, Function.update_of_ne]
  · have apart : other + 1 ≠ index + 1 := fun equal => same (Nat.succ.inj equal)
    simp only [links, freeList, Function.comp_apply, ne_eq, Nat.add_one_ne_zero,
      not_false_eq_true, Function.update_of_ne, apart, same]

/-- The return of a slot in use puts it back at the head of the free list. -/
theorem Sound.removeFromPool (sound : area.Sound pool used) (addressable : pool.Addressable)
    {index : Nat} (bound : index < pool.maxNumberOfObjects.toNat) (inUse : used index)
    (ran : pool.removeFromPool area (pool.getMemoryLocationFromIndex (UInt64.ofNat index)) =
      some next) :
    next.numberAllocated.toNat + 1 = area.numberAllocated.toNat ∧
      next.Sound pool fun other => other ≠ index ∧ used other := by
  have count := pool.maxNumberOfObjects.toNat_lt
  have positive := sound.allocated bound inUse
  have indexNat : (UInt64.ofNat index).toNat = index := UINT64.toNat_ofNat (by omega)
  have decremented : (area.numberAllocated - 1).toNat = area.numberAllocated.toNat - 1 := by
    rw [UInt32.toNat_sub_of_le _ _ (UInt32.le_iff_toNat_le.mpr (by exact positive))]
    rfl
  obtain ⟨sized, -, ⟨empty, -⟩ | ⟨-, -, -, left⟩⟩ := removeFromPool_eq_some_iff.mp ran
  · rw [empty] at positive
    exact absurd positive (by decide)
  · rw [addressable.getIndexFromMemoryLocation_eq sized (indexNat.symm ▸ bound),
      freeListWord_eq (by omega), indexNat] at left
    subst left
    obtain ⟨visited, covers, counted⟩ := sound
    refine ⟨by dsimp only; omega, index :: visited, ?_, ?_⟩
    · simp only [links_update, firstFree, Function.update_self, indexNat]
      exact covers.push bound inUse
    · change (area.numberAllocated - 1).toNat + (visited.length + 1) = _
      omega

end SharedManagementArea

namespace MemoryPool

/-- A call to the pool. -/
inductive PoolCall
  | getFromPool
  | removeFromPool (object : UInt64)

/-- The shared area, and the objects that were handed out and not returned. -/
structure PoolRun where
  area : SharedManagementArea
  outstanding : Finset UInt64

/-- Only an outstanding object may be returned. -/
def ReturnsOutstanding (run : PoolRun) : PoolCall → Prop
  | .getFromPool => True
  | .removeFromPool object => object ∈ run.outstanding

/-- One call. A call that returns another object is not made. -/
def callPool (pool : MemoryPool) (run : PoolRun) : PoolCall → Option PoolRun
  | .getFromPool =>
      (pool.getFromPool run.area).map fun
        | (none, area) => { run with area := area }
        | (some object, area) =>
            { area := area, outstanding := insert object run.outstanding }
  | .removeFromPool object =>
      if object ∈ run.outstanding then
        (pool.removeFromPool run.area object).map fun area =>
          { area := area, outstanding := run.outstanding.erase object }
      else
        none

/-- The pool before any call, once its creator has set it up. -/
def createRun (pool : MemoryPool) : PoolRun :=
  ⟨pool.linkedArea SharedManagementArea.zeroFilled, ∅⟩

/-- The address of a slot below the pool's size. -/
def IsSlot (pool : MemoryPool) (index : Nat) (object : UInt64) : Prop :=
  index < pool.maxNumberOfObjects.toNat ∧
    object = pool.getMemoryLocationFromIndex (UInt64.ofNat index)

/-- What the allocator guarantees between calls. -/
structure AllocatorCorrect (pool : MemoryPool) (run : PoolRun) : Prop where
  counted : run.area.numberAllocated.toNat = run.outstanding.card
  inSlots : ∀ object ∈ run.outstanding, ∃ index, pool.IsSlot index object
  /-- The free list visits each slot that is not outstanding once and ends at the size. -/
  freeList : ∃ visited : List Nat,
    FreeList.Follows run.area.links run.area.firstFree.toNat visited
      pool.maxNumberOfObjects.toNat ∧
    visited.length = pool.maxNumberOfObjects.toNat - run.area.numberAllocated.toNat ∧
    visited.Nodup ∧
    ∀ index, index ∈ visited ↔ index < pool.maxNumberOfObjects.toNat ∧
      pool.getMemoryLocationFromIndex (UInt64.ofNat index) ∉ run.outstanding
  /-- A request is answered with `NULL` when everything is handed out, changing nothing. -/
  exhausted : pool.getFromPool run.area = some (none, run.area) ↔
    run.outstanding.card = pool.maxNumberOfObjects.toNat
  /-- Otherwise it returns a slot that is not outstanding. -/
  handedOut : run.outstanding.card ≠ pool.maxNumberOfObjects.toNat →
    ∃ object area, pool.getFromPool run.area = some (some object, area) ∧
      object ∉ run.outstanding ∧ ∃ index, pool.IsSlot index object

/-- The constructor returns, and so does every call of every sequence of calls that return
outstanding objects only, after which the allocator is correct. -/
def AllocatorWorks (pool : MemoryPool) : Prop :=
  ∃ area, pool.createArea SharedManagementArea.zeroFilled = some area ∧
    ∀ calls, Execution.Along pool.callPool ReturnsOutstanding ⟨area, ∅⟩ calls →
      ∃ run, Execution.exec pool.callPool ⟨area, ∅⟩ calls = some run ∧ AllocatorCorrect pool run

/-- The slot's object is outstanding. -/
def PoolRun.Uses (pool : MemoryPool) (run : PoolRun) (index : Nat) : Prop :=
  pool.getMemoryLocationFromIndex (UInt64.ofNat index) ∈ run.outstanding

/-- The invariant a run of calls keeps. -/
structure PoolRun.Invariant (pool : MemoryPool) (run : PoolRun) : Prop where
  sound : run.area.Sound pool (run.Uses pool)
  counted : run.area.numberAllocated.toNat = run.outstanding.card
  inSlots : ∀ object ∈ run.outstanding, ∃ index, pool.IsSlot index object

/-- The constructor leaves a sound pool. -/
theorem createRun_invariant (pool : MemoryPool) : (createRun pool).Invariant pool where
  sound := (SharedManagementArea.linkedArea_sound pool _).congr fun index _ => by
    simp only [PoolRun.Uses, createRun, Finset.notMem_empty]
  counted := rfl
  inSlots object member := absurd member (Finset.notMem_empty object)

section Calls

variable {pool : MemoryPool} {run next : PoolRun}

/-- Where the free list is mapped, the return of a slot comes back. -/
theorem Serviceable.removeFromPool_returns (serviceable : pool.Serviceable)
    (area : SharedManagementArea) {index : Nat} (bound : index < pool.maxNumberOfObjects.toNat) :
    ∃ next, pool.removeFromPool area
      (pool.getMemoryLocationFromIndex (UInt64.ofNat index)) = some next := by
  have count := pool.maxNumberOfObjects.toNat_lt
  have loads := serviceable.loads
  have sized := serviceable.sized (Nat.zero_lt_of_lt bound)
  have indexNat : (UInt64.ofNat index).toNat = index := UINT64.toNat_ofNat (by omega)
  by_cases empty : area.numberAllocated = 0
  · exact ⟨_, removeFromPool_eq_some_iff.mpr ⟨sized, by omega, Or.inl ⟨empty, rfl⟩⟩⟩
  · refine ⟨_, removeFromPool_eq_some_iff.mpr
      ⟨sized, by omega, Or.inr ⟨empty, by omega, ?_, rfl⟩⟩⟩
    rw [serviceable.getIndexFromMemoryLocation_eq sized (indexNat.symm ▸ bound),
      freeListWord_eq (by omega), indexNat]
    omega

/-- Handing out an object keeps the pool sound. -/
theorem PoolRun.Invariant.getFromPool (invariant : run.Invariant pool)
    (addressable : pool.Addressable) (called : pool.callPool run .getFromPool = some next) :
    next.Invariant pool := by
  obtain ⟨outcome, ran, rfl⟩ := Option.map_eq_some_iff.mp called
  cases invariant.sound.getFromPool ran with
  | refused => exact ⟨invariant.sound, invariant.counted, invariant.inSlots⟩
  | granted index area bound unused room sized incremented sound =>
      refine ⟨sound.congr fun other otherBound => ?_, ?_, ?_⟩
      · simp only [PoolRun.Uses, Finset.mem_insert]
        refine or_congr_left ⟨fun same => same ▸ rfl, fun same => ?_⟩
        exact addressable.getMemoryLocationFromIndex_inj sized otherBound bound same
      · rw [incremented, Finset.card_insert_of_notMem unused, invariant.counted]
      · intro object member
        rcases Finset.mem_insert.mp member with rfl | earlier
        · exact ⟨index, bound, rfl⟩
        · exact invariant.inSlots object earlier

/-- Taking back an object that is in use keeps the pool sound. -/
theorem PoolRun.Invariant.removeFromPool (invariant : run.Invariant pool)
    (addressable : pool.Addressable) {object : UInt64}
    (called : pool.callPool run (.removeFromPool object) = some next) : next.Invariant pool := by
  obtain ⟨member, returned⟩ := Option.ite_none_right_eq_some.mp called
  obtain ⟨area, ran, rfl⟩ := Option.map_eq_some_iff.mp returned
  obtain ⟨index, bound, rfl⟩ := invariant.inSlots object member
  have sized := (removeFromPool_eq_some_iff.mp ran).1
  obtain ⟨decremented, sound⟩ := invariant.sound.removeFromPool addressable bound member ran
  refine ⟨sound.congr fun other otherBound => ?_, ?_, ?_⟩
  · simp only [PoolRun.Uses, Finset.mem_erase]
    refine and_congr_left fun _ => not_congr ⟨fun same => same ▸ rfl, fun same => ?_⟩
    exact addressable.getMemoryLocationFromIndex_inj sized otherBound bound same
  · have erased := Finset.card_erase_add_one member
    have counted := invariant.counted
    dsimp only
    omega
  · intro other remaining
    exact invariant.inSlots other (Finset.mem_of_mem_erase remaining)

/-- Every call keeps the pool sound. -/
theorem PoolRun.Invariant.call (invariant : run.Invariant pool) (addressable : pool.Addressable)
    {call : PoolCall} (called : pool.callPool run call = some next) : next.Invariant pool := by
  cases call with
  | getFromPool => exact invariant.getFromPool addressable called
  | removeFromPool object => exact invariant.removeFromPool addressable called

/-- In a serviceable pool every call that is made returns. -/
theorem PoolRun.Invariant.call_returns (invariant : run.Invariant pool)
    (serviceable : pool.Serviceable) {call : PoolCall} (returns : ReturnsOutstanding run call) :
    ∃ next, pool.callPool run call = some next := by
  cases call with
  | getFromPool =>
      obtain ⟨outcome, ran⟩ := invariant.sound.getFromPool_returns serviceable
      exact ⟨_, Option.map_eq_some_iff.mpr ⟨outcome, ran, rfl⟩⟩
  | removeFromPool object =>
      obtain ⟨index, bound, rfl⟩ := invariant.inSlots object returns
      obtain ⟨area, ran⟩ := serviceable.removeFromPool_returns run.area bound
      exact ⟨_, Option.ite_none_right_eq_some.mpr
        ⟨returns, Option.map_eq_some_iff.mpr ⟨area, ran, rfl⟩⟩⟩

/-- A sound pool allocates correctly. -/
theorem PoolRun.Invariant.correct (invariant : run.Invariant pool)
    (serviceable : pool.Serviceable) : AllocatorCorrect pool run := by
  obtain ⟨visited, covers, length⟩ := invariant.sound
  obtain ⟨outcome, ran⟩ := invariant.sound.getFromPool_returns serviceable
  have requested := invariant.sound.getFromPool ran
  refine ⟨invariant.counted, invariant.inSlots,
    ⟨visited, covers.follows, by omega, covers.nodup, covers.mem_iff⟩, ?_, fun left => ?_⟩
  · rw [ran, ← invariant.counted]
    cases requested with
    | refused all full => exact iff_of_true rfl (congrArg UInt32.toNat full)
    | granted index area bound unused room =>
        exact iff_of_false nofun fun full => room (UInt32.toNat_inj.mp full)
  · cases requested with
    | refused all full =>
        exact absurd (invariant.counted.symm.trans (congrArg UInt32.toNat full)) left
    | granted index area bound unused => exact ⟨_, area, ran, unused, index, bound, rfl⟩

/-- The constructor of a serviceable pool returns. -/
theorem Serviceable.createArea_eq (serviceable : pool.Serviceable)
    {memory : SharedManagementArea} : pool.createArea memory = some (pool.linkedArea memory) := by
  have loads := serviceable.loads
  exact createArea_eq_some_iff.mpr ⟨by omega, rfl⟩

/-- A serviceable pool is constructed, and serves every sequence of calls. -/
theorem Serviceable.allocatorWorks (serviceable : pool.Serviceable) : pool.AllocatorWorks := by
  refine ⟨_, serviceable.createArea_eq, fun calls returns => ?_⟩
  obtain ⟨run, executed, invariant⟩ := Execution.exec_progress
    (fun state call invariant returns => by
      obtain ⟨next, called⟩ := PoolRun.Invariant.call_returns invariant serviceable returns
      exact ⟨next, called, invariant.call serviceable.toAddressable called⟩)
    (createRun_invariant pool) returns
  exact ⟨run, executed, invariant.correct serviceable⟩

/-- While calls are served, requests alone hand out one slot each until none is left. -/
theorem requests_hand_out {area : SharedManagementArea}
    (served : ∀ calls, Execution.Along pool.callPool ReturnsOutstanding ⟨area, ∅⟩ calls →
      ∃ run, Execution.exec pool.callPool ⟨area, ∅⟩ calls = some run ∧ AllocatorCorrect pool run)
    (count : Nat) (bound : count ≤ pool.maxNumberOfObjects.toNat) :
    ∃ run, Execution.exec pool.callPool ⟨area, ∅⟩ (List.replicate count .getFromPool) = some run ∧
      AllocatorCorrect pool run ∧ run.outstanding.card = count := by
  have requests : ∀ number, Execution.Along pool.callPool ReturnsOutstanding ⟨area, ∅⟩
      (List.replicate number .getFromPool) := fun number =>
    Execution.along_of_forall fun call member _ => by
      rw [List.eq_of_mem_replicate member]
      trivial
  induction count with
  | zero =>
      obtain ⟨run, executed, correct⟩ := served [] trivial
      cases executed
      exact ⟨_, rfl, correct, Finset.card_empty⟩
  | succ count ih =>
      obtain ⟨run, reached, correct, held⟩ := ih (by omega)
      obtain ⟨next, executed, correctNext⟩ := served _ (requests (count + 1))
      refine ⟨next, executed, correctNext, ?_⟩
      rw [List.replicate_succ', Execution.exec_append, reached, Option.bind_some,
        Execution.exec_singleton] at executed
      obtain ⟨object, area, handed, fresh, _⟩ := correct.handedOut (by omega)
      rw [callPool, handed] at executed
      cases executed
      rw [Finset.card_insert_of_notMem fresh, held]

/-- A pool that works has objects of a size, and the word behind its free list is mapped:
the first request divides by the size, and the one on the full pool reads the word. -/
theorem AllocatorWorks.serviceable (works : pool.AllocatorWorks)
    (addressable : pool.Addressable) : pool.Serviceable := by
  obtain ⟨area, constructed, served⟩ := works
  refine ⟨addressable, fun holds => ?_, ?_⟩
  · obtain ⟨run, executed, correct⟩ := served [] trivial
    cases executed
    obtain ⟨object, next, handed, _⟩ := correct.handedOut (by
      rw [Finset.card_empty]
      omega)
    obtain ⟨-, -, ⟨-, refused⟩ | ⟨-, sized, -⟩⟩ := getFromPool_eq_some_iff.mp handed
    · cases refused
    · exact sized
  · obtain ⟨run, _, correct, all⟩ := requests_hand_out served _ le_rfl
    obtain ⟨-, behind, -⟩ := getFromPool_eq_some_iff.mp (correct.exhausted.mpr all)
    obtain ⟨visited, follows, length, -⟩ := correct.freeList
    rw [correct.counted, all, Nat.sub_self, List.length_eq_zero_iff] at length
    subst length
    have count := pool.maxNumberOfObjects.toNat_lt
    have ended : run.area.firstFree.toNat = pool.maxNumberOfObjects.toNat := follows
    rw [freeListWord_eq (by omega), ended] at behind
    omega

end Calls

section Sizes

variable (pShm : UInt64) (objectSize maxNumberOfObjects : UInt32)

/-- The mapping has the pages for the total size, which wraps. -/
theorem mappedBytes_create : (create pShm objectSize maxNumberOfObjects).mappedBytes =
    ((4 + 8 + 8 * maxNumberOfObjects.toNat + maxNumberOfObjects.toNat * objectSize.toNat) % 2 ^ 32 +
      4095) / 4096 * 4096 := by
  have total : (create pShm objectSize maxNumberOfObjects).totalSize.toNat =
      (4 + 8 + 8 * maxNumberOfObjects.toNat +
        maxNumberOfObjects.toNat * objectSize.toNat) % 2 ^ 32 := by
    simp only [create, UInt32.toNat_add, UInt32.toNat_mul, UInt32.toNat_ofNat', Nat.add_mod_mod,
      Nat.mod_add_mod]
  rw [mappedBytes, total]

/-- A pool whose size fits in the `UINT32` it is kept in is serviceable wherever it is mapped:
the slots of a pool that holds one reach beyond the word behind the free list. -/
theorem serviceable_of_fits {objectSize maxNumberOfObjects : UInt32}
    (sized : 1 ≤ objectSize.toNat)
    (fits : 4 + 8 + 8 * maxNumberOfObjects.toNat +
      maxNumberOfObjects.toNat * objectSize.toNat < 2 ^ 32) :
    (create pShm objectSize maxNumberOfObjects).Serviceable := by
  have mapped := mappedBytes_create pShm objectSize maxNumberOfObjects
  have one := Nat.le_mul_of_pos_right maxNumberOfObjects.toNat sized
  rw [Nat.mod_eq_of_lt fits] at mapped
  have loads : 4 + 8 * (maxNumberOfObjects.toNat + 2) ≤
      (create pShm objectSize maxNumberOfObjects).mappedBytes := by
    rw [mapped]
    omega
  exact ⟨addressable_create (by omega), fun _ => sized, loads⟩

/-- The allocator is correct after every sequence of calls that return only outstanding
objects if and only if an object has a size and the pages mapped for the wrapped total size
hold the free list and the word behind it. Then the count and the free list agree with what
is outstanding, and no slot is handed out twice or lost. -/
theorem allocatorWorks_iff : (create pShm objectSize maxNumberOfObjects).AllocatorWorks ↔
    (0 < maxNumberOfObjects.toNat → 0 < objectSize.toNat) ∧
      4 + 8 * (maxNumberOfObjects.toNat + 2) ≤
        ((4 + 8 + 8 * maxNumberOfObjects.toNat +
          maxNumberOfObjects.toNat * objectSize.toNat) % 2 ^ 32 + 4095) / 4096 * 4096 := by
  rw [← mappedBytes_create pShm]
  constructor
  · intro works
    obtain ⟨area, constructed, -⟩ := id works
    have fits := (createArea_eq_some_iff.mp constructed).1
    have serviceable := works.serviceable (addressable_create fits)
    exact ⟨serviceable.sized, serviceable.loads⟩
  · rintro ⟨sized, loads⟩
    have addressable : (create pShm objectSize maxNumberOfObjects).Addressable := by
      refine addressable_create ?_
      omega
    exact Serviceable.allocatorWorks ⟨addressable, sized, loads⟩

end Sizes

/-- The management area of 2 ^ 29 objects of one byte wraps, and the loop that sets the
free list up runs off the mapping. -/
theorem allocatorWorks_wraps :
    (create 0 1 536870912).createArea SharedManagementArea.zeroFilled = none ∧
      ¬ (create 0 1 536870912).AllocatorWorks := by
  have overrun : (create 0 1 536870912).createArea SharedManagementArea.zeroFilled = none := by
    refine Option.eq_none_iff_forall_ne_some.mpr fun area constructed => ?_
    have fits := (createArea_eq_some_iff.mp constructed).1
    exact absurd fits (by decide)
  refine ⟨overrun, ?_⟩
  rintro ⟨area, constructed, -⟩
  rw [overrun] at constructed
  cases constructed

/-- Two slots of sixteen bytes. -/
example : (create 0 16 2).AllocatorWorks :=
  Serviceable.allocatorWorks ⟨addressable_create (by decide), by decide, by decide⟩

end MemoryPool

end TimerAndCallback
