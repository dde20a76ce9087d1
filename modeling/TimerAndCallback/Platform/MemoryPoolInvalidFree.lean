import TimerAndCallback.Platform.MemoryPoolAllocator

/-! # Returning what the pool did not hand out

Here `removeFromPool` takes any pointer: an address outside the pool, one inside an
object, or an object returned before. A pool with an allocation rejects none of them: it
takes the count down or accesses what is not mapped. Such a call is harmless only while the
pool is empty. Calls that are made so lead through the states that calls with outstanding
objects alone lead through.
-/

namespace TimerAndCallback

namespace MemoryPool

open Execution

/-- The shared area, and the objects clients hold, each as often as it was handed out. -/
structure Clients where
  area : SharedManagementArea
  outstanding : List UInt64

/-- One call, which may return any pointer. -/
def callWithAny (pool : MemoryPool) (clients : Clients) : PoolCall → Option Clients
  | .getFromPool =>
      (pool.getFromPool clients.area).map fun
        | (none, area) => { clients with area := area }
        | (some object, area) =>
            { area := area, outstanding := object :: clients.outstanding }
  | .removeFromPool object =>
      (pool.removeFromPool clients.area object).map fun area =>
        { area := area, outstanding := clients.outstanding.erase object }

namespace Clients

/-- Clients return an object they hold, or any pointer while the pool is empty. -/
def ReturnsValid (clients : Clients) : PoolCall → Prop
  | .getFromPool => True
  | .removeFromPool object =>
      object ∈ clients.outstanding ∨ clients.area.numberAllocated = 0

instance (clients : Clients) (call : PoolCall) : Decidable (clients.ReturnsValid call) :=
  match call with
  | .getFromPool => isTrue trivial
  | .removeFromPool _ => by unfold ReturnsValid; infer_instance

/-- What clients hold are slots of the pool, and no two of them are the same slot. -/
structure OwnSlots (pool : MemoryPool) (clients : Clients) : Prop where
  inSlots : ∀ object ∈ clients.outstanding, ∃ index, pool.IsSlot index object
  apart : clients.outstanding.Pairwise fun first second =>
    ∀ index, pool.IsSlot index first → ¬ pool.IsSlot index second

/-- The state of a run in which only outstanding objects are returned. -/
def poolRun (clients : Clients) : PoolRun := ⟨clients.area, clients.outstanding.toFinset⟩

/-- No object is held twice, and the allocator invariant holds. -/
structure Sound (pool : MemoryPool) (clients : Clients) : Prop where
  nodup : clients.outstanding.Nodup
  invariant : clients.poolRun.Invariant pool

variable {pool : MemoryPool} {clients next : Clients}

/-- Objects of one slot have one address. -/
theorem Sound.ownSlots (sound : clients.Sound pool) : clients.OwnSlots pool := by
  refine ⟨fun object member => ?_, sound.nodup.imp ?_⟩
  · exact sound.invariant.inSlots object (List.mem_toFinset.mpr member)
  · intro first second different index firstSlot secondSlot
    exact different (firstSlot.2.trans secondSlot.2.symm)

/-- A request leads where it leads when only outstanding objects are returned. -/
theorem Sound.getFromPool (sound : clients.Sound pool) (addressable : pool.Addressable)
    (called : pool.callWithAny clients .getFromPool = some next) : next.Sound pool := by
  obtain ⟨⟨answer, area⟩, ran, rfl⟩ := Option.map_eq_some_iff.mp called
  have requested := sound.invariant.sound.getFromPool ran
  have followed : pool.callPool clients.poolRun .getFromPool = some (match answer with
      | none => ⟨area, clients.outstanding.toFinset⟩
      | some object => ⟨area, insert object clients.outstanding.toFinset⟩) := by
    simp only [callPool, poolRun, ran, Option.map_some]
    cases answer <;> rfl
  have kept := sound.invariant.getFromPool addressable followed
  cases answer with
  | none => exact ⟨sound.nodup, kept⟩
  | some object =>
      have fresh : object ∉ clients.outstanding := by
        cases requested with
        | granted index _ bound unused => exact fun member => unused (List.mem_toFinset.mpr member)
      refine ⟨List.nodup_cons.mpr ⟨fresh, sound.nodup⟩, ?_⟩
      rw [poolRun, List.toFinset_cons]
      exact kept

/-- So does the return of an object that is held. -/
theorem Sound.removeFromPool (sound : clients.Sound pool) (addressable : pool.Addressable)
    {object : UInt64} (held : object ∈ clients.outstanding)
    (called : pool.callWithAny clients (.removeFromPool object) = some next) :
    next.Sound pool := by
  obtain ⟨area, ran, rfl⟩ := Option.map_eq_some_iff.mp called
  have erased : (clients.outstanding.erase object).toFinset =
      clients.outstanding.toFinset.erase object := by
    ext other
    rw [List.mem_toFinset, sound.nodup.mem_erase_iff, Finset.mem_erase, List.mem_toFinset]
  have followed : pool.callPool clients.poolRun (.removeFromPool object) =
      some ⟨area, (clients.outstanding.erase object).toFinset⟩ := by
    have member : object ∈ clients.outstanding.toFinset := List.mem_toFinset.mpr held
    simp only [callPool, poolRun, member, if_true, ran, Option.map_some, erased]
  exact ⟨sound.nodup.erase object, sound.invariant.removeFromPool addressable followed⟩

end Clients

/-- A return leaves the area as it is exactly when the pool is empty: in a pool with an
allocation the count goes down. -/
theorem removeFromPool_eq_self_iff {pool : MemoryPool} (mapped : 4 ≤ pool.mappedBytes)
    (area : SharedManagementArea) (object : UInt64) :
    pool.removeFromPool area object = some area ↔
      0 < pool.objectSize.toNat ∧ area.numberAllocated = 0 := by
  rw [removeFromPool_eq_some_iff]
  refine and_congr_right fun _ => ?_
  constructor
  · rintro ⟨-, ⟨empty, -⟩ | ⟨allocated, -, -, same⟩⟩
    · exact empty
    · have counts := congrArg SharedManagementArea.numberAllocated same
      dsimp only at counts
      grind
  · exact fun empty => ⟨mapped, Or.inl ⟨empty, rfl⟩⟩

open Clients

/-- Every call that returns valid objects only keeps the clients sound. -/
theorem Clients.Sound.call {pool : MemoryPool} {clients next : Clients}
    (sound : clients.Sound pool) (addressable : pool.Addressable) {call : PoolCall}
    (valid : clients.ReturnsValid call) (called : pool.callWithAny clients call = some next) :
    next.Sound pool := by
  cases call with
  | getFromPool => exact sound.getFromPool addressable called
  | removeFromPool object =>
      by_cases held : object ∈ clients.outstanding
      · exact sound.removeFromPool addressable held called
      · have empty := valid.resolve_left held
        obtain ⟨area, ran, rfl⟩ := Option.map_eq_some_iff.mp called
        obtain ⟨-, -, ⟨-, rfl⟩ | ⟨allocated, -⟩⟩ := removeFromPool_eq_some_iff.mp ran
        · rw [List.erase_of_not_mem held]
          exact sound
        · exact absurd empty allocated

/-- In every state that calls with any pointers lead to, returning what is not
outstanding changes nothing if and only if an object has a size and the pool is empty; and
as long as the pool is empty at each such return, no two outstanding objects share a slot. -/
theorem invalidFree_rejected_iff {pShm : UInt64} {objectSize maxNumberOfObjects : UInt32}
    {area : SharedManagementArea}
    (constructed : (create pShm objectSize maxNumberOfObjects).createArea
      SharedManagementArea.zeroFilled = some area) (calls : List PoolCall) :
    Always (create pShm objectSize maxNumberOfObjects).callWithAny
        (fun clients => ∀ object ∉ clients.outstanding,
          ((create pShm objectSize maxNumberOfObjects).removeFromPool clients.area object =
              some clients.area ↔
            0 < objectSize.toNat ∧ clients.area.numberAllocated = 0))
        ⟨area, []⟩ calls ∧
      (Along (create pShm objectSize maxNumberOfObjects).callWithAny ReturnsValid ⟨area, []⟩ calls →
        Always (create pShm objectSize maxNumberOfObjects).callWithAny
          (OwnSlots (create pShm objectSize maxNumberOfObjects)) ⟨area, []⟩ calls) := by
  have fits := (createArea_eq_some_iff.mp constructed).1
  constructor
  · intro _ clients _ _ object _
    exact removeFromPool_eq_self_iff (by omega) clients.area object
  · obtain ⟨-, rfl⟩ := createArea_eq_some_iff.mp constructed
    refine Always.of_along (Clients.Sound (create pShm objectSize maxNumberOfObjects))
      (fun _ sound => sound.ownSlots) ?_ ⟨List.nodup_nil, createRun_invariant _⟩
    intro clients call next sound valid called
    exact sound.call (addressable_create fits) valid called

/-- The area that the constructor of a pool of two objects of sixteen bytes leaves. -/
theorem createArea_two : (create 0 16 2).createArea SharedManagementArea.zeroFilled =
    some ((create 0 16 2).linkedArea SharedManagementArea.zeroFilled) :=
  createArea_eq_some_iff.mpr ⟨by decide, rfl⟩

/-- Returned while the pool is empty, a pointer into the management area does not
disturb the two objects handed out afterwards. -/
theorem invalidFree_rejected_iff_empty :
    Always (create 0 16 2).callWithAny (OwnSlots (create 0 16 2))
      ⟨(create 0 16 2).linkedArea SharedManagementArea.zeroFilled, []⟩
      [.removeFromPool 12, .getFromPool, .getFromPool] :=
  (invalidFree_rejected_iff createArea_two _).2 (by decide +kernel)

/-- An object is returned twice, and the next two requests hand it out to both clients. -/
theorem doubleFree_hands_out_twice : ∃ area freed final,
    (create 0 16 2).createArea SharedManagementArea.zeroFilled = some area ∧
      exec (create 0 16 2).callWithAny ⟨area, []⟩
        [.getFromPool, .getFromPool, .removeFromPool 28] = some freed ∧
      28 ∉ freed.outstanding ∧
      (create 0 16 2).removeFromPool freed.area 28 ≠ some freed.area ∧
      exec (create 0 16 2).callWithAny freed
        [.removeFromPool 28, .getFromPool, .getFromPool] = some final ∧
      ¬ final.OwnSlots (create 0 16 2) := by
  have whole : (exec (create 0 16 2).callWithAny
      ⟨(create 0 16 2).linkedArea SharedManagementArea.zeroFilled, []⟩
      ([.getFromPool, .getFromPool, .removeFromPool 28] ++
        [.removeFromPool 28, .getFromPool, .getFromPool])).map Clients.outstanding =
      some [28, 28, 44] := by decide +kernel
  have front : (exec (create 0 16 2).callWithAny
      ⟨(create 0 16 2).linkedArea SharedManagementArea.zeroFilled, []⟩
      [.getFromPool, .getFromPool, .removeFromPool 28]).map
        (fun clients => (clients.outstanding, clients.area.numberAllocated)) =
      some ([44], 1) := by decide +kernel
  obtain ⟨final, executed, held⟩ := Option.map_eq_some_iff.mp whole
  obtain ⟨freed, reached, left⟩ := exec_append_eq_some.mp executed
  rw [reached, Option.map_some, Option.some.injEq, Prod.mk.injEq] at front
  refine ⟨_, freed, final, createArea_two, reached, ?_, fun unchanged => ?_, left, fun own => ?_⟩
  · rw [front.1]
    decide
  · have empty := ((removeFromPool_eq_self_iff (by decide) _ _).mp unchanged).2
    exact absurd (front.2.symm.trans empty) (by decide)
  · have apart := own.apart
    rw [held, List.pairwise_cons] at apart
    have slot : (create 0 16 2).IsSlot 0 28 := ⟨by decide, by decide⟩
    exact apart.1 28 List.mem_cons_self 0 slot slot

/-- The pointer before the first slot has the index of `*pFirstFree`, which the pool then
takes for the first free slot: the request after it hands the pointer out, and so does the
next one. -/
example : (exec (create 0 16 2).callWithAny
      ⟨(create 0 16 2).linkedArea SharedManagementArea.zeroFilled, []⟩
      [.getFromPool, .removeFromPool 12, .getFromPool, .getFromPool]).map Clients.outstanding =
    some [12, 12, 28] := by
  decide +kernel

end MemoryPool

end TimerAndCallback
