import Mathlib

/-! # A free list threaded through an array

`next` is the array and `first` the head: the list is what is visited by
following `next` from `first` until `stop`. Slots that are not on the list keep
whatever link they last had, so the list is described by what it visits and not
by the array as a whole.
-/

namespace FreeList

/-- Following `next` from `first` visits exactly `visited`, in order, and then
stands at `stop`. -/
def Follows (next : Nat → Nat) : Nat → List Nat → Nat → Prop
  | first, [], stop => first = stop
  | first, index :: rest, stop => first = index ∧ Follows next (next index) rest stop

/-- Links outside the visited slots do not matter. -/
theorem Follows.congr {next other : Nat → Nat} {first stop : Nat} {visited : List Nat}
    (follows : Follows next first visited stop)
    (agree : ∀ index ∈ visited, other index = next index) :
    Follows other first visited stop := by
  induction visited generalizing first with
  | nil => exact follows
  | cons index rest ih =>
      obtain ⟨rfl, tail⟩ := follows
      refine ⟨rfl, ?_⟩
      rw [agree first List.mem_cons_self]
      exact ih tail fun index member => agree index (List.mem_cons_of_mem _ member)

/-- Linking an unvisited slot to the head puts it in front of the list. -/
theorem Follows.push {next : Nat → Nat} {first stop : Nat} {visited : List Nat}
    (follows : Follows next first visited stop) {freed : Nat} (fresh : freed ∉ visited) :
    Follows (Function.update next freed first) freed (freed :: visited) stop := by
  refine ⟨rfl, ?_⟩
  rw [Function.update_self]
  refine follows.congr fun index member => Function.update_of_ne ?_ _ _
  rintro rfl
  exact fresh member

/-- A list that links every slot to its successor visits a whole range. -/
theorem follows_successors {next : Nat → Nat} (first length : Nat)
    (successor : ∀ index, first ≤ index → index < first + length → next index = index + 1) :
    Follows next first (List.range' first length) (first + length) := by
  induction length generalizing first with
  | zero => rfl
  | succ length ih =>
      rw [List.range'_succ]
      refine ⟨rfl, ?_⟩
      rw [successor first (Nat.le_refl first) (by omega),
        show first + (length + 1) = first + 1 + length by omega]
      exact ih (first + 1) fun index lower upper => successor index (by omega) (by omega)

/-- The list visits every slot below `size` that is not in use, once. -/
structure Covers (next : Nat → Nat) (first size : Nat) (used : Nat → Prop)
    (visited : List Nat) : Prop where
  follows : Follows next first visited size
  nodup : visited.Nodup
  mem_iff : ∀ index, index ∈ visited ↔ index < size ∧ ¬ used index

/-- The list is exhausted exactly when every slot is in use. -/
theorem Covers.eq_nil_iff {next : Nat → Nat} {first size : Nat} {used : Nat → Prop}
    {visited : List Nat} (covers : Covers next first size used visited) :
    visited = [] ↔ ∀ index < size, used index := by
  rw [List.eq_nil_iff_forall_not_mem]
  refine forall_congr' fun index => ?_
  rw [covers.mem_iff, not_and, not_not]

/-- Taking the head removes one slot that was not in use. -/
theorem Covers.pop {next : Nat → Nat} {first size index : Nat} {used : Nat → Prop}
    {rest : List Nat} (covers : Covers next first size used (index :: rest)) :
    first = index ∧ index < size ∧ ¬ used index ∧
      Covers next (next index) size (fun other => other = index ∨ used other) rest := by
  obtain ⟨head, tail⟩ := covers.follows
  obtain ⟨bound, unused⟩ := (covers.mem_iff index).mp List.mem_cons_self
  obtain ⟨fresh, nodup⟩ := List.nodup_cons.mp covers.nodup
  refine ⟨head, bound, unused, tail, nodup, fun other => ?_⟩
  have inWhole := covers.mem_iff other
  rw [List.mem_cons] at inWhole
  constructor
  · intro member
    obtain ⟨otherBound, otherUnused⟩ := inWhole.mp (Or.inr member)
    refine ⟨otherBound, ?_⟩
    rintro (rfl | inUse)
    · exact fresh member
    · exact otherUnused inUse
  · rintro ⟨otherBound, notUsed⟩
    rcases inWhole.mpr ⟨otherBound, fun inUse => notUsed (Or.inr inUse)⟩ with rfl | member
    · exact absurd (Or.inl rfl) notUsed
    · exact member

/-- Returning a slot in use puts it back, in front. -/
theorem Covers.push {next : Nat → Nat} {first size index : Nat} {used : Nat → Prop}
    {visited : List Nat} (covers : Covers next first size used visited) (bound : index < size)
    (inUse : used index) :
    Covers (Function.update next index first) index size
      (fun other => other ≠ index ∧ used other) (index :: visited) := by
  have fresh : index ∉ visited := fun member => ((covers.mem_iff index).mp member).2 inUse
  refine ⟨covers.follows.push fresh, List.nodup_cons.mpr ⟨fresh, covers.nodup⟩, fun other => ?_⟩
  rw [List.mem_cons, covers.mem_iff]
  by_cases same : other = index
  · simp only [same, bound, ne_eq, not_true_eq_false, false_and, not_false_eq_true, and_self,
      true_or]
  · simp only [same, false_or, ne_eq, not_false_eq_true, true_and]

/-- The list only depends on which slots are in use. -/
theorem Covers.congr {next : Nat → Nat} {first size : Nat} {used others : Nat → Prop}
    {visited : List Nat} (covers : Covers next first size used visited)
    (agree : ∀ index < size, used index ↔ others index) :
    Covers next first size others visited := by
  refine ⟨covers.follows, covers.nodup, fun index => ?_⟩
  rw [covers.mem_iff]
  exact and_congr_right fun bound => not_congr (agree index bound)

end FreeList
