import Mathlib

/-! # Order in an implicit binary heap

Slot `i` of an array has children `2 * i + 1` and `2 * i + 2`; the array is
ordered when no slot has a smaller key than its parent. A sift carries one slot
whose place is not settled. `UpOrdered` and `DownOrdered` say what still holds
around it, and each exchange moves the unsettled slot one level.
-/

namespace HeapOrder

variable {Key : Type*} [LinearOrder Key]

/-- The slot above `index`; slot `0` has none, although its value is `0`. -/
def parent (index : Nat) : Nat := (index - 1) / 2

/-- A parent comes before its children. -/
theorem parent_lt {index : Nat} (positive : 0 < index) : parent index < index := by
  unfold parent
  omega

@[simp] theorem parent_left (index : Nat) : parent (2 * index + 1) = index := by
  unfold parent
  omega

@[simp] theorem parent_right (index : Nat) : parent (2 * index + 2) = index := by
  unfold parent
  omega

/-- A slot is the left or the right child of its parent. -/
theorem eq_child_of_parent {index above : Nat} (positive : 0 < index)
    (child : parent index = above) : index = 2 * above + 1 ∨ index = 2 * above + 2 := by
  unfold parent at child
  omega

/-- No slot below `count` has a smaller key than its parent. -/
def Ordered (count : Nat) (key : Nat → Key) : Prop :=
  ∀ index, 0 < index → index < count → key (parent index) ≤ key index

/-- Fewer slots of an ordered heap are ordered. -/
theorem Ordered.mono {count fewer : Nat} {key : Nat → Key} (ordered : Ordered count key)
    (le : fewer ≤ count) : Ordered fewer key :=
  fun index positive bound => ordered index positive (by omega)

/-- The root of an ordered heap has the least key. -/
theorem Ordered.root_le {count : Nat} {key : Nat → Key} (ordered : Ordered count key)
    {index : Nat} (bound : index < count) : key 0 ≤ key index := by
  induction index using Nat.strongRecOn with
  | ind index ih =>
      rcases Nat.eq_zero_or_pos index with rfl | positive
      · exact le_rfl
      · have above := parent_lt positive
        exact (ih (parent index) above (by omega)).trans (ordered index positive bound)

/-- The slots of the subtree under a slot, that slot included. -/
inductive Below (root : Nat) : Nat → Prop
  | root : Below root root
  | child (index : Nat) (positive : 0 < index) (above : Below root (parent index)) :
      Below root index

/-- Slots below a root come after it. -/
theorem Below.le {root index : Nat} (below : Below root index) : root ≤ index := by
  induction below with
  | root => exact le_rfl
  | child index positive above ih => exact ih.trans (Nat.le_of_lt (parent_lt positive))

/-- Slots below a slot below the root are below the root. -/
theorem Below.trans {root middle index : Nat} (upper : Below root middle)
    (lower : Below middle index) : Below root index := by
  induction lower with
  | root => exact upper
  | child index positive above ih => exact .child index positive ih

/-- No key in a subtree is smaller than the key above its root. -/
theorem Ordered.parent_le_of_below {count : Nat} {key : Nat → Key} (ordered : Ordered count key)
    {root index : Nat} (positive : 0 < root) (below : Below root index) (bound : index < count) :
    key (parent root) ≤ key index := by
  induction below with
  | root => exact ordered root positive bound
  | child index indexPositive above ih =>
      have higher := parent_lt indexPositive
      exact (ih (by omega)).trans (ordered index indexPositive bound)

/-- Every edge but the one above `hole` is in order, and the children of `hole`
are in order with its parent. -/
structure UpOrdered (count hole : Nat) (key : Nat → Key) : Prop where
  off : ∀ index, 0 < index → index < count → index ≠ hole → key (parent index) ≤ key index
  grand : 0 < hole → ∀ child, 0 < child → child < count → parent child = hole →
    key (parent hole) ≤ key child

/-- Every edge but those below `hole` is in order, and the children of `hole`
are in order with its parent. -/
structure DownOrdered (count hole : Nat) (key : Nat → Key) : Prop where
  off : ∀ index, 0 < index → index < count → parent index ≠ hole →
    key (parent index) ≤ key index
  grand : 0 < hole → ∀ child, 0 < child → child < count → parent child = hole →
    key (parent hole) ≤ key child

/-- An unsettled slot that is in order with its parent settles. -/
theorem UpOrdered.settle {count hole : Nat} {key : Nat → Key} (up : UpOrdered count hole key)
    (above : 0 < hole → key (parent hole) ≤ key hole) : Ordered count key := by
  intro index positive bound
  by_cases same : index = hole
  · subst same
    exact above positive
  · exact up.off index positive bound same

/-- Exchanging the unsettled slot with a parent that is not smaller leaves only
the parent's slot unsettled. -/
theorem UpOrdered.ascend {count hole : Nat} {key : Nat → Key} (up : UpOrdered count hole key)
    (positive : 0 < hole) (bound : hole < count) (le : key hole ≤ key (parent hole)) :
    UpOrdered count (parent hole) (key ∘ Equiv.swap hole (parent hole)) := by
  have above := parent_lt positive
  constructor
  · intro index indexPositive indexBound different
    simp only [Function.comp_apply]
    by_cases same : index = hole
    · subst same
      rw [Equiv.swap_apply_left, Equiv.swap_apply_right]
      exact le
    · rw [Equiv.swap_apply_of_ne_of_ne same different]
      by_cases below : parent index = hole
      · rw [below, Equiv.swap_apply_left]
        exact up.grand positive index indexPositive indexBound below
      · by_cases sibling : parent index = parent hole
        · rw [sibling, Equiv.swap_apply_right]
          exact le.trans (sibling ▸ up.off index indexPositive indexBound same)
        · rw [Equiv.swap_apply_of_ne_of_ne below sibling]
          exact up.off index indexPositive indexBound same
  · intro parentPositive child childPositive childBound childOf
    have higher := parent_lt parentPositive
    have parentEdge := up.off (parent hole) parentPositive (by omega) (by omega)
    simp only [Function.comp_apply]
    rw [Equiv.swap_apply_of_ne_of_ne (by omega : parent (parent hole) ≠ hole) (by omega)]
    by_cases same : child = hole
    · rw [same, Equiv.swap_apply_left]
      exact parentEdge
    · have lower := parent_lt childPositive
      rw [Equiv.swap_apply_of_ne_of_ne same (by omega)]
      exact parentEdge.trans (childOf ▸ up.off child childPositive childBound same)

/-- An unsettled slot that is in order with its children settles. -/
theorem DownOrdered.settle {count hole : Nat} {key : Nat → Key}
    (down : DownOrdered count hole key)
    (below : ∀ child, 0 < child → child < count → parent child = hole → key hole ≤ key child) :
    Ordered count key := by
  intro index positive bound
  by_cases same : parent index = hole
  · rw [same]
    exact below index positive bound same
  · exact down.off index positive bound same

/-- Exchanging the unsettled slot with its least child, when that child is not
greater, leaves only the child's slot unsettled. -/
theorem DownOrdered.descend {count hole child : Nat} {key : Nat → Key}
    (down : DownOrdered count hole key) (positive : 0 < child) (bound : child < count)
    (childOf : parent child = hole)
    (least : ∀ other, 0 < other → other < count → parent other = hole → key child ≤ key other)
    (le : key child ≤ key hole) :
    DownOrdered count child (key ∘ Equiv.swap child hole) := by
  have above := parent_lt positive
  constructor
  · intro index indexPositive indexBound different
    have higher := parent_lt indexPositive
    simp only [Function.comp_apply]
    by_cases same : index = child
    · subst same
      rw [Equiv.swap_apply_left, childOf, Equiv.swap_apply_right]
      exact le
    · by_cases atHole : index = hole
      · subst atHole
        rw [Equiv.swap_apply_right, Equiv.swap_apply_of_ne_of_ne different (by omega)]
        exact down.grand indexPositive child positive bound childOf
      · rw [Equiv.swap_apply_of_ne_of_ne same atHole]
        by_cases sibling : parent index = hole
        · rw [sibling, Equiv.swap_apply_right]
          exact least index indexPositive indexBound sibling
        · rw [Equiv.swap_apply_of_ne_of_ne different sibling]
          exact down.off index indexPositive indexBound sibling
  · intro _ lower lowerPositive lowerBound lowerOf
    have deeper := parent_lt lowerPositive
    simp only [Function.comp_apply]
    rw [childOf, Equiv.swap_apply_right, Equiv.swap_apply_of_ne_of_ne (by omega) (by omega)]
    exact lowerOf ▸ down.off lower lowerPositive lowerBound (by omega)

/-- A heap whose root key is replaced is unsettled at the root only. -/
theorem Ordered.downOrdered_root {count : Nat} {key replaced : Nat → Key}
    (ordered : Ordered count key) (agree : ∀ index, 0 < index → index < count →
      replaced index = key index) : DownOrdered count 0 replaced where
  off index positive bound different := by
    have above := parent_lt positive
    rw [agree index positive bound, agree (parent index) (by omega) (by omega)]
    exact ordered index positive bound
  grand positive := absurd positive (Nat.lt_irrefl 0)

/-- A heap extended by one slot is unsettled at that slot only. -/
theorem Ordered.upOrdered_last {count : Nat} {key extended : Nat → Key}
    (ordered : Ordered count key) (agree : ∀ index < count, extended index = key index) :
    UpOrdered (count + 1) count extended where
  off index positive bound different := by
    have above := parent_lt positive
    rw [agree index (by omega), agree (parent index) (by omega)]
    exact ordered index positive (by omega)
  grand _ child positive bound childOf := by
    have above := parent_lt positive
    omega

/-- Whether the path from the root that goes to the lesser child at each slot,
and to the right child on a tie, runs through `index`. -/
def onLesserPath (key : Nat → Key) (index : Nat) : Bool :=
  if _root : index = 0 then true
  else
    (if index % 2 = 1 then decide (key index < key (index + 1))
      else decide (key index ≤ key (index - 1))) &&
      onLesserPath key (parent index)
termination_by index
decreasing_by exact parent_lt (Nat.pos_of_ne_zero _root)

@[simp] theorem onLesserPath_root (key : Nat → Key) : onLesserPath key 0 = true := by
  rw [onLesserPath]
  rfl

/-- The path goes left to a lesser left child. -/
theorem onLesserPath_left (key : Nat → Key) (index : Nat) :
    onLesserPath key (2 * index + 1) = true ↔
      key (2 * index + 1) < key (2 * index + 2) ∧ onLesserPath key index = true := by
  rw [onLesserPath, dif_neg (by omega), if_pos (by omega), parent_left, Bool.and_eq_true,
    decide_eq_true_eq]

/-- The path goes right to a right child that is no greater. -/
theorem onLesserPath_right (key : Nat → Key) (index : Nat) :
    onLesserPath key (2 * index + 2) = true ↔
      key (2 * index + 2) ≤ key (2 * index + 1) ∧ onLesserPath key index = true := by
  rw [onLesserPath, dif_neg (by omega), if_neg (by omega), parent_right, Bool.and_eq_true,
    decide_eq_true_eq, Nat.add_sub_assoc (by omega)]

end HeapOrder
