import Mathlib

/-! # The entries of an array prefix

An array is a function from slot indices. Its first `count` slots, read as a
multiset, are what a collection stored in the array holds; the slots past them
are stale and do not enter.
-/

namespace SlotEntries

variable {Entry : Type*}

/-- The multiset of entries in the slots below `count`. -/
def entries (count : Nat) (slots : Nat → Entry) : Multiset Entry :=
  (Multiset.range count).map slots

@[simp] theorem entries_zero (slots : Nat → Entry) : entries 0 slots = 0 := rfl

/-- One more slot is one more entry. -/
theorem entries_succ (count : Nat) (slots : Nat → Entry) :
    entries (count + 1) slots = slots count ::ₘ entries count slots := by
  unfold entries
  rw [Multiset.range_succ, Multiset.map_cons]

/-- There are as many entries as slots. -/
@[simp] theorem card_entries (count : Nat) (slots : Nat → Entry) :
    (entries count slots).card = count := by
  unfold entries
  rw [Multiset.card_map, Multiset.card_range]

/-- The entries are what the slots hold. -/
theorem mem_entries {count : Nat} {slots : Nat → Entry} {entry : Entry} :
    entry ∈ entries count slots ↔ ∃ index < count, slots index = entry := by
  unfold entries
  simp only [Multiset.mem_map, Multiset.mem_range]

/-- An entry that is in the last slot and in an earlier one is there twice. -/
theorem one_lt_count_entries [DecidableEq Entry] {count index : Nat} {slots : Nat → Entry}
    (bound : index < count) (same : slots index = slots count) :
    1 < (entries (count + 1) slots).count (slots count) := by
  rw [entries_succ, Multiset.count_cons_self]
  exact Nat.succ_lt_succ (Multiset.count_pos.mpr (mem_entries.mpr ⟨index, bound, same⟩))

/-- An entry that is there twice is in another slot than the last. -/
theorem exists_of_one_lt_count_entries [DecidableEq Entry] {count : Nat} {slots : Nat → Entry}
    {entry : Entry} (twice : 1 < (entries count slots).count entry) :
    ∃ index, index + 1 < count ∧ slots index = entry := by
  cases count with
  | zero => exact absurd twice (Nat.not_lt.mpr (Nat.zero_le 1))
  | succ last =>
      rw [entries_succ] at twice
      have earlier : entry ∈ entries last slots := by
        apply Multiset.count_pos.mp
        have atMost := Multiset.count_cons entry (slots last) (entries last slots)
        split_ifs at atMost <;> omega
      obtain ⟨index, bound, holds⟩ := mem_entries.mp earlier
      exact ⟨index, Nat.succ_lt_succ bound, holds⟩

/-- Only the slots below the count matter. -/
theorem entries_congr {count : Nat} {slots others : Nat → Entry}
    (agree : ∀ index < count, slots index = others index) :
    entries count slots = entries count others :=
  Multiset.map_congr rfl fun index member => agree index (Multiset.mem_range.mp member)

/-- Exchanging two slots below the count rearranges the entries. -/
theorem entries_swap {count first second : Nat} (firstBound : first < count)
    (secondBound : second < count) (slots : Nat → Entry) :
    entries count (slots ∘ Equiv.swap first second) = entries count slots := by
  have permuted : (Multiset.range count).map (Equiv.swap first second) = Multiset.range count := by
    refine (Multiset.Nodup.ext ((Multiset.nodup_range count).map
      (Equiv.swap first second).injective) (Multiset.nodup_range count)).mpr fun index => ?_
    simp only [Multiset.mem_map, Multiset.mem_range]
    constructor
    · rintro ⟨source, bound, rfl⟩
      rw [Equiv.swap_apply_def]
      split_ifs
      · exact secondBound
      · exact firstBound
      · exact bound
    · intro bound
      refine ⟨Equiv.swap first second index, ?_, Equiv.swap_apply_self _ _ _⟩
      rw [Equiv.swap_apply_def]
      split_ifs
      · exact secondBound
      · exact firstBound
      · exact bound
  unfold entries
  rw [← Multiset.map_map, permuted]

/-- Writing a slot at or past the count changes no entry. -/
theorem entries_update_of_le {count index : Nat} (past : count ≤ index) (slots : Nat → Entry)
    (entry : Entry) : entries count (Function.update slots index entry) = entries count slots :=
  entries_congr fun other bound => Function.update_of_ne (by omega) _ _

/-- Appending an entry at the first stale slot adds it. -/
theorem entries_append (count : Nat) (slots : Nat → Entry) (entry : Entry) :
    entries (count + 1) (Function.update slots count entry) = entry ::ₘ entries count slots := by
  rw [entries_succ, Function.update_self, entries_update_of_le le_rfl]

/-- Moving the last entry into a hole and shrinking by one removes the hole's
entry and nothing else. The hole may be the last slot itself. -/
theorem entries_fill {count hole : Nat} (bound : hole ≤ count) (slots : Nat → Entry) :
    entries (count + 1) slots =
      slots hole ::ₘ entries count (Function.update slots hole (slots count)) := by
  have moved : entries count (Function.update slots hole (slots count)) =
      entries count (slots ∘ Equiv.swap hole count) := by
    refine entries_congr fun index below => ?_
    rw [Function.comp_apply]
    by_cases same : index = hole
    · rw [same, Function.update_self, Equiv.swap_apply_left]
    · rw [Function.update_of_ne same, Equiv.swap_apply_of_ne_of_ne same (by omega)]
  calc entries (count + 1) slots
      = entries (count + 1) (slots ∘ Equiv.swap hole count) :=
        (entries_swap (by omega) (by omega) slots).symm
    _ = slots hole ::ₘ entries count (slots ∘ Equiv.swap hole count) := by
        rw [entries_succ, Function.comp_apply, Equiv.swap_apply_right]
    _ = slots hole ::ₘ entries count (Function.update slots hole (slots count)) := by
        rw [moved]

end SlotEntries
