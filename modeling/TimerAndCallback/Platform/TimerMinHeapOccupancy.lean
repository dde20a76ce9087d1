import TimerAndCallback.Platform.TimerMinHeapLastSlot
import TimerAndCallback.Foundation.Outcomes

/-! # What one timer can tell of the heap

A caller that adds and removes a single timer sees little of the heap: how often the
timer is in it, how many other entries there are, whether the timer is in the last
slot, and which stale slots point to it. This is enough to follow its calls, but for
where a sift leaves the timer: both places are then among the outcomes.
-/

namespace TimerAndCallback

/-- What there is of one timer in the heap. -/
structure Occupancy where
  /-- How often the timer is in the heap. -/
  count : Nat
  /-- How many entries the heap has besides. -/
  others : Nat
  /-- The timer is in the last slot. -/
  last : Bool
  /-- The firing time above the first slot past the count, where it is known. -/
  above : Option Nat
  /-- The slots past the count, of the first three, that point to the timer. -/
  stale : Finset Nat
  deriving DecidableEq

namespace Occupancy

open Outcomes

/-- `numberOfTimersBeingManaged`. -/
def total (occupancy : Occupancy) : Nat := occupancy.count + occupancy.others

/-- Whether the timer may be in the last slot once a sift has moved the entries. -/
def lastAfterSift (count others : Nat) : List Bool :=
  if count = 0 then [false] else if others = 0 then [true] else [false, true]

/-- The stale pointers once an entry was taken out: one in the last slot becomes stale. -/
def staleAfterRemoval (occupancy : Occupancy) : Finset Nat :=
  if occupancy.last ∧ occupancy.total ≤ 3 then
    insert (occupancy.total - 1) occupancy.stale
  else
    occupancy.stale

/-- Searching for the timer, to take it out. -/
def search (occupancy : Occupancy) : List (Option Occupancy) :=
  if occupancy.total = 0 then
    if occupancy.stale = ∅ then [some occupancy] else [none]
  else if occupancy.count = 0 then
    if occupancy.total = 1 ∧ 1 ∈ occupancy.stale then
      [some { occupancy with others := 0, above := none, stale := occupancy.stale.erase 1 }]
    else
      [some occupancy]
  else if occupancy.count = 1 ∧ occupancy.last ∧ 4 ≤ occupancy.total then
    [some occupancy]
  else
    (lastAfterSift (occupancy.count - 1) occupancy.others).map fun last =>
      some ⟨occupancy.count - 1, occupancy.others, last, none, occupancy.staleAfterRemoval⟩

/-- Whether the timer, which fires at `time`, may stay in the slot it is added in. -/
def lastAfterAdd (time : Nat) (occupancy : Occupancy) : List Bool :=
  if occupancy.others = 0 then [true]
  else occupancy.above.elim [false, true] fun above => [decide (above < time)]

/-- Adding the timer. -/
def add (capacity time : Nat) (occupancy : Occupancy) : List (Option Occupancy) :=
  if capacity ≤ occupancy.total then [none]
  else
    (occupancy.lastAfterAdd time).map fun last =>
      some ⟨occupancy.count + 1, occupancy.others, last, none,
        occupancy.stale.erase occupancy.total⟩

/-- So many insertions to come, no sift can leave the timer in one place or another. -/
def Determined (insertions : Nat) (occupancy : Occupancy) : Prop :=
  occupancy.others = 0 ∨
    occupancy.count + insertions ≤ 1 ∧ (insertions = 0 ∨ occupancy.above.isSome)

variable {insertions : Nat} {occupancy : Occupancy}

/-- A search of a determined occupancy has one outcome, which is determined. -/
theorem Determined.search (determined : occupancy.Determined insertions) :
    Single (Determined insertions) occupancy.search := by
  unfold Occupancy.search
  split_ifs with empty inside absent drops missed
  · exact single_some determined
  · exact single_none
  · exact single_some (Or.inl rfl)
  · exact single_some determined
  · exact single_some determined
  · rcases determined with alone | ⟨few, _⟩
    · by_cases gone : occupancy.count - 1 = 0
      · rw [lastAfterSift, if_pos gone]
        exact single_some (Or.inl alone)
      · rw [lastAfterSift, if_neg gone, if_pos alone]
        exact single_some (Or.inl alone)
    · rw [lastAfterSift, if_pos (by omega)]
      exact single_some (Or.inr ⟨by dsimp only; omega, Or.inl (by omega)⟩)

/-- An insertion into a determined occupancy has one outcome, which is determined. -/
theorem Determined.add (determined : occupancy.Determined (insertions + 1))
    (capacity time : Nat) :
    Single (Determined insertions) (occupancy.add capacity time) := by
  unfold Occupancy.add
  split_ifs with full
  · exact single_none
  · unfold lastAfterAdd
    split_ifs with alone
    · exact single_some (Or.inl alone)
    · obtain ⟨few, known⟩ := determined.resolve_left alone
      obtain ⟨above, found⟩ := Option.isSome_iff_exists.mp
        (known.resolve_left (Nat.succ_ne_zero insertions))
      rw [found, Option.elim_some]
      exact single_some (Or.inr ⟨by dsimp only; omega, Or.inl (by omega)⟩)

end Occupancy

namespace TimerMinHeap

open HeapOrder Outcomes

variable {Ptr : Type} [DecidableEq Ptr]

/-- What there is of the timer in a heap. -/
def occupancy (whenToFire : Ptr → UInt64) (pTimer : Ptr) (minheap : TimerMinHeap Ptr) :
    Occupancy where
  count := minheap.contents.count (some pTimer)
  others := minheap.numberOfTimersBeingManaged - minheap.contents.count (some pTimer)
  last := decide (minheap.Ends pTimer)
  above :=
    if some pTimer ∈ minheap.contents ∨ minheap.numberOfTimersBeingManaged = 0 then none
    else some (minheap.keyAt whenToFire (parent minheap.numberOfTimersBeingManaged))
  stale := minheap.stale pTimer

/-- An occupancy describes a heap within its array. -/
structure Occupied (capacity : Nat) (whenToFire : Ptr → UInt64) (pTimer : Ptr)
    (occupancy : Occupancy) (minheap : TimerMinHeap Ptr) : Prop where
  room : minheap.numberOfTimersBeingManaged ≤ capacity
  filled : minheap.Filled minheap.numberOfTimersBeingManaged
  count : minheap.contents.count (some pTimer) = occupancy.count
  total : minheap.numberOfTimersBeingManaged = occupancy.total
  last : decide (minheap.Ends pTimer) = occupancy.last
  above : ∀ key ∈ occupancy.above, some pTimer ∉ minheap.contents ∧
    0 < minheap.numberOfTimersBeingManaged ∧
    minheap.keyAt whenToFire (parent minheap.numberOfTimersBeingManaged) = key
  stale : minheap.stale pTimer = occupancy.stale

variable {capacity : Nat} {whenToFire firing : Ptr → UInt64} {pTimer : Ptr}
  {occupancy : Occupancy} {minheap after : TimerMinHeap Ptr} {result : Result}

/-- A heap is described by its own occupancy. -/
theorem occupied (room : minheap.numberOfTimersBeingManaged ≤ capacity)
    (filled : minheap.Filled minheap.numberOfTimersBeingManaged) :
    Occupied capacity whenToFire pTimer (minheap.occupancy whenToFire pTimer) minheap where
  room := room
  filled := filled
  count := rfl
  total := by
    have atMost := Multiset.count_le_card (some pTimer) minheap.contents
    rw [card_contents] at atMost
    exact (Nat.add_sub_cancel' atMost).symm
  last := rfl
  above key known := by
    obtain ⟨outside, same⟩ := Option.ite_none_left_eq_some.mp known
    rw [not_or] at outside
    exact ⟨outside.1, Nat.pos_of_ne_zero outside.2, Option.some.inj same⟩
  stale := rfl

/-- Only the firing times of the others count. -/
theorem Occupied.congr (occupied : Occupied capacity whenToFire pTimer occupancy minheap)
    (agree : ∀ other, other ≠ pTimer → whenToFire other = firing other) :
    Occupied capacity firing pTimer occupancy minheap := by
  refine { occupied with above := fun key known => ?_ }
  obtain ⟨absent, positive, rfl⟩ := occupied.above key known
  refine ⟨absent, positive, ?_⟩
  have above := parent_lt positive
  obtain ⟨other, holds⟩ := Option.isSome_iff_exists.mp (occupied.filled _ above)
  have different : other ≠ pTimer := by
    rintro rfl
    exact absent (mem_contents.mpr ⟨_, above, holds⟩)
  rw [keyAt_of_eq_some holds, keyAt_of_eq_some holds, agree other different]

/-- Whether the timer is in the last slot is one of the possibilities that the numbers
of entries leave. -/
theorem mem_lastAfterSift {count others : Nat}
    (counted : minheap.contents.count (some pTimer) = count)
    (total : minheap.numberOfTimersBeingManaged = count + others) :
    decide (minheap.Ends pTimer) ∈ Occupancy.lastAfterSift count others := by
  unfold Occupancy.lastAfterSift
  split_ifs with absent only
  · rw [absent, Multiset.count_eq_zero] at counted
    rw [List.mem_singleton, decide_eq_false_iff_not]
    exact fun ends => counted ends.mem
  · rw [List.mem_singleton, decide_eq_true_eq]
    exact ends_of_only (by omega) (by omega)
  · cases decide (minheap.Ends pTimer) <;> simp only [List.mem_cons, true_or, or_true]

/-- The stale pointers that an entry taken out leaves. -/
theorem Occupied.stale_removed (occupied : Occupied capacity whenToFire pTimer occupancy minheap)
    (count : after.numberOfTimersBeingManaged + 1 = minheap.numberOfTimersBeingManaged)
    (past : ∀ other, minheap.numberOfTimersBeingManaged - 1 ≤ other →
      after.heap other = minheap.heap other) :
    after.stale pTimer = occupancy.staleAfterRemoval := by
  have inLast : occupancy.last = true ↔ minheap.Ends pTimer := by
    rw [← occupied.last, decide_eq_true_eq]
  ext index
  rw [mem_stale_removed count past, Occupancy.staleAfterRemoval, occupied.stale, ← inLast,
    occupied.total]
  have positive : 0 < occupancy.total := by
    rw [← occupied.total]
    omega
  split_ifs with both
  · rw [Finset.mem_insert, or_comm]
    refine or_congr_left ⟨fun last => by omega, fun last => ⟨by omega, both.2, both.1⟩⟩
  · exact or_iff_left fun last => both ⟨last.2.2, last.2.1⟩

/-- A search finds a timer that is in the heap, unless its only entry is in the last
slot of four or more. -/
theorem Removal.taken (removal : Removal pTimer minheap result after)
    (member : some pTimer ∈ minheap.contents)
    (reached : ¬ (minheap.contents.count (some pTimer) = 1 ∧ minheap.Misses pTimer)) :
    after.numberOfTimersBeingManaged + 1 = minheap.numberOfTimersBeingManaged ∧
      minheap.contents = some pTimer ::ₘ after.contents := by
  cases removal with
  | removed _ _ count contents => exact ⟨count, contents⟩
  | missed elsewhere last =>
      have positive := Multiset.count_pos.mpr member
      have once : ¬ 1 < minheap.contents.count (some pTimer) := by
        intro twice
        obtain ⟨index, inner, holds⟩ := SlotEntries.exists_of_one_lt_count_entries twice
        exact elsewhere index inner holds
      obtain ⟨index, bound, holds⟩ := mem_contents.mp member
      have final : index + 1 = minheap.numberOfTimersBeingManaged := by
        by_contra inner
        exact elsewhere index (by omega) holds
      refine absurd ⟨by omega, last index final holds, ?_⟩ reached
      rw [← final, Nat.add_sub_cancel]
      exact holds
  | dropped _ single top =>
      rw [contents_eq_singleton single, Multiset.mem_singleton] at member
      exact absurd member.symm top

/-- A search misses a timer whose only entry is in the last slot of four or more. -/
theorem Removal.unchanged (removal : Removal pTimer minheap result after)
    (once : minheap.contents.count (some pTimer) = 1) (misses : minheap.Misses pTimer) :
    after = minheap := by
  have stays := removal.occurrences_of_misses once.le misses
  cases removal with
  | removed _ _ _ contents =>
      rw [contents, Multiset.count_cons_self] at once
      have positive := Multiset.count_pos.mpr stays
      omega
  | missed => rfl
  | dropped _ single =>
      have four := misses.1
      omega

omit [DecidableEq Ptr] in
/-- A search for a timer that is not in the heap changes nothing, unless it goes astray. -/
theorem Removal.unchanged_of_absent (removal : Removal pTimer minheap result after)
    (outside : some pTimer ∉ minheap.contents) (kept : ¬ minheap.Drops pTimer) :
    after = minheap := by
  cases removal with
  | removed _ found =>
      obtain ⟨index, bound, holds, _⟩ := found
      exact absurd (mem_contents.mpr ⟨index, bound, holds⟩) outside
  | missed => rfl
  | dropped _ single top pointer => exact absurd ⟨single, top, pointer⟩ kept

/-- What a search that goes astray leaves. -/
theorem Occupied.dropped (occupied : Occupied capacity whenToFire pTimer occupancy minheap)
    (absent : occupancy.count = 0) (drops : minheap.Drops pTimer) :
    Occupied capacity whenToFire pTimer
      { occupancy with others := 0, above := none, stale := occupancy.stale.erase 1 }
      ⟨Function.update minheap.heap 1 (minheap.heap 0), 0⟩ where
  room := Nat.zero_le _
  filled index bound := absurd bound (Nat.not_lt_zero index)
  count := by
    rw [contents_eq_zero rfl, Multiset.count_zero, absent]
  total := absent.symm
  last := by
    rw [← occupied.last, decide_eq_decide]
    refine iff_of_false (fun ends => Nat.lt_irrefl 0 ends.1) fun ends => ?_
    rw [← occupied.count, Multiset.count_eq_zero] at absent
    exact absent ends.mem
  above key known := absurd known (Option.not_mem_none key)
  stale := by
    ext index
    rw [mem_stale_dropped drops, Finset.mem_erase, occupied.stale]

/-- Searching where there is no entry of the timer changes nothing, goes astray, or
leaves the array. -/
theorem Occupied.search_absent (occupied : Occupied capacity whenToFire pTimer occupancy minheap)
    (three : 3 ≤ capacity) (representable : capacity < 2 ^ 32) (firing : Ptr → UInt64)
    (absent : occupancy.count = 0) :
    Covers (Occupied capacity whenToFire pTimer) occupancy.search
      ((minheap.removeFromHeap capacity firing pTimer).map Prod.snd) := by
  have outside : some pTimer ∉ minheap.contents := by
    rw [← Multiset.count_eq_zero, occupied.count, absent]
  have returns : (minheap.removeFromHeap capacity firing pTimer).isSome ↔ _ :=
    removeFromHeap_isSome firing occupied.room three representable occupied.filled
  have unchanged : ∀ outcome, minheap.removeFromHeap capacity firing pTimer = some outcome →
      ¬ minheap.Drops pTimer → outcome.2 = minheap := fun _ ran =>
    (removeFromHeap_removal occupied.room three representable occupied.filled
      ran).unchanged_of_absent outside
  unfold Occupancy.search
  rw [if_pos absent, ← occupied.total]
  rcases Nat.eq_zero_or_pos minheap.numberOfTimersBeingManaged with empty | positive
  · rw [if_pos empty, ← occupied.stale]
    by_cases inside : minheap.stale pTimer = ∅
    · obtain ⟨outcome, ran⟩ := Option.isSome_iff_exists.mp
        (returns.mpr fun _ => (stale_eq_empty_iff empty).mp inside)
      have same := unchanged outcome ran fun drops => by
        have single := drops.1
        omega
      rw [if_pos inside, ran, Option.map_some, same]
      exact .of_eq occupied (List.mem_singleton.mpr rfl) rfl
    · rw [if_neg inside]
      refine covers_none (List.mem_singleton.mpr rfl) ?_
      rw [Option.map_eq_none_iff, ← Option.not_isSome_iff_eq_none, returns]
      exact fun stays => inside ((stale_eq_empty_iff empty).mpr (stays empty))
  · have drops_iff : minheap.numberOfTimersBeingManaged = 1 ∧ 1 ∈ occupancy.stale ↔
        minheap.Drops pTimer := by
      rw [← occupied.stale, mem_stale]
      constructor
      · rintro ⟨single, _, _, pointer⟩
        exact ⟨single, fun top => outside (mem_contents.mpr ⟨0, positive, top⟩), pointer⟩
      · rintro ⟨single, _, pointer⟩
        exact ⟨single, by omega, by omega, pointer⟩
    rw [if_neg positive.ne']
    by_cases drops : minheap.Drops pTimer
    · rw [if_pos (drops_iff.mpr drops), removeFromHeap_of_drops drops (by omega) occupied.filled]
      exact .of_eq (occupied.dropped absent drops) (List.mem_singleton.mpr rfl) rfl
    · obtain ⟨outcome, ran⟩ := Option.isSome_iff_exists.mp
        (returns.mpr fun empty => absurd empty positive.ne')
      rw [if_neg fun both => drops (drops_iff.mp both), ran, Option.map_some,
        unchanged outcome ran drops]
      exact .of_eq occupied (List.mem_singleton.mpr rfl) rfl

/-- Searching takes an entry out, or misses the only one. -/
theorem Occupied.search_present (occupied : Occupied capacity whenToFire pTimer occupancy minheap)
    (three : 3 ≤ capacity) (representable : capacity < 2 ^ 32) (firing : Ptr → UInt64)
    (present : occupancy.count ≠ 0) :
    Covers (Occupied capacity whenToFire pTimer) occupancy.search
      ((minheap.removeFromHeap capacity firing pTimer).map Prod.snd) := by
  have member : some pTimer ∈ minheap.contents := by
    rw [← Multiset.count_pos, occupied.count]
    exact Nat.pos_of_ne_zero present
  have positive : occupancy.total ≠ 0 := by
    unfold Occupancy.total
    omega
  have missed_iff : occupancy.count = 1 ∧ occupancy.last ∧ 4 ≤ occupancy.total ↔
      minheap.contents.count (some pTimer) = 1 ∧ minheap.Misses pTimer := by
    rw [misses_iff, ← occupied.last, ← occupied.total, ← occupied.count, decide_eq_true_eq]
    exact and_congr_right fun _ => and_comm
  obtain ⟨⟨result, after⟩, ran⟩ := Option.isSome_iff_exists.mp
    ((removeFromHeap_isSome firing occupied.room three representable occupied.filled).mpr
      fun none => absurd (occupied.total.symm.trans none) positive)
  have removal := removeFromHeap_removal occupied.room three representable occupied.filled ran
  rw [ran, Option.map_some]
  unfold Occupancy.search
  rw [if_neg positive, if_neg present]
  by_cases missed : occupancy.count = 1 ∧ occupancy.last ∧ 4 ≤ occupancy.total
  · obtain ⟨once, misses⟩ := missed_iff.mp missed
    obtain rfl := removal.unchanged once misses
    rw [if_pos missed]
    exact .of_eq occupied (List.mem_singleton.mpr rfl) rfl
  · rw [if_neg missed]
    obtain ⟨count, contents⟩ := removal.taken member fun both => missed (missed_iff.mpr both)
    have past := removeFromHeap_past member occupied.room (by omega) occupied.filled ran
    have fewer : after.contents.count (some pTimer) = occupancy.count - 1 := by
      rw [← occupied.count, contents, Multiset.count_cons_self, Nat.add_sub_cancel]
    have total : after.numberOfTimersBeingManaged = occupancy.count - 1 + occupancy.others := by
      have before := occupied.total
      unfold Occupancy.total at before
      omega
    have described : Occupied capacity whenToFire pTimer
        ⟨occupancy.count - 1, occupancy.others, decide (after.Ends pTimer), none,
          occupancy.staleAfterRemoval⟩ after :=
      { room := removal.count_le.trans occupied.room
        filled := removal.filled occupied.filled
        count := fewer
        total := total
        last := rfl
        above := fun _ known => absurd known (Option.not_mem_none _)
        stale := occupied.stale_removed count past }
    exact .of_eq described (List.mem_map.mpr ⟨_, mem_lastAfterSift fewer total, rfl⟩) rfl

/-- The outcomes of a search cover the removal. -/
theorem Occupied.search (occupied : Occupied capacity whenToFire pTimer occupancy minheap)
    (three : 3 ≤ capacity) (representable : capacity < 2 ^ 32) (firing : Ptr → UInt64) :
    Covers (Occupied capacity whenToFire pTimer) occupancy.search
      ((minheap.removeFromHeap capacity firing pTimer).map Prod.snd) := by
  by_cases absent : occupancy.count = 0
  · exact occupied.search_absent three representable firing absent
  · exact occupied.search_present three representable firing absent

/-- Whether the added timer stays in the last slot is one of the outcomes. -/
theorem Occupied.mem_lastAfterAdd
    (occupied : Occupied capacity whenToFire pTimer occupancy minheap)
    (added : minheap.addToHeap capacity whenToFire pTimer = some (result, after)) :
    decide (after.Ends pTimer) ∈ occupancy.lastAfterAdd (whenToFire pTimer).toNat := by
  obtain ⟨_, _, inserted⟩ := addToHeap_inserted occupied.filled added
  unfold Occupancy.lastAfterAdd
  split_ifs with only
  · have total := occupied.total
    unfold Occupancy.total at total
    rw [List.mem_singleton, decide_eq_true_eq]
    refine ends_of_only ?_ ?_
    · rw [inserted.count]
      exact Nat.succ_pos _
    · rw [inserted.occurrences_self, inserted.count, occupied.count, total, only, Nat.add_zero]
  · cases known : occupancy.above with
    | none =>
        rw [Option.elim_none]
        cases decide (after.Ends pTimer) <;> simp only [List.mem_cons, true_or, or_true]
    | some key =>
        obtain ⟨absent, positive, rfl⟩ := occupied.above key known
        rw [Option.elim_some, List.mem_singleton, decide_eq_decide]
        exact ends_inserted_iff positive absent occupied.filled added

/-- The outcomes of adding the timer cover the insertion. -/
theorem Occupied.add (occupied : Occupied capacity whenToFire pTimer occupancy minheap) :
    Covers (Occupied capacity whenToFire pTimer)
      (occupancy.add capacity (whenToFire pTimer).toNat)
      ((minheap.addToHeap capacity whenToFire pTimer).map Prod.snd) := by
  unfold Occupancy.add
  by_cases full : capacity ≤ minheap.numberOfTimersBeingManaged
  · rw [← occupied.total, if_pos full, addToHeap_eq_none full]
    exact covers_none (List.mem_singleton.mpr rfl) rfl
  · obtain ⟨after, added⟩ : ∃ after, minheap.addToHeap capacity whenToFire pTimer =
        some (.OK, after) := by
      obtain ⟨sifted, added, _⟩ := addToHeap_eq whenToFire (not_le.mp full) occupied.filled pTimer
      exact ⟨_, added⟩
    obtain ⟨room, _, inserted⟩ := addToHeap_inserted occupied.filled added
    have past := addToHeap_past occupied.filled added
    have described : Occupied capacity whenToFire pTimer
        ⟨occupancy.count + 1, occupancy.others, decide (after.Ends pTimer), none,
          occupancy.stale.erase occupancy.total⟩ after :=
      { room := inserted.count.le.trans room
        filled := inserted.filled occupied.filled
        count := inserted.occurrences_self.trans (congrArg (· + 1) occupied.count)
        total := by
          rw [inserted.count, occupied.total]
          exact Nat.add_right_comm _ _ _
        last := rfl
        above := fun _ known => absurd known (Option.not_mem_none _)
        stale := by
          ext index
          rw [mem_stale_inserted inserted.count past, Finset.mem_erase, occupied.stale,
            occupied.total] }
    rw [← occupied.total, if_neg full, added, Option.map_some, occupied.total]
    exact .of_eq described (List.mem_map.mpr ⟨_, occupied.mem_lastAfterAdd added, rfl⟩) rfl

end TimerMinHeap

end TimerAndCallback
