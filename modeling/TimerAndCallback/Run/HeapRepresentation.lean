import TimerAndCallback.Run.Frame

/-! # What the heap holds

The entries of the heap are distinct, allocated and not done, as long as no step
adds a timer that is there already or frees one that stays. Then the heap has room
for every timer that is added, and no step goes outside its array unless it
searches an empty heap and meets a stale pointer.
-/

namespace TimerAndCallback

namespace TimerSystem

open TimerMinHeap Execution

/-- The representation invariant. -/
structure Represented (system : TimerSystem) : Prop where
  bounded : system.minHeap.numberOfTimersBeingManaged ≤ MAX_NUMBER_OF_TIMERS
  distinct : system.minHeap.contents.Nodup
  allocated : ∀ pTimer, some pTimer ∈ system.minHeap.contents → pTimer ∈ system.pool.outstanding
  pending : ∀ pTimer, some pTimer ∈ system.minHeap.contents →
    (system.timers pTimer).state ≠ .Done

/-- Destroying the timer takes it out of the heap, if it is there. -/
def Extractable (system : TimerSystem) (pTimer : UInt64) : Prop :=
  some pTimer ∈ system.minHeap.contents →
    ¬ (system.timers pTimer).Quiet ∧ ¬ system.minHeap.Misses pTimer

/-- A timer that is added to the heap is not there, or is moved from where the search
finds it, and a timer that is freed does not stay behind. -/
def KeepsDistinct (system : TimerSystem) : Action → Prop
  | .schedule pTimer _ _ _ => some pTimer ∉ system.minHeap.contents
  | .restart pTimer _ => some pTimer ∈ system.minHeap.contents →
      (system.timers pTimer).state = .Active ∧ ¬ system.minHeap.Misses pTimer
  | .delete pTimer => system.Extractable pTimer
  | .deliver position _ => ∀ envelope ∈ system.messages[position]?,
      ((system.timers envelope.timer).Rearms → some envelope.timer ∉ system.minHeap.contents) ∧
      ((system.timers envelope.timer).Retires → system.Extractable envelope.timer)
  | _ => True

/-- An empty heap is searched only for a timer that none of its first three slots, all
stale, points to. -/
def SearchesInside (system : TimerSystem) (action : Action) : Prop :=
  ∀ searched ∈ system.searched action, system.minHeap.numberOfTimersBeingManaged = 0 →
    ∀ index < 3, system.minHeap.heap index ≠ some searched

/-- What the caller of a step sees to: objects are allocated while it uses them, the
pool has a free slot, a fuzzy window is not empty, and there is a message to take. -/
def Enabled (pTimerPool : MemoryPool) (system : TimerSystem) : Action → Prop
  | .new _ => system.pool.area.numberAllocated ≠ pTimerPool.maxNumberOfObjects
  | .schedule pTimer request current rand => pTimer ∈ system.pool.outstanding ∧
      ((system.timers pTimer).arm request.arguments current rand).isSome
  | .cancel pTimer => pTimer ∈ system.pool.outstanding
  | .restart pTimer _ => pTimer ∈ system.pool.outstanding
  | .stop pTimer => pTimer ∈ system.pool.outstanding
  | .delete pTimer => pTimer ∈ system.pool.outstanding
  | .timerTask _ => True
  | .deliver position _ => position < system.messages.length

instance (system : TimerSystem) (pTimer : UInt64) : Decidable (system.Extractable pTimer) := by
  unfold Extractable
  infer_instance

instance (system : TimerSystem) (action : Action) : Decidable (system.KeepsDistinct action) :=
  match action with
  | .new .. | .schedule .. | .cancel .. | .restart .. | .stop .. | .delete .. | .timerTask ..
  | .deliver .. => by
      unfold KeepsDistinct
      infer_instance

instance (system : TimerSystem) (action : Action) : Decidable (system.SearchesInside action) := by
  unfold SearchesInside
  -- not by trying every `UInt64`, which is a finite type
  exact Option.decidableForallMem _

instance (pTimerPool : MemoryPool) (system : TimerSystem) (action : Action) :
    Decidable (system.Enabled pTimerPool action) :=
  match action with
  | .new .. | .schedule .. | .cancel .. | .restart .. | .stop .. | .delete .. | .timerTask ..
  | .deliver .. => by
      unfold Enabled
      infer_instance

/-- The invariant at one timer. -/
structure Fits (system : TimerSystem) (pTimer : UInt64) : Prop where
  once : system.occurrences pTimer ≤ 1
  allocated : 0 < system.occurrences pTimer → pTimer ∈ system.pool.outstanding
  pending : 0 < system.occurrences pTimer → (system.timers pTimer).state ≠ .Done

variable {pShm pTimer : UInt64} {system next : TimerSystem} {action : Action}

/-- Where the timers are represented each of them fits. -/
theorem Represented.fits (represented : system.Represented) (pTimer : UInt64) :
    system.Fits pTimer where
  once := Multiset.nodup_iff_count_le_one.mp represented.distinct _
  allocated present := represented.allocated pTimer (occurrences_pos_iff.mp present)
  pending present := represented.pending pTimer (occurrences_pos_iff.mp present)

/-- Timers that all fit are represented. -/
theorem WellFormed.represented (wellFormed : system.WellFormed pShm)
    (fits : ∀ pTimer, system.Fits pTimer) : system.Represented where
  bounded := wellFormed.managed.count
  distinct := by
    rw [Multiset.nodup_iff_count_le_one]
    intro entry
    cases entry with
    | none =>
        rw [Multiset.count_eq_zero.mpr (filled_iff.mp wellFormed.managed.filled)]
        exact Nat.zero_le 1
    | some pTimer => exact (fits pTimer).once
  allocated pTimer member := (fits pTimer).allocated (occurrences_pos_iff.mpr member)
  pending pTimer member := (fits pTimer).pending (occurrences_pos_iff.mpr member)

/-- A timer without an entry fits. -/
theorem fits_of_absent (absent : system.occurrences pTimer = 0) : system.Fits pTimer where
  once := absent.le.trans (Nat.zero_le 1)
  allocated present := absurd absent (Nat.ne_of_gt present)
  pending present := absurd absent (Nat.ne_of_gt present)

/-- A timer that is untouched still fits. -/
theorem Untouched.fits (frame : Untouched pTimer system next) (fits : system.Fits pTimer) :
    next.Fits pTimer where
  once := frame.occurrences.trans fits.once
  allocated present := frame.live.mpr (fits.allocated (present.trans_le frame.occurrences))
  pending present := frame.timer ▸ fits.pending (present.trans_le frame.occurrences)

section Heap

variable {timer : Timer} {heap : TimerMinHeap UInt64}

/-- A timer that the search reaches, if it is there, is not left behind. -/
theorem Fits.absent {result : Result} (fits : system.Fits pTimer)
    (removal : Removal pTimer system.minHeap result heap)
    (within : some pTimer ∈ system.minHeap.contents → ¬ system.minHeap.Misses pTimer) :
    heap.contents.count (some pTimer) = 0 := by
  by_cases member : some pTimer ∈ system.minHeap.contents
  · exact removal.occurrences_self fits.once (within member)
  · have fewer := removal.occurrences_le (some pTimer)
    rw [Multiset.count_eq_zero.mpr member] at fewer
    exact Nat.le_zero.mp fewer

/-- A timer that can be extracted is not left behind. -/
theorem Vacated.absent (vacated : Vacated (system.timers pTimer) pTimer system.minHeap heap)
    (fits : system.Fits pTimer) (extractable : system.Extractable pTimer) :
    heap.contents.count (some pTimer) = 0 := by
  cases vacated with
  | quiet quiet => exact Multiset.count_eq_zero.mpr fun member => (extractable member).1 quiet
  | searched _ removal => exact fits.absent removal fun member => (extractable member).2

/-- A timer that cannot be extracted is left behind. -/
theorem Vacated.present (vacated : Vacated (system.timers pTimer) pTimer system.minHeap heap)
    (fits : system.Fits pTimer) (stays : ¬ system.Extractable pTimer) :
    some pTimer ∈ heap.contents := by
  obtain ⟨member, held⟩ := Classical.not_imp.mp stays
  cases vacated with
  | quiet => exact member
  | searched busy removal =>
      have missed := not_not.mp fun within => held ⟨busy, within⟩
      exact removal.occurrences_of_misses fits.once missed

/-- A restarted timer is in the heap once. -/
theorem Requeued.once (requeued : Requeued (system.timers pTimer) pTimer system.minHeap heap)
    (fits : system.Fits pTimer)
    (movable : some pTimer ∈ system.minHeap.contents →
      (system.timers pTimer).state = .Active ∧ ¬ system.minHeap.Misses pTimer) :
    heap.contents.count (some pTimer) = 1 := by
  cases requeued with
  | moved active removal room inserted =>
      exact inserted.once (fits.absent removal fun member => (movable member).2)
  | added inactive room inserted =>
      have outside : some pTimer ∉ system.minHeap.contents :=
        fun member => inactive (movable member).1
      exact inserted.once (Multiset.count_eq_zero.mpr outside)

/-- A timer that is added while it is in the heap is there twice. -/
theorem inserted_not_nodup {before after : TimerMinHeap UInt64}
    (inserted : Inserted pTimer before after) (member : some pTimer ∈ before.contents) :
    ¬ after.contents.Nodup := by
  rw [inserted.contents, Multiset.nodup_cons, not_and]
  exact fun outside => absurd member outside

/-- A restart that does not find the entry of its timer adds a second. -/
theorem Requeued.not_nodup (requeued : Requeued (system.timers pTimer) pTimer system.minHeap heap)
    (fits : system.Fits pTimer)
    (stuck : ¬ (some pTimer ∈ system.minHeap.contents →
      (system.timers pTimer).state = .Active ∧ ¬ system.minHeap.Misses pTimer)) :
    ¬ heap.contents.Nodup := by
  obtain ⟨member, held⟩ := Classical.not_imp.mp stuck
  cases requeued with
  | moved active removal room inserted =>
      have missed := not_not.mp fun within => held ⟨active, within⟩
      exact inserted_not_nodup inserted (removal.occurrences_of_misses fits.once missed)
  | added inactive room inserted => exact inserted_not_nodup inserted member

end Heap

/-- A step that keeps the entries distinct keeps the invariant at every timer. -/
theorem Transition.fits (transition : Transition (timerPool pShm) system action next)
    (fits : system.Fits pTimer) (safe : system.KeepsDistinct action) : next.Fits pTimer := by
  by_cases touches : system.Touches pTimer action
  · cases transition with
    | created tasks fresh pool =>
        refine fits_of_absent (Nat.le_zero.mp ?_)
        exact Nat.le_of_not_lt fun present => touches (fits.allocated present)
    | scheduled other request current rand timer heap live armed room inserted =>
        obtain rfl : other = pTimer := touches
        refine ⟨?_, fun _ => live, fun _ => ?_⟩
        · exact (inserted.once (Multiset.count_eq_zero.mpr safe)).le
        · simp only [setLedger_timers, setTimer_timers, Function.update_self,
            (Timer.arm_armed armed).state]
          exact TimerState.noConfusion
    | cancelled other live =>
        obtain rfl : other = pTimer := touches
        refine ⟨fits.once, fun _ => live, fun _ => ?_⟩
        simp only [cancel_timers_self]
        exact TimerState.noConfusion
    | restarted other current heap live requeued =>
        obtain rfl : other = pTimer := touches
        refine ⟨(requeued.once fits safe).le, fun _ => live, fun _ => ?_⟩
        simp only [setTimer_timers_self, Timer.requeued]
        exact TimerState.noConfusion
    | stopped other result heap live removal =>
        obtain rfl : other = pTimer := touches
        refine ⟨(removal.occurrences_le _).trans fits.once, fun _ => live, fun _ => ?_⟩
        simp only [setTimerState_timers_self]
        exact TimerState.noConfusion
    | deleted other heap live vacated =>
        obtain rfl : other = pTimer := touches
        exact fits_of_absent (vacated.absent fits safe)
    | rested current => exact ⟨fits.once, fits.allocated, fits.pending⟩
    | fired current top heap onTop active count contents =>
        obtain rfl := touches.unique onTop
        have once := fits.once
        unfold occurrences at once
        rw [contents, Multiset.count_cons_self] at once
        exact fits_of_absent (Nat.le_zero.mp (Nat.succ_le_succ_iff.mp once))
    | revived current top heap onTop idle count contents =>
        obtain rfl := touches.unique onTop
        have same : heap.contents.count (some pTimer) = system.occurrences pTimer := by
          rw [contents]
          rfl
        refine ⟨same.le.trans fits.once, fun _ => fits.allocated onTop.occurrences_pos,
          fun _ => ?_⟩
        simp only [setTimer_timers_self, Timer.requeued]
        exact TimerState.noConfusion
    | ignored position current envelope => exact ⟨fits.once, fits.allocated, fits.pending⟩
    | rearmed position current envelope heap queued live rearms room inserted =>
        obtain rfl := touches.named queued
        have outside := (safe envelope queued).1 rearms
        refine ⟨?_, fun _ => live, fun _ => ?_⟩
        · exact (inserted.once (Multiset.count_eq_zero.mpr outside)).le
        · simp only [setTimer_timers_self, Timer.requeued]
          exact TimerState.noConfusion
    | retired position current envelope heap queued live retires vacated =>
        obtain rfl := touches.named queued
        exact fits_of_absent (vacated.absent fits ((safe envelope queued).2 retires))
  · exact (transition.untouched touches).fits fits

/-- Where the invariant still holds after a step, the step kept the entries distinct. -/
theorem Transition.keepsDistinct (transition : Transition (timerPool pShm) system action next)
    (represented : system.Represented) (kept : next.Represented) :
    system.KeepsDistinct action := by
  cases transition with
  | scheduled other request current rand timer heap live armed room inserted =>
      exact fun member => inserted_not_nodup inserted member kept.distinct
  | restarted other current heap live requeued =>
      by_contra stuck
      exact requeued.not_nodup (represented.fits other) stuck kept.distinct
  | deleted other heap live vacated =>
      by_contra stays
      exact Finset.notMem_erase other _
        (kept.allocated other (vacated.present (represented.fits other) stays))
  | ignored position current envelope queued stays remains =>
      intro other same
      cases queued.symm.trans same
      exact ⟨fun rearms => absurd rearms stays, fun retires => absurd retires remains⟩
  | rearmed position current envelope heap queued live rearms room inserted =>
      intro other same
      cases queued.symm.trans same
      exact ⟨fun _ member => inserted_not_nodup inserted member kept.distinct,
        fun retires => absurd retires rearms.not_retires⟩
  | retired position current envelope heap queued live retires vacated =>
      intro other same
      cases queued.symm.trans same
      refine ⟨fun rearms => absurd retires rearms.not_retires, fun _ => ?_⟩
      by_contra stays
      exact Finset.notMem_erase envelope.timer _
        (kept.allocated envelope.timer (vacated.present (represented.fits _) stays))
  | _ => trivial

/-- A step that was taken did not search an empty heap for a stale timer. -/
theorem Transition.searchesInside (transition : Transition (timerPool pShm) system action next) :
    system.SearchesInside action := by
  intro searched searches empty
  obtain ⟨_, _, removal, _⟩ := transition.removal_of_searched searches
  exact removal.inside empty

end TimerSystem

end TimerAndCallback
