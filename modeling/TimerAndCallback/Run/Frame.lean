import TimerAndCallback.Run.WellFormed

/-! # A step leaves the other timers alone

A step touches the timer it is called on, the timer on top, or the timer its
message leads to. It keeps the object, the history and the messages of every
other timer. Of the heap entries of the others it may only drop the one that is
alone in the heap, when the search goes astray.
-/

namespace TimerAndCallback

namespace TimerSystem

open TimerMinHeap

/-- How often the timer is in the heap. -/
def occurrences (system : TimerSystem) (pTimer : UInt64) : Nat :=
  system.minHeap.contents.count (some pTimer)

/-- How many messages in the queues lead to the timer. -/
def inFlight (system : TimerSystem) (pTimer : UInt64) : Nat :=
  system.messages.countP fun envelope => decide (envelope.timer = pTimer)

/-- The message at a position of the queues leads to the timer. -/
def LeadsTo (system : TimerSystem) (position : Nat) (pTimer : UInt64) : Prop :=
  ∃ envelope ∈ system.messages[position]?, envelope.timer = pTimer

/-- The timers a step may be about. Allocation may be about any free slot. -/
def Touches (system : TimerSystem) (pTimer : UInt64) : Action → Prop
  | .new _ => pTimer ∉ system.pool.outstanding
  | .schedule other _ _ _ => other = pTimer
  | .cancel other => other = pTimer
  | .restart other _ => other = pTimer
  | .stop other => other = pTimer
  | .delete other => other = pTimer
  | .timerTask current => system.DueOnTop pTimer current
  | .deliver position _ => system.LeadsTo position pTimer

/-- The timer a step searches the heap for, other than the one on top. -/
def searched (system : TimerSystem) : Action → Option UInt64
  | .restart pTimer _ => if (system.timers pTimer).state = .Active then some pTimer else none
  | .stop pTimer => some pTimer
  | .delete pTimer => if (system.timers pTimer).Quiet then none else some pTimer
  | .deliver position _ =>
      system.messages[position]?.bind fun envelope =>
        let timer := system.timers envelope.timer
        if timer.Retires ∧ ¬ timer.Quiet then some envelope.timer else none
  | _ => none

/-- What a step leaves of a timer it is not about. -/
structure Untouched (pTimer : UInt64) (before after : TimerSystem) : Prop where
  timer : after.timers pTimer = before.timers pTimer
  ledger : after.ledger pTimer = before.ledger pTimer
  live : pTimer ∈ after.pool.outstanding ↔ pTimer ∈ before.pool.outstanding
  inFlight : after.inFlight pTimer = before.inFlight pTimer
  occurrences : after.occurrences pTimer ≤ before.occurrences pTimer

section Heap

variable {timer : Timer} {pTimer other : UInt64} {before after : TimerMinHeap UInt64}

/-- Vacating the entries of a timer adds no entry. -/
theorem Vacated.occurrences_le (vacated : Vacated timer pTimer before after)
    (entry : Option UInt64) : after.contents.count entry ≤ before.contents.count entry := by
  cases vacated with
  | quiet => exact le_rfl
  | searched _ removal => exact removal.occurrences_le entry

/-- Vacating a timer leaves the entries of the others. -/
theorem Vacated.occurrences_other (vacated : Vacated timer pTimer before after)
    (different : other ≠ pTimer) (kept : ¬ timer.Quiet → ¬ before.Drops pTimer) :
    after.contents.count (some other) = before.contents.count (some other) := by
  cases vacated with
  | quiet => rfl
  | searched busy removal => exact removal.occurrences_other different (kept busy)

/-- A restart adds no entry of another timer. -/
theorem Requeued.occurrences_le (requeued : Requeued timer pTimer before after)
    (different : other ≠ pTimer) :
    after.contents.count (some other) ≤ before.contents.count (some other) := by
  cases requeued with
  | moved _ removal _ inserted =>
      rw [inserted.occurrences_other different]
      exact removal.occurrences_le _
  | added _ _ inserted => exact (inserted.occurrences_other different).le

/-- A restart leaves the entries of the others. -/
theorem Requeued.occurrences_other (requeued : Requeued timer pTimer before after)
    (different : other ≠ pTimer) (kept : timer.state = .Active → ¬ before.Drops pTimer) :
    after.contents.count (some other) = before.contents.count (some other) := by
  cases requeued with
  | moved active removal _ inserted =>
      rw [inserted.occurrences_other different]
      exact removal.occurrences_other different (kept active)
  | added _ _ inserted => exact inserted.occurrences_other different

/-- A timer that is restarted is in the heap. -/
theorem Requeued.mem (requeued : Requeued timer pTimer before after) :
    some pTimer ∈ after.contents := by
  cases requeued with
  | moved _ _ _ inserted =>
      rw [inserted.contents]
      exact Multiset.mem_cons_self _ _
  | added _ _ inserted =>
      rw [inserted.contents]
      exact Multiset.mem_cons_self _ _

end Heap

variable {pShm : UInt64} {system next : TimerSystem} {action : Action} {pTimer : UInt64}

/-- A timer has an entry when it is in the heap. -/
theorem occurrences_pos_iff :
    0 < system.occurrences pTimer ↔ some pTimer ∈ system.minHeap.contents :=
  Multiset.count_pos

section Messages

variable {position : Nat} {envelope : Envelope}

/-- Taking a message out of the queues leaves one fewer for its timer. -/
theorem receive_inFlight (queued : system.messages[position]? = some envelope)
    (current : UInt64) :
    (system.receive position current).inFlight pTimer +
        (if envelope.timer = pTimer then 1 else 0) = system.inFlight pTimer := by
  obtain ⟨bound, rfl⟩ := List.getElem?_eq_some_iff.mp queued
  have permuted := List.getElem_cons_eraseIdx_perm bound
  unfold inFlight
  rw [← permuted.countP_eq, List.countP_cons]
  simp only [receive_messages, decide_eq_true_eq]

/-- Receiving a message leaves those of the other timers. -/
theorem receive_inFlight_other (queued : system.messages[position]? = some envelope)
    (current : UInt64) (different : envelope.timer ≠ pTimer) :
    (system.receive position current).inFlight pTimer = system.inFlight pTimer := by
  rw [← receive_inFlight queued current, if_neg different, Nat.add_zero]

/-- Receiving a message of a timer leaves one fewer of its messages. -/
theorem receive_inFlight_self (queued : system.messages[position]? = some envelope)
    (current : UInt64) :
    (system.receive position current).inFlight envelope.timer + 1 =
      system.inFlight envelope.timer := by
  rw [← receive_inFlight queued current, if_pos rfl]

/-- Sending adds a message for the timer that fired. -/
theorem send_inFlight (top : UInt64) (message : PosixMessageQueueObject) (current : UInt64) :
    (system.send top message current).inFlight pTimer =
      system.inFlight pTimer + if top = pTimer then 1 else 0 := by
  unfold inFlight
  rw [send_messages, List.countP_append, List.countP_singleton]
  simp only [decide_eq_true_eq]

end Messages

/-- The message that leads to a timer names it. -/
theorem LeadsTo.named {position : Nat} {envelope : Envelope}
    (leads : system.LeadsTo position pTimer)
    (queued : system.messages[position]? = some envelope) : envelope.timer = pTimer := by
  obtain ⟨other, same, named⟩ := leads
  cases queued.symm.trans same
  exact named

/-- A timer that a message leads to has one in flight. -/
theorem LeadsTo.inFlight_pos {position : Nat} (leads : system.LeadsTo position pTimer) :
    0 < system.inFlight pTimer := by
  obtain ⟨envelope, queued, rfl⟩ := leads
  exact List.countP_pos_iff.mpr ⟨envelope, List.mem_of_getElem? queued, decide_eq_true rfl⟩

/-- The heap has one top. -/
theorem DueOnTop.unique {current later top : UInt64} (onTop : system.DueOnTop pTimer current)
    (other : system.DueOnTop top later) : pTimer = top :=
  Option.some.inj (onTop.holds.symm.trans other.holds)

/-- The top is in the heap. -/
theorem DueOnTop.mem {current : UInt64} (onTop : system.DueOnTop pTimer current) :
    some pTimer ∈ system.minHeap.contents :=
  mem_contents.mpr ⟨0, onTop.positive, onTop.holds⟩

/-- The top has an entry. -/
theorem DueOnTop.occurrences_pos {current : UInt64} (onTop : system.DueOnTop pTimer current) :
    0 < system.occurrences pTimer :=
  occurrences_pos_iff.mpr onTop.mem

/-- A step keeps the timers it is not about. -/
theorem Transition.untouched (transition : Transition (timerPool pShm) system action next)
    (foreign : ¬ system.Touches pTimer action) : Untouched pTimer system next := by
  have apart : ∀ {other : UInt64}, ¬ other = pTimer → pTimer ≠ other :=
    fun different same => different same.symm
  cases transition with
  | created tasks fresh pool handed free sound outstanding =>
      have live : pTimer ∈ system.pool.outstanding := not_not.mp foreign
      have different : pTimer ≠ fresh := fun same => free (same ▸ live)
      refine ⟨?_, ?_, ?_, rfl, le_rfl⟩
      · exact Function.update_of_ne different _ _
      · exact Function.update_of_ne different _ _
      · dsimp only
        rw [outstanding, Finset.mem_insert]
        exact or_iff_right different
  | scheduled other request current rand timer heap live armed room inserted =>
      exact ⟨Function.update_of_ne (apart foreign) _ _, Function.update_of_ne (apart foreign) _ _,
        Iff.rfl, rfl, (inserted.occurrences_other (apart foreign)).le⟩
  | cancelled other live =>
      exact ⟨Function.update_of_ne (apart foreign) _ _, rfl, Iff.rfl, rfl, le_rfl⟩
  | restarted other current heap live requeued =>
      exact ⟨Function.update_of_ne (apart foreign) _ _, rfl, Iff.rfl, rfl,
        requeued.occurrences_le (apart foreign)⟩
  | stopped other result heap live removal =>
      exact ⟨Function.update_of_ne (apart foreign) _ _, rfl, Iff.rfl, rfl,
        removal.occurrences_le _⟩
  | deleted other heap live vacated =>
      exact ⟨Function.update_of_ne (apart foreign) _ _, Function.update_of_ne (apart foreign) _ _,
        Finset.mem_erase.trans (and_iff_right (apart foreign)), rfl, vacated.occurrences_le _⟩
  | rested current => exact ⟨rfl, rfl, Iff.rfl, rfl, le_rfl⟩
  | fired current top heap onTop active count contents =>
      have different : pTimer ≠ top := fun same => foreign (same ▸ onTop)
      refine ⟨Function.update_of_ne different _ _, Function.update_of_ne different _ _, Iff.rfl,
        ?_, ?_⟩
      · rw [send_inFlight, if_neg different.symm]
        rfl
      · unfold occurrences
        rw [contents]
        exact Multiset.count_le_count_cons _ _ _
  | revived current top heap onTop idle count contents =>
      have different : pTimer ≠ top := fun same => foreign (same ▸ onTop)
      refine ⟨Function.update_of_ne different _ _, rfl, Iff.rfl, rfl, ?_⟩
      unfold occurrences
      rw [contents]
  | ignored position current envelope queued =>
      have different : envelope.timer ≠ pTimer := fun same => foreign ⟨envelope, queued, same⟩
      exact ⟨rfl, rfl, Iff.rfl, receive_inFlight_other queued current different, le_rfl⟩
  | rearmed position current envelope heap queued live rearms room inserted =>
      have different : envelope.timer ≠ pTimer := fun same => foreign ⟨envelope, queued, same⟩
      exact ⟨Function.update_of_ne different.symm _ _, Function.update_of_ne different.symm _ _,
        Iff.rfl, receive_inFlight_other queued current different,
        (inserted.occurrences_other different.symm).le⟩
  | retired position current envelope heap queued live retires vacated =>
      have different : envelope.timer ≠ pTimer := fun same => foreign ⟨envelope, queued, same⟩
      refine ⟨Function.update_of_ne different.symm _ _, ?_,
        Finset.mem_erase.trans (and_iff_right different.symm),
        receive_inFlight_other queued current different, vacated.occurrences_le _⟩
      exact (Function.update_of_ne different.symm _ _).trans
        (Function.update_of_ne different.symm _ _)

/-- Where the search does not go astray, the other timers stay in the heap. -/
theorem Transition.occurrences_kept (transition : Transition (timerPool pShm) system action next)
    (foreign : ¬ system.Touches pTimer action)
    (kept : ∀ other ∈ system.searched action, ¬ system.minHeap.Drops other) :
    next.occurrences pTimer = system.occurrences pTimer := by
  have apart : ∀ {other : UInt64}, ¬ other = pTimer → pTimer ≠ other :=
    fun different same => different same.symm
  cases transition with
  | created | cancelled | rested | ignored => rfl
  | scheduled other request current rand timer heap live armed room inserted =>
      exact inserted.occurrences_other (apart foreign)
  | restarted other current heap live requeued =>
      exact requeued.occurrences_other (apart foreign) fun active =>
        kept other (Option.mem_def.mpr (if_pos active))
  | stopped other result heap live removal =>
      exact removal.occurrences_other (apart foreign) (kept other rfl)
  | deleted other heap live vacated =>
      exact vacated.occurrences_other (apart foreign) fun busy =>
        kept other (Option.mem_def.mpr (if_neg busy))
  | fired current top heap onTop active count contents =>
      have different : pTimer ≠ top := fun same => foreign (same ▸ onTop)
      unfold occurrences
      rw [contents, Multiset.count_cons_of_ne fun same => different (Option.some.inj same)]
      rfl
  | revived current top heap onTop idle count contents =>
      unfold occurrences
      rw [contents]
  | rearmed position current envelope heap queued live rearms room inserted =>
      have different : envelope.timer ≠ pTimer := fun same => foreign ⟨envelope, queued, same⟩
      exact inserted.occurrences_other different.symm
  | retired position current envelope heap queued live retires vacated =>
      have different : envelope.timer ≠ pTimer := fun same => foreign ⟨envelope, queued, same⟩
      refine vacated.occurrences_other different.symm fun busy => kept envelope.timer ?_
      simp only [searched, queued, Option.bind_some, retires, busy, not_false_eq_true, and_self,
        ↓reduceIte, Option.mem_some]

/-- A delivery searches for the timer of its message, to delete it. -/
theorem searched_deliver {position : Nat} {current : UInt64} {envelope : Envelope}
    {searched : UInt64} (queued : system.messages[position]? = some envelope)
    (searches : searched ∈ system.searched (.deliver position current)) :
    ((system.timers envelope.timer).Retires ∧ ¬ (system.timers envelope.timer).Quiet) ∧
      envelope.timer = searched := by
  obtain ⟨other, same, found⟩ := Option.bind_eq_some_iff.mp searches
  cases queued.symm.trans same
  exact (Option.ite_none_right_eq_some.mp found).imp_right Option.some.inj

/-- A search is about the timer that the step touches. -/
theorem searched_touches {searched : UInt64} (searches : searched ∈ system.searched action)
    (touches : system.Touches pTimer action) : pTimer = searched := by
  cases action with
  | new | schedule | cancel | timerTask => cases searches
  | restart other current =>
      obtain rfl : other = pTimer := touches
      exact Option.some.inj (Option.ite_none_right_eq_some.mp searches).2
  | stop other =>
      obtain rfl : other = pTimer := touches
      exact Option.some.inj searches
  | delete other =>
      obtain rfl : other = pTimer := touches
      exact Option.some.inj (Option.ite_none_left_eq_some.mp searches).2
  | deliver position current =>
      obtain ⟨envelope, queued, rfl⟩ := touches
      exact (searched_deliver queued searches).2

/-- A search takes a removal from the heap, after which the timer may be added again. -/
theorem Transition.removal_of_searched
    (transition : Transition (timerPool pShm) system action next) {searched : UInt64}
    (searches : searched ∈ system.searched action) :
    ∃ result after, Removal searched system.minHeap result after ∧
      (next.minHeap.contents = after.contents ∨
        next.minHeap.contents = some searched ::ₘ after.contents) := by
  cases transition with
  | created | scheduled | cancelled | rested | fired | revived => cases searches
  | restarted other current heap live requeued =>
      obtain ⟨active, same⟩ := Option.ite_none_right_eq_some.mp searches
      cases same
      cases requeued with
      | moved _ removal _ inserted => exact ⟨_, _, removal, Or.inr inserted.contents⟩
      | added inactive => exact absurd active inactive
  | stopped other result heap live removal =>
      cases searches
      exact ⟨result, heap, removal, Or.inl rfl⟩
  | deleted other heap live vacated =>
      obtain ⟨busy, same⟩ := Option.ite_none_left_eq_some.mp searches
      cases same
      cases vacated with
      | quiet quiet => exact absurd quiet busy
      | searched _ removal => exact ⟨_, heap, removal, Or.inl rfl⟩
  | ignored position current envelope queued stays remains =>
      exact absurd (searched_deliver queued searches).1.1 remains
  | rearmed position current envelope heap queued live rearms =>
      exact absurd (searched_deliver queued searches).1.1 rearms.not_retires
  | retired position current envelope heap queued live retires vacated =>
      obtain ⟨⟨_, busy⟩, rfl⟩ := searched_deliver queued searches
      cases vacated with
      | quiet quiet => exact absurd quiet busy
      | searched _ removal => exact ⟨_, heap, removal, Or.inl rfl⟩

/-- A search that goes astray leaves none of the other timers in the heap. -/
theorem Transition.notMem_of_drops (transition : Transition (timerPool pShm) system action next)
    {searched : UInt64} (searches : searched ∈ system.searched action)
    (drops : system.minHeap.Drops searched) (different : pTimer ≠ searched) :
    some pTimer ∉ next.minHeap.contents := by
  obtain ⟨result, after, removal, contents | contents⟩ := transition.removal_of_searched searches
  · rw [contents, removal.contents_of_drops drops]
    exact Multiset.notMem_zero _
  · rw [contents, removal.contents_of_drops drops, Multiset.mem_cons, not_or]
    exact ⟨fun same => different (Option.some.inj same), Multiset.notMem_zero _⟩

end TimerSystem

end TimerAndCallback
