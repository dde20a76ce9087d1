import TimerAndCallback.Run.Frame

/-! # Messages and the timers that sent them

A message names a slot of the pool. It is delivered to the timer that fired as long
as the slot is neither freed nor handed out while a message for it is queued, and to
a timer that is due as long as no firing time is set in that window.
-/

namespace TimerAndCallback

namespace TimerSystem

open TimerMinHeap Execution

/-- Every queued message leads to the timer that fired, and its slot was neither freed
nor handed out since. -/
def SameIncarnation (pShm : UInt64) (system : TimerSystem) : Prop :=
  ∀ envelope ∈ system.messages,
    getTimerAtIndex (timerPool pShm) envelope.message.shmIndex = envelope.timer ∧
      (system.ledger envelope.timer).incarnation = envelope.incarnation

/-- Every queued message leads to a timer whose firing time had come when it was sent. -/
def FiringTimesReached (system : TimerSystem) : Prop :=
  ∀ envelope ∈ system.messages,
    (system.whenToFire envelope.timer).toNat ≤ envelope.sentAt.toNat

/-- A slot is freed or handed out only when no other message for it is queued. -/
def FreesUnqueued (pTimerPool : MemoryPool) (system : TimerSystem) : Action → Prop
  | .new _ => ∀ object ∈ pTimerPool.handedOut system.pool.area, system.inFlight object = 0
  | .delete pTimer => system.inFlight pTimer = 0
  | .deliver position _ => ∀ envelope ∈ system.messages[position]?,
      (system.timers envelope.timer).Retires → system.inFlight envelope.timer ≤ 1
  | _ => True

/-- A firing time is set only when no other message for the timer is queued. -/
def SetsUnqueued (system : TimerSystem) : Action → Prop
  | .schedule pTimer _ _ _ => system.inFlight pTimer = 0
  | .restart pTimer _ => system.inFlight pTimer = 0
  | .timerTask current => ∀ top ∈ system.minHeap.heap 0, system.DueOnTop top current →
      (system.timers top).state = .Idle → system.inFlight top = 0
  | .deliver position _ => ∀ envelope ∈ system.messages[position]?,
      (system.timers envelope.timer).Rearms → system.inFlight envelope.timer ≤ 1
  | _ => True

instance (pTimerPool : MemoryPool) (system : TimerSystem) (action : Action) :
    Decidable (system.FreesUnqueued pTimerPool action) :=
  match action with
  | .new .. => Option.decidableForallMem _
  | .schedule .. | .cancel .. | .restart .. | .stop .. | .delete .. | .timerTask ..
  | .deliver .. => by
      unfold FreesUnqueued
      infer_instance

instance (system : TimerSystem) (action : Action) : Decidable (system.SetsUnqueued action) :=
  match action with
  | .timerTask .. => Option.decidableForallMem _
  | .new .. | .schedule .. | .cancel .. | .restart .. | .stop .. | .delete .. | .deliver .. => by
      unfold SetsUnqueued
      infer_instance

variable {pShm pTimer : UInt64} {system next : TimerSystem} {action : Action}

/-- A timer has a message in flight when one names it. -/
theorem inFlight_pos_iff :
    0 < system.inFlight pTimer ↔ ∃ envelope ∈ system.messages, envelope.timer = pTimer := by
  unfold inFlight
  rw [List.countP_pos_iff]
  simp only [decide_eq_true_eq]

/-- The timer of a message in flight has one. -/
theorem inFlight_pos_of_mem {envelope : Envelope} (queued : envelope ∈ system.messages) :
    0 < system.inFlight envelope.timer := inFlight_pos_iff.mpr ⟨envelope, queued, rfl⟩

/-- Another message for the timer is queued beside one exactly when one is left for it
after that one was taken out. -/
theorem one_lt_inFlight_iff {position : Nat} {envelope : Envelope}
    (queued : system.messages[position]? = some envelope) :
    1 < system.inFlight envelope.timer ↔
      ∃ other ∈ system.messages.eraseIdx position, other.timer = envelope.timer := by
  rw [← receive_inFlight_self queued 0, Nat.lt_add_left_iff_pos, inFlight_pos_iff]
  rfl

/-- A step adds a message only by firing. -/
theorem Transition.mem_messages (transition : Transition (timerPool pShm) system action next)
    {envelope : Envelope} (queued : envelope ∈ next.messages) :
    envelope ∈ system.messages ∨
      (next.ledger envelope.timer).incarnation = envelope.incarnation ∧
        (next.whenToFire envelope.timer).toNat ≤ envelope.sentAt.toNat ∧
        envelope.sentAt = next.clock := by
  cases transition with
  | created | scheduled | cancelled | restarted | stopped | deleted | rested | revived =>
      exact Or.inl queued
  | fired current top heap onTop active count contents =>
      rcases List.mem_append.mp queued with earlier | sent
      · exact Or.inl earlier
      · rw [List.mem_singleton.mp sent]
        refine Or.inr ⟨?_, ?_, rfl⟩
        · simp only [send_ledger, setTimer_ledger, Function.update_self]
        · simp only [whenToFire, send_timers, setTimer_timers, Function.update_self, Timer.expired]
          exact onTop.due
  | ignored | rearmed | retired => exact Or.inl (List.mem_of_mem_eraseIdx queued)

/-- A step that frees no slot with messages keeps their incarnations. -/
theorem Transition.incarnation (transition : Transition (timerPool pShm) system action next)
    (frees : system.FreesUnqueued (timerPool pShm) action) {envelope : Envelope}
    (queued : envelope ∈ system.messages) (left : envelope ∈ next.messages) :
    (next.ledger envelope.timer).incarnation = (system.ledger envelope.timer).incarnation := by
  have present := inFlight_pos_of_mem queued
  by_cases touches : system.Touches envelope.timer action
  · cases transition with
    | created tasks fresh pool handed =>
        have different : envelope.timer ≠ fresh := by
          intro same
          have none := frees fresh handed
          rw [← same] at none
          omega
        simp only [setLedger_ledger]
        rw [Function.update_of_ne different]
        rfl
    | scheduled other request current rand timer heap live armed room inserted =>
        obtain rfl : other = envelope.timer := touches
        simp only [setLedger_ledger, Function.update_self]
    | cancelled | restarted | stopped | rested | revived | ignored => rfl
    | deleted other heap live vacated =>
        obtain rfl : other = envelope.timer := touches
        exact absurd frees (Nat.ne_of_gt present)
    | fired current top heap onTop =>
        obtain rfl := touches.unique onTop
        simp only [send_ledger, setTimer_ledger, Function.update_self]
    | rearmed position current found heap taken live rearms =>
        have named := touches.named taken
        rw [← named]
        simp only [setTimer_ledger, setLedger_ledger, Function.update_self, Ledger.triggered]
    | retired position current found heap taken live retires =>
        have named := touches.named taken
        have beside := (one_lt_inFlight_iff taken).mpr ⟨envelope, left, named.symm⟩
        exact absurd (frees found taken retires) (Nat.not_le.mpr beside)
  · rw [(transition.untouched touches).ledger]

/-- A step that sets no firing time under a message keeps them. -/
theorem Transition.firingTime (transition : Transition (timerPool pShm) system action next)
    (sets : system.SetsUnqueued action) {envelope : Envelope}
    (queued : envelope ∈ system.messages) (left : envelope ∈ next.messages) :
    next.whenToFire envelope.timer = system.whenToFire envelope.timer := by
  have present := inFlight_pos_of_mem queued
  unfold whenToFire
  by_cases touches : system.Touches envelope.timer action
  · cases transition with
    | created tasks fresh pool handed =>
        simp only [setLedger_timers, setTimer_timers]
        by_cases same : envelope.timer = fresh
        · rw [same, Function.update_self]
          cases tasks <;> rfl
        · rw [Function.update_of_ne same]
    | scheduled other =>
        obtain rfl : other = envelope.timer := touches
        exact absurd sets (Nat.ne_of_gt present)
    | cancelled other live =>
        obtain rfl : other = envelope.timer := touches
        simp only [cancel_timers_self]
    | restarted other =>
        obtain rfl : other = envelope.timer := touches
        exact absurd sets (Nat.ne_of_gt present)
    | stopped other result heap live removal =>
        obtain rfl : other = envelope.timer := touches
        simp only [setTimerState_timers_self]
    | deleted other heap live vacated =>
        obtain rfl : other = envelope.timer := touches
        rw [deleted_timers_self]
    | rested | ignored => rfl
    | fired current top heap onTop =>
        obtain rfl := touches.unique onTop
        simp only [send_timers, setTimer_timers, Function.update_self, Timer.expired]
    | revived current top heap onTop idle =>
        obtain rfl := touches.unique onTop
        exact absurd (sets _ onTop.holds onTop idle) (Nat.ne_of_gt present)
    | rearmed position current found heap taken live rearms =>
        have named := touches.named taken
        have beside := (one_lt_inFlight_iff taken).mpr ⟨envelope, left, named.symm⟩
        exact absurd (sets found taken rearms) (Nat.not_le.mpr beside)
    | retired position current found heap taken live retires =>
        have named := touches.named taken
        rw [← named]
        simp only [deleted_timers_self, setLedger_timers, receive_timers]
  · rw [(transition.untouched touches).timer]

/-- A slot that is freed or handed out under a queued message leaves the message with
another incarnation. -/
theorem Transition.freesUnqueued (transition : Transition (timerPool pShm) system action next)
    (same : system.SameIncarnation pShm) (kept : next.SameIncarnation pShm) :
    system.FreesUnqueued (timerPool pShm) action := by
  have settled : ∀ envelope ∈ system.messages, envelope ∈ next.messages →
      (next.ledger envelope.timer).incarnation = (system.ledger envelope.timer).incarnation :=
    fun envelope queued left => (kept envelope left).2.trans (same envelope queued).2.symm
  cases transition with
  | created tasks fresh pool handed =>
      intro object given
      cases handed.symm.trans given
      by_contra queued
      obtain ⟨envelope, member, rfl⟩ := inFlight_pos_iff.mp (Nat.pos_of_ne_zero queued)
      have unchanged := settled envelope member member
      simp only [setLedger_ledger, Function.update_self] at unchanged
      omega
  | deleted other heap live vacated =>
      by_contra queued
      obtain ⟨envelope, member, rfl⟩ := inFlight_pos_iff.mp (Nat.pos_of_ne_zero queued)
      have unchanged := settled envelope member member
      rw [deleted_ledger_self] at unchanged
      dsimp only at unchanged
      omega
  | ignored position current found taken stays remains =>
      intro other again retires
      cases taken.symm.trans again
      exact absurd retires remains
  | rearmed position current found heap taken live rearms =>
      intro other again retires
      cases taken.symm.trans again
      exact absurd retires rearms.not_retires
  | retired position current found heap taken live retires vacated =>
      intro other again _
      cases taken.symm.trans again
      by_contra beside
      obtain ⟨envelope, left, named⟩ := (one_lt_inFlight_iff taken).mp (Nat.not_le.mp beside)
      have unchanged := settled envelope (List.mem_of_mem_eraseIdx left) left
      rw [named] at unchanged
      simp only [deleted_ledger_self, setLedger_ledger, Function.update_self,
        Ledger.triggered] at unchanged
      omega
  | _ => trivial

/-- A step that frees no slot with messages lets them lead to the timers that fired. -/
theorem SameIncarnation.transition (same : system.SameIncarnation pShm)
    (wellFormed : next.WellFormed pShm)
    (transition : Transition (timerPool pShm) system action next)
    (frees : system.FreesUnqueued (timerPool pShm) action) : next.SameIncarnation pShm := by
  intro envelope left
  refine ⟨wellFormed.resolved envelope left, ?_⟩
  rcases transition.mem_messages left with queued | ⟨sent, _⟩
  · exact (transition.incarnation frees queued left).trans (same envelope queued).2
  · exact sent

/-- No message is in flight at the start. -/
theorem initial_sameIncarnation (pShm : UInt64) :
    (initial (timerPool pShm)).SameIncarnation pShm :=
  fun _ queued => absurd queued List.not_mem_nil

/-- In every run, every message leads to the timer that fired as long as no slot is
freed or handed out under a message, and only then; and its firing time had come, as
long as no firing time is set under a message. -/
theorem messages_lead_to_fired {actions : List Action} {final : TimerSystem}
    (executed : exec (step (timerPool pShm)) (initial (timerPool pShm)) actions = some final) :
    (Always (step (timerPool pShm)) (SameIncarnation pShm) (initial (timerPool pShm)) actions ↔
      Along (step (timerPool pShm)) (FreesUnqueued (timerPool pShm)) (initial (timerPool pShm))
        actions) ∧
    (Along (step (timerPool pShm)) SetsUnqueued (initial (timerPool pShm)) actions →
      Always (step (timerPool pShm)) FiringTimesReached (initial (timerPool pShm)) actions) := by
  constructor
  · refine always_iff_along (fun _ _ => True)
      (fun state => state.WellFormed pShm ∧ state.SameIncarnation pShm) (fun _ holds => holds.2) ?_
      ⟨initial_wellFormed pShm, initial_sameIncarnation pShm⟩
      (along_of_forall fun _ _ _ => trivial) executed
    rintro state action next ⟨wellFormed, same⟩ _ taken
    have transition := step_transition wellFormed taken
    have kept := transition.wellFormed wellFormed
    exact ⟨fun frees => ⟨kept, same.transition kept transition frees⟩,
      transition.freesUnqueued same⟩
  · intro sets
    refine Always.of_along
      (fun state : TimerSystem => state.WellFormed pShm ∧ state.FiringTimesReached)
      (fun _ holds => holds.2) ?_
      ⟨initial_wellFormed pShm, fun _ queued => absurd queued List.not_mem_nil⟩ sets
    rintro state action next ⟨wellFormed, reached⟩ unqueued taken
    have transition := step_transition wellFormed taken
    refine ⟨transition.wellFormed wellFormed, fun envelope left => ?_⟩
    rcases transition.mem_messages left with queued | ⟨_, sent, _⟩
    · rw [transition.firingTime unqueued queued left]
      exact reached envelope queued
    · exact sent

/-- Two one-shot timers fire and are delivered in the opposite order. -/
theorem messages_lead_to_fired_two :
    Always (step (timerPool 0)) (SameIncarnation 0) (initial (timerPool 0))
        [.new none, .new none,
          .schedule (timerAt 0) (.scheduleOneShotAtTimeout (some 0) 5 0) 0 0,
          .schedule (timerAt 1) (.scheduleOneShotAtTimeout (some 1) 7 0) 0 0,
          .timerTask 7, .timerTask 7, .deliver 1 8, .new none, .deliver 0 9] ∧
      Always (step (timerPool 0)) FiringTimesReached (initial (timerPool 0))
        [.new none, .new none,
          .schedule (timerAt 0) (.scheduleOneShotAtTimeout (some 0) 5 0) 0 0,
          .schedule (timerAt 1) (.scheduleOneShotAtTimeout (some 1) 7 0) 0 0,
          .timerTask 7, .timerTask 7, .deliver 1 8, .new none, .deliver 0 9] := by
  have runs : (exec (step (timerPool 0)) (initial (timerPool 0))
      [.new none, .new none,
        .schedule (timerAt 0) (.scheduleOneShotAtTimeout (some 0) 5 0) 0 0,
        .schedule (timerAt 1) (.scheduleOneShotAtTimeout (some 1) 7 0) 0 0,
        .timerTask 7, .timerTask 7, .deliver 1 8, .new none, .deliver 0 9]).isSome := by
    decide +kernel
  obtain ⟨final, executed⟩ := Option.isSome_iff_exists.mp runs
  obtain ⟨exactly, reached⟩ := messages_lead_to_fired executed
  exact ⟨exactly.mpr (by decide +kernel), reached (by decide +kernel)⟩

/-- A timer is deleted with its message queued, and its slot is handed out again: the
message triggers and deletes the new timer long before it is due. -/
theorem message_reaches_new_timer : ∃ before after,
    exec (step (timerPool 0)) (initial (timerPool 0))
      [.new none, .schedule (timerAt 0) (.scheduleOneShotAtTimeout (some 0) 5 0) 0 0,
        .timerTask 5, .delete (timerAt 0), .new none,
        .schedule (timerAt 0) (.scheduleOneShotAtTimeout (some 1) 500 0) 6 0] = some before ∧
      ¬ before.SameIncarnation 0 ∧ before.step (timerPool 0) (.deliver 0 7) = some after ∧
      before.whenToFire (timerAt 0) = 506 ∧
      (before.ledger (timerAt 0)).timesTriggered = 0 ∧
      (after.ledger (timerAt 0)).timesTriggered = 1 ∧
      timerAt 0 ∈ before.pool.outstanding ∧ timerAt 0 ∉ after.pool.outstanding := by
  let front : List Action :=
    [.new none, .schedule (timerAt 0) (.scheduleOneShotAtTimeout (some 0) 5 0) 0 0,
      .timerTask 5, .delete (timerAt 0), .new none,
      .schedule (timerAt 0) (.scheduleOneShotAtTimeout (some 1) 500 0) 6 0]
  have queued : (exec (step (timerPool 0)) (initial (timerPool 0)) front).map (fun before =>
      (before.messages.map (fun envelope => (envelope.timer, envelope.incarnation)),
        (before.ledger (timerAt 0)).incarnation, before.whenToFire (timerAt 0),
        (before.ledger (timerAt 0)).timesTriggered,
        decide (timerAt 0 ∈ before.pool.outstanding))) =
      some ([(timerAt 0, 1)], 3, 506, 0, true) := by
    decide +kernel
  have delivered : (exec (step (timerPool 0)) (initial (timerPool 0))
      (front ++ [.deliver 0 7])).map (fun after =>
        ((after.ledger (timerAt 0)).timesTriggered,
          decide (timerAt 0 ∈ after.pool.outstanding))) = some (1, false) := by
    decide +kernel
  obtain ⟨after, executed, evaluated⟩ := Option.map_eq_some_iff.mp delivered
  obtain ⟨before, toBefore, ran⟩ := exec_append_eq_some.mp executed
  rw [exec_singleton] at ran
  rw [toBefore, Option.map_some, Option.some.injEq] at queued
  simp only [Prod.mk.injEq, decide_eq_true_eq] at queued
  rw [Prod.mk.injEq, decide_eq_false_iff_not] at evaluated
  obtain ⟨messages, incarnation, due, untriggered, live⟩ := queued
  refine ⟨before, after, toBefore, fun same => ?_, ran, due, untriggered, evaluated.1, live,
    evaluated.2⟩
  have sent : (timerAt 0, 1) ∈
      before.messages.map fun envelope => (envelope.timer, envelope.incarnation) := by
    rw [messages]
    exact List.mem_singleton_self _
  obtain ⟨envelope, member, named⟩ := List.mem_map.mp sent
  rw [Prod.mk.injEq] at named
  have kept := (same envelope member).2
  rw [named.1, named.2] at kept
  omega

end TimerSystem

end TimerAndCallback
