import TimerAndCallback.Run.HeapSafety
import TimerAndCallback.Run.MessageIncarnation

/-! # Plain clients

Clients that only allocate timers and schedule each one once, for one instant and
with a callback. Their timers wait in the heap or have one message queued, never both,
and no step of theirs fails.
-/

namespace TimerAndCallback

/-- A call of an entry point without a window, with a callback. -/
def ScheduleRequest.Plain : ScheduleRequest → Prop
  | .scheduleOneShotAtAbsoluteTime pCb _ _ => pCb.isSome
  | .scheduleOneShotAtTimeout pCb _ _ => pCb.isSome
  | .schedulePeriodicAtAbsoluteTime pCb _ _ _ => pCb.isSome
  | .schedulePeriodicAtTimeout pCb _ _ => pCb.isSome
  | _ => False

instance (request : ScheduleRequest) : Decidable request.Plain :=
  match request with
  | .scheduleOneShotAtAbsoluteTime .. | .scheduleOneShotAtTimeout ..
  | .scheduleOneShotBetweenAbsoluteTimes .. | .scheduleOneShotBetweenTimeouts ..
  | .schedulePeriodicAtAbsoluteTime .. | .schedulePeriodicAtTimeout .. => by
      unfold ScheduleRequest.Plain
      infer_instance

/-- A timer with a callback that was scheduled is triggered by a delivery. -/
theorem Timer.rearms_or_retires {timer : Timer} (callback : timer.pCb.isSome)
    (typed : timer.type ≠ .Invalid) : timer.Rearms ∨ timer.Retires := by
  by_cases again : timer.FiresAgain
  · cases same : timer.type with
    | OneShot => exact Or.inr ⟨callback, Or.inl same⟩
    | Periodic => exact Or.inl ⟨callback, same, again⟩
    | Invalid => exact absurd same typed
  · cases same : timer.type with
    | OneShot => exact Or.inr ⟨callback, Or.inl same⟩
    | Periodic => exact Or.inr ⟨callback, Or.inr ⟨same, again⟩⟩
    | Invalid => exact absurd same typed

private theorem ScheduleRequest.Plain.pCb_isSome {request : ScheduleRequest}
    (plain : request.Plain) :
    request.arguments.pCb.isSome := by
  cases request with
  | scheduleOneShotBetweenAbsoluteTimes | scheduleOneShotBetweenTimeouts => exact plain.elim
  | _ => exact plain

/-- A plain request can be armed by every timer. -/
theorem ScheduleRequest.Plain.armable {request : ScheduleRequest} (plain : request.Plain)
    (timer : Timer) (current rand : UInt64) :
    (timer.arm request.arguments current rand).isSome := by
  cases request with
  | scheduleOneShotBetweenAbsoluteTimes | scheduleOneShotBetweenTimeouts => exact plain.elim
  | _ => rfl

namespace TimerSystem

open TimerMinHeap Execution

/-- The steps of plain clients, the timer task and the deliveries, with a clock that
does not go back. -/
def PlainStep (pTimerPool : MemoryPool) (system : TimerSystem) : Action → Prop
  | .new _ => system.pool.area.numberAllocated ≠ pTimerPool.maxNumberOfObjects
  | .schedule pTimer request current _ => pTimer ∈ system.pool.outstanding ∧
      (system.ledger pTimer).scheduled = false ∧ request.Plain ∧
      system.clock.toNat ≤ current.toNat
  | .timerTask current => system.clock.toNat ≤ current.toNat
  | .deliver position current => position < system.messages.length ∧
      system.clock.toNat ≤ current.toNat
  | _ => False

instance (pTimerPool : MemoryPool) (system : TimerSystem) (action : Action) :
    Decidable (system.PlainStep pTimerPool action) :=
  match action with
  | .new .. | .schedule .. | .cancel .. | .restart .. | .stop .. | .delete .. | .timerTask ..
  | .deliver .. => by
      unfold PlainStep
      infer_instance

/-- The timer is active, in the heap once, and no message for it is queued. -/
def InHeap (system : TimerSystem) (pTimer : UInt64) : Prop :=
  (system.timers pTimer).state = .Active ∧ system.occurrences pTimer = 1 ∧
    system.inFlight pTimer = 0

/-- The timer is done, not in the heap, and one message for it is queued. -/
def InQueue (system : TimerSystem) (pTimer : UInt64) : Prop :=
  (system.timers pTimer).state = .Done ∧ system.occurrences pTimer = 0 ∧
    system.inFlight pTimer = 1

/-- Every queued message was sent in the past, at the firing time of its timer or later. -/
def Timely (system : TimerSystem) : Prop :=
  ∀ envelope ∈ system.messages,
    (system.whenToFire envelope.timer).toNat ≤ envelope.sentAt.toNat ∧
      envelope.sentAt.toNat ≤ system.clock.toNat

/-- What plain clients can rely on. -/
structure Conserved (pShm : UInt64) (system : TimerSystem) : Prop where
  situation : ∀ pTimer ∈ system.pool.outstanding, (system.ledger pTimer).scheduled = true →
    Xor (system.InHeap pTimer) (system.InQueue pTimer)
  unallocated : ∀ pTimer, pTimer ∉ system.pool.outstanding →
    system.occurrences pTimer = 0 ∧ system.inFlight pTimer = 0
  bounded : system.minHeap.numberOfTimersBeingManaged ≤ MAX_NUMBER_OF_TIMERS
  triggered : ∀ pTimer ∈ system.pool.outstanding, (system.ledger pTimer).scheduled = true →
    ((system.ledger pTimer).timesTriggered + system.inFlight pTimer) % 2 ^ 32 =
      (system.timers pTimer).numberOfTimesFired.toNat
  indexed : ∀ envelope ∈ system.messages,
    getTimerAtIndex (timerPool pShm) envelope.message.shmIndex = envelope.timer
  timely : system.Timely

/-- A step triggers a callback only once the firing time of its timer has come. -/
def TriggersWhenReached (pTimerPool : MemoryPool) (system : TimerSystem) (action : Action) : Prop :=
  ∀ next ∈ system.step pTimerPool action, ∀ pTimer,
    (system.ledger pTimer).timesTriggered < (next.ledger pTimer).timesTriggered →
      (system.whenToFire pTimer).toNat ≤ next.clock.toNat

/-- A scheduled timer with its callback, whose triggers and queued messages add up to
its firings. -/
structure Held (system : TimerSystem) (pTimer : UInt64) : Prop where
  live : pTimer ∈ system.pool.outstanding
  scheduled : (system.ledger pTimer).scheduled = true
  callback : (system.timers pTimer).pCb.isSome
  typed : (system.timers pTimer).type ≠ .Invalid
  counted : ((system.ledger pTimer).timesTriggered + system.inFlight pTimer) % 2 ^ 32 =
    (system.timers pTimer).numberOfTimesFired.toNat

/-- The situations of one slot of the pool. -/
inductive Situation (system : TimerSystem) (pTimer : UInt64) : Prop
  | unscheduled
      (unscheduled : pTimer ∈ system.pool.outstanding →
        (system.ledger pTimer).scheduled = false ∧ (system.ledger pTimer).timesTriggered = 0)
      (silent : (system.timers pTimer).pCb = none)
      (outside : system.occurrences pTimer = 0) (unqueued : system.inFlight pTimer = 0)
  | waiting (held : system.Held pTimer) (inHeap : system.InHeap pTimer)
  | fired (held : system.Held pTimer) (inQueue : system.InQueue pTimer)

variable {pShm pTimer : UInt64} {system next : TimerSystem} {action : Action}

/-- A timer with an entry waits in the heap. -/
theorem Situation.waiting_of_occurrences (situation : system.Situation pTimer)
    (present : 0 < system.occurrences pTimer) : system.Held pTimer ∧ system.InHeap pTimer := by
  cases situation with
  | unscheduled _ _ outside => exact absurd outside (Nat.ne_of_gt present)
  | waiting held inHeap => exact ⟨held, inHeap⟩
  | fired _ inQueue => exact absurd inQueue.2.1 (Nat.ne_of_gt present)

/-- A timer with a message in flight has fired. -/
theorem Situation.fired_of_inFlight (situation : system.Situation pTimer)
    (queued : 0 < system.inFlight pTimer) : system.Held pTimer ∧ system.InQueue pTimer := by
  cases situation with
  | unscheduled _ _ _ unqueued => exact absurd unqueued (Nat.ne_of_gt queued)
  | waiting _ inHeap => exact absurd inHeap.2.2 (Nat.ne_of_gt queued)
  | fired held inQueue => exact ⟨held, inQueue⟩

/-- A scheduled timer waits in the heap or has a message queued. -/
theorem Situation.of_scheduled (situation : system.Situation pTimer)
    (live : pTimer ∈ system.pool.outstanding)
    (scheduled : (system.ledger pTimer).scheduled = true) :
    system.Held pTimer ∧ (system.InHeap pTimer ∨ system.InQueue pTimer) := by
  cases situation with
  | unscheduled unscheduled =>
      exact absurd ((unscheduled live).1.symm.trans scheduled) Bool.false_ne_true
  | waiting held inHeap => exact ⟨held, Or.inl inHeap⟩
  | fired held inQueue => exact ⟨held, Or.inr inQueue⟩

/-- A timer in one of the situations fits. -/
theorem Situation.fits (situation : system.Situation pTimer) : system.Fits pTimer := by
  cases situation with
  | unscheduled _ _ outside => exact fits_of_absent outside
  | waiting held inHeap =>
      refine ⟨inHeap.2.1.le, fun _ => held.live, fun _ => ?_⟩
      rw [inHeap.1]
      exact TimerState.noConfusion
  | fired _ inQueue => exact fits_of_absent inQueue.2.1

/-- A timer that is untouched stays held. -/
theorem Held.untouched (held : system.Held pTimer) (frame : Untouched pTimer system next) :
    next.Held pTimer where
  live := frame.live.mpr held.live
  scheduled := frame.ledger ▸ held.scheduled
  callback := frame.timer ▸ held.callback
  typed := frame.timer ▸ held.typed
  counted := by
    rw [frame.ledger, frame.timer, frame.inFlight]
    exact held.counted

/-- A timer that is untouched stays in its situation. -/
theorem Situation.untouched (situation : system.Situation pTimer)
    (frame : Untouched pTimer system next)
    (kept : next.occurrences pTimer = system.occurrences pTimer) : next.Situation pTimer := by
  cases situation with
  | unscheduled unscheduled silent outside unqueued =>
      refine .unscheduled (fun live => ?_) (frame.timer ▸ silent) (kept.trans outside)
        (frame.inFlight.trans unqueued)
      rw [frame.ledger]
      exact unscheduled (frame.live.mp live)
  | waiting held inHeap =>
      exact .waiting (held.untouched frame)
        ⟨frame.timer ▸ inHeap.1, kept.trans inHeap.2.1, frame.inFlight.trans inHeap.2.2⟩
  | fired held inQueue =>
      exact .fired (held.untouched frame)
        ⟨frame.timer ▸ inQueue.1, kept.trans inQueue.2.1, frame.inFlight.trans inQueue.2.2⟩

/-- A timer that is delivered is done, so that plain steps never search the heap. -/
theorem PlainStep.searched_eq_none (plain : system.PlainStep (timerPool pShm) action)
    (situations : ∀ pTimer, system.Situation pTimer) : system.searched action = none := by
  cases action with
  | new | schedule | timerTask => rfl
  | cancel | restart | stop | delete => exact plain.elim
  | deliver position current =>
      have queued := List.getElem?_eq_getElem plain.1
      have present := LeadsTo.inFlight_pos ⟨_, queued, rfl⟩
      have inQueue := ((situations _).fired_of_inFlight present).2
      rw [searched, queued, Option.bind_some]
      exact if_neg fun retires => retires.2 (Or.inr inQueue.1)

/-- A plain step that touches a timer moves it from one situation to another. -/
theorem Situation.step (situation : system.Situation pTimer)
    (transition : Transition (timerPool pShm) system action next)
    (plain : system.PlainStep (timerPool pShm) action)
    (touches : system.Touches pTimer action) : next.Situation pTimer := by
  cases transition with
  | created tasks fresh pool handed free sound outstanding =>
      cases situation with
      | unscheduled unscheduled silent outside unqueued =>
          by_cases same : pTimer = fresh
          · subst same
            refine .unscheduled (fun _ => ?_) ?_ outside unqueued
            · simp only [setLedger_ledger, Function.update_self, and_self]
            · simp only [setLedger_timers, setTimer_timers, Function.update_self]
              cases tasks with
              | none => rfl
              | some => exact silent
          · refine .unscheduled (fun live => ?_) ?_ outside unqueued
            · dsimp only at live
              rw [outstanding, Finset.mem_insert] at live
              exact absurd (live.resolve_left same) touches
            · simp only [setLedger_timers, setTimer_timers]
              rw [Function.update_of_ne same]
              exact silent
      | waiting held => exact absurd held.live touches
      | fired held => exact absurd held.live touches
  | scheduled other request current rand timer heap live armed room inserted =>
      obtain rfl : other = pTimer := touches
      obtain ⟨_, fresh, asked, _⟩ := plain
      cases situation with
      | unscheduled unscheduled silent outside unqueued =>
          have fields := Timer.arm_armed armed
          refine .waiting ⟨live, ?_, ?_, ?_, ?_⟩ ⟨?_, inserted.once outside, unqueued⟩
          · simp only [setLedger_ledger, Function.update_self]
          · simp only [setLedger_timers, setTimer_timers, Function.update_self]
            rw [fields.pCb, silent]
            exact ScheduleRequest.Plain.pCb_isSome asked
          · simp only [setLedger_timers, setTimer_timers, Function.update_self]
            rw [fields.type]
            exact request.type_ne_invalid
          · simp only [setLedger_timers, setTimer_timers, setLedger_ledger, Function.update_self]
            rw [fields.numberOfTimesFired, (unscheduled live).2]
            exact congrArg (fun queued => (0 + queued) % 2 ^ 32) unqueued
          · simp only [setLedger_timers, setTimer_timers, Function.update_self]
            exact fields.state
      | waiting held => exact absurd (fresh.symm.trans held.scheduled) Bool.false_ne_true
      | fired held => exact absurd (fresh.symm.trans held.scheduled) Bool.false_ne_true
  | rested current => exact situation.untouched ⟨rfl, rfl, Iff.rfl, rfl, le_rfl⟩ rfl
  | fired current top heap onTop active count contents =>
      obtain rfl := touches.unique onTop
      obtain ⟨held, inHeap⟩ := situation.waiting_of_occurrences onTop.occurrences_pos
      have once := inHeap.2.1
      unfold occurrences at once
      rw [contents, Multiset.count_cons_self] at once
      have sent : (({ system with minHeap := heap, clock := current }.setTimer pTimer
          (system.timers pTimer).expired).send pTimer
            ⟨.TimerTask, 0, getIndex (timerPool pShm) pTimer⟩ current).inFlight pTimer = 1 := by
        rw [send_inFlight, if_pos rfl]
        exact congrArg (· + 1) inHeap.2.2
      refine .fired ⟨held.live, ?_, ?_, ?_, ?_⟩ ⟨?_, Nat.succ.inj once, sent⟩
      · simp only [send_ledger, setTimer_ledger, Function.update_self]
        exact held.scheduled
      · simp only [send_timers, setTimer_timers, Function.update_self]
        exact held.callback
      · simp only [send_timers, setTimer_timers, Function.update_self]
        exact held.typed
      · have counted := held.counted
        rw [inHeap.2.2, Nat.add_zero] at counted
        rw [sent]
        simp only [send_ledger, send_timers, setTimer_ledger, setTimer_timers,
          Function.update_self, Timer.expired, UInt32.toNat_add]
        rw [← counted, Nat.mod_add_mod]
        rfl
      · simp only [send_timers, setTimer_timers, Function.update_self, Timer.expired]
  | revived current top heap onTop idle =>
      obtain rfl := touches.unique onTop
      have inHeap := (situation.waiting_of_occurrences onTop.occurrences_pos).2
      exact TimerState.noConfusion (idle.symm.trans inHeap.1)
  | ignored position current envelope queued stays remains =>
      have held := (situation.fired_of_inFlight touches.inFlight_pos).1
      obtain rfl := touches.named queued
      rcases Timer.rearms_or_retires held.callback held.typed with rearms | retires
      · exact absurd rearms stays
      · exact absurd retires remains
  | rearmed position current envelope heap queued live rearms room inserted =>
      obtain ⟨held, inQueue⟩ := situation.fired_of_inFlight touches.inFlight_pos
      obtain rfl := touches.named queued
      have left := receive_inFlight_self queued current
      rw [inQueue.2.2] at left
      refine .waiting ⟨live, ?_, ?_, ?_, ?_⟩
        ⟨?_, inserted.once inQueue.2.1, Nat.succ.inj left⟩
      · simp only [setTimer_ledger, setLedger_ledger, Function.update_self]
        exact held.scheduled
      · simp only [setTimer_timers_self]
        exact held.callback
      · simp only [setTimer_timers_self]
        exact held.typed
      · have counted := held.counted
        rw [inQueue.2.2] at counted
        simp only [setTimer_timers, setTimer_ledger, setLedger_ledger, Function.update_self,
          Ledger.triggered, Timer.requeued]
        rw [← counted]
        exact congrArg (fun queued => (_ + 1 + queued) % 2 ^ 32) (Nat.succ.inj left)
      · simp only [setTimer_timers_self, Timer.requeued]
  | retired position current envelope heap queued live retires vacated =>
      obtain ⟨_, inQueue⟩ := situation.fired_of_inFlight touches.inFlight_pos
      obtain rfl := touches.named queued
      have left := receive_inFlight_self queued current
      rw [inQueue.2.2] at left
      refine .unscheduled (fun live => absurd live (Finset.notMem_erase _ _)) ?_ ?_
        (Nat.succ.inj left)
      · rw [deleted_timers_self]
      · refine Nat.le_zero.mp ((vacated.occurrences_le _).trans ?_)
        exact inQueue.2.1.le
  | cancelled | restarted | stopped | deleted => exact plain.elim

/-- What every state of a run of plain clients satisfies. -/
structure PlainClients (pShm : UInt64) (system : TimerSystem) : Prop where
  wellFormed : system.WellFormed pShm
  situations : ∀ pTimer, system.Situation pTimer
  timely : system.Timely

/-- Plain clients conserve their timers. -/
theorem PlainClients.conserved (plainClients : system.PlainClients pShm) :
    system.Conserved pShm where
  situation pTimer live scheduled := by
    rcases ((plainClients.situations pTimer).of_scheduled live scheduled).2 with inHeap | inQueue
    · refine Or.inl ⟨inHeap, fun inQueue => ?_⟩
      exact TimerState.noConfusion (inHeap.1.symm.trans inQueue.1)
    · refine Or.inr ⟨inQueue, fun inHeap => ?_⟩
      exact TimerState.noConfusion (inHeap.1.symm.trans inQueue.1)
  unallocated pTimer dead := by
    cases plainClients.situations pTimer with
    | unscheduled _ _ outside unqueued => exact ⟨outside, unqueued⟩
    | waiting held => exact absurd held.live dead
    | fired held => exact absurd held.live dead
  bounded := plainClients.wellFormed.managed.count
  triggered pTimer live scheduled :=
    ((plainClients.situations pTimer).of_scheduled live scheduled).1.counted
  indexed := plainClients.wellFormed.resolved
  timely := plainClients.timely

/-- Plain clients have their timers represented in the heap. -/
theorem PlainClients.represented (plainClients : system.PlainClients pShm) : system.Represented :=
  plainClients.wellFormed.represented fun pTimer => (plainClients.situations pTimer).fits

/-- Plain steps set no firing time under a message. -/
theorem PlainClients.setsUnqueued (plainClients : system.PlainClients pShm)
    (plain : system.PlainStep (timerPool pShm) action) : system.SetsUnqueued action := by
  cases action with
  | schedule pTimer =>
      cases plainClients.situations pTimer with
      | unscheduled _ _ _ unqueued => exact unqueued
      | waiting _ inHeap => exact inHeap.2.2
      | fired held => exact absurd (plain.2.1.symm.trans held.scheduled) Bool.false_ne_true
  | timerTask current =>
      intro top holds onTop idle
      have inHeap := ((plainClients.situations top).waiting_of_occurrences onTop.occurrences_pos).2
      exact inHeap.2.2
  | deliver position current =>
      intro envelope queued rearms
      have present := LeadsTo.inFlight_pos ⟨envelope, queued, rfl⟩
      exact ((plainClients.situations _).fired_of_inFlight present).2.2.2.le
  | new | cancel | stop | delete => trivial
  | restart => exact plain.elim

/-- The clock of plain clients does not go back. -/
theorem Transition.clock_le (transition : Transition (timerPool pShm) system action next)
    (plain : system.PlainStep (timerPool pShm) action) :
    system.clock.toNat ≤ next.clock.toNat := by
  cases transition with
  | created => exact le_rfl
  | scheduled => exact plain.2.2.2
  | rested | fired | revived => exact plain
  | ignored | rearmed | retired => exact plain.2
  | cancelled | restarted | stopped | deleted => exact plain.elim

/-- Every plain step keeps the clients plain. -/
theorem PlainClients.transition (plainClients : system.PlainClients pShm)
    (transition : Transition (timerPool pShm) system action next)
    (plain : system.PlainStep (timerPool pShm) action) : next.PlainClients pShm where
  wellFormed := transition.wellFormed plainClients.wellFormed
  situations pTimer := by
    by_cases touches : system.Touches pTimer action
    · exact (plainClients.situations pTimer).step transition plain touches
    · refine (plainClients.situations pTimer).untouched (transition.untouched touches) ?_
      refine transition.occurrences_kept touches fun other searches => ?_
      rw [plain.searched_eq_none plainClients.situations] at searches
      cases searches
  timely envelope left := by
    have later := transition.clock_le plain
    rcases transition.mem_messages left with queued | ⟨_, reached, sent⟩
    · obtain ⟨reached, past⟩ := plainClients.timely envelope queued
      rw [transition.firingTime (plainClients.setsUnqueued plain) queued left]
      exact ⟨reached, past.trans later⟩
    · exact ⟨reached, (congrArg UInt64.toNat sent).le⟩

/-- No step of plain clients fails. -/
theorem PlainClients.taken (plainClients : system.PlainClients pShm)
    (plain : system.PlainStep (timerPool pShm) action) :
    ∃ next, system.step (timerPool pShm) action = some next := by
  have unsearched := plain.searched_eq_none plainClients.situations
  refine step_taken plainClients.wellFormed plainClients.represented ?_ ?_ ?_
  · cases action with
    | new => exact plain
    | schedule => exact ⟨plain.1, ScheduleRequest.Plain.armable plain.2.2.1 _ _ _⟩
    | timerTask => trivial
    | deliver => exact plain.1
    | cancel | restart | stop | delete => exact plain.elim
  · cases action with
    | new | timerTask => trivial
    | schedule pTimer =>
        intro member
        have held := ((plainClients.situations pTimer).waiting_of_occurrences
          (occurrences_pos_iff.mpr member)).1
        exact absurd (plain.2.1.symm.trans held.scheduled) Bool.false_ne_true
    | deliver position current =>
        intro envelope queued
        have present := LeadsTo.inFlight_pos ⟨envelope, queued, rfl⟩
        have inQueue := ((plainClients.situations _).fired_of_inFlight present).2
        have outside : some envelope.timer ∉ system.minHeap.contents :=
          Multiset.count_eq_zero.mp inQueue.2.1
        exact ⟨fun _ => outside, fun _ member => absurd member outside⟩
    | cancel | restart | stop | delete => exact plain.elim
  · intro searched searches
    rw [unsearched] at searches
    cases searches

private theorem PlainClients.triggersWhenReached (plainClients : system.PlainClients pShm)
    (plain : system.PlainStep (timerPool pShm) action) :
    system.TriggersWhenReached (timerPool pShm) action := by
  intro next taken pTimer more
  have transition := step_transition plainClients.wellFormed taken
  have later := transition.clock_le plain
  have delivered : ∀ {position : Nat}, system.LeadsTo position pTimer →
      (system.whenToFire pTimer).toNat ≤ next.clock.toNat := by
    rintro position ⟨envelope, queued, rfl⟩
    obtain ⟨reached, past⟩ := plainClients.timely envelope (List.mem_of_getElem? queued)
    exact (reached.trans past).trans later
  by_cases touches : system.Touches pTimer action
  · cases transition with
    | created tasks fresh =>
        by_cases same : pTimer = fresh
        · subst same
          simp only [setLedger_ledger, Function.update_self, Nat.not_lt_zero] at more
        · simp only [setLedger_ledger] at more
          rw [Function.update_of_ne same] at more
          exact absurd more (Nat.lt_irrefl _)
    | scheduled other =>
        obtain rfl : other = pTimer := touches
        simp only [setLedger_ledger, Function.update_self, Nat.lt_irrefl] at more
    | rested | revived => exact absurd more (Nat.lt_irrefl _)
    | fired current top heap onTop =>
        obtain rfl := touches.unique onTop
        simp only [send_ledger, setTimer_ledger, Function.update_self, Nat.lt_irrefl] at more
    | ignored | rearmed | retired => exact delivered touches
    | cancelled | restarted | stopped | deleted => exact plain.elim
  · rw [(transition.untouched touches).ledger] at more
    exact absurd more (Nat.lt_irrefl _)

/-- The clients start plain. -/
theorem initial_plainClients (pShm : UInt64) :
    (initial (timerPool pShm)).PlainClients pShm where
  wellFormed := initial_wellFormed pShm
  situations _ := .unscheduled (fun live => absurd live (Finset.notMem_empty _)) rfl
    (Multiset.count_zero _) rfl
  timely _ queued := absurd queued List.not_mem_nil

/-- However plain clients, the timer task and the deliveries are interleaved, no step
fails, every scheduled timer waits in the heap or has one message queued, and no
callback is triggered early. -/
theorem plainClients_conserved {actions : List Action}
    (plain : Along (step (timerPool pShm)) (PlainStep (timerPool pShm))
      (initial (timerPool pShm)) actions) :
    (∃ final, exec (step (timerPool pShm)) (initial (timerPool pShm)) actions = some final) ∧
      Always (step (timerPool pShm)) (Conserved pShm) (initial (timerPool pShm)) actions ∧
      Along (step (timerPool pShm)) (TriggersWhenReached (timerPool pShm))
        (initial (timerPool pShm)) actions := by
  have start := initial_plainClients pShm
  have kept : ∀ (state : TimerSystem) (action : Action) (next : TimerSystem),
      state.PlainClients pShm → state.PlainStep (timerPool pShm) action →
      state.step (timerPool pShm) action = some next → next.PlainClients pShm :=
    fun _ _ _ plainClients admitted taken =>
      plainClients.transition (step_transition plainClients.wellFormed taken) admitted
  refine ⟨?_, ?_, ?_⟩
  · have taken : ∀ (state : TimerSystem) (action : Action), state.PlainClients pShm →
        state.PlainStep (timerPool pShm) action →
        ∃ next, state.step (timerPool pShm) action = some next ∧ next.PlainClients pShm := by
      intro state action plainClients plain
      obtain ⟨next, stepped⟩ := plainClients.taken plain
      exact ⟨next, stepped, kept state action next plainClients plain stepped⟩
    obtain ⟨final, executed, _⟩ := exec_progress taken start plain
    exact ⟨final, executed⟩
  · exact Always.of_along (PlainClients pShm) (fun _ plainClients => plainClients.conserved)
      kept start plain
  · exact Along.of_invariant (PlainClients pShm)
      (fun _ _ plainClients admitted => plainClients.triggersWhenReached admitted) kept start plain

/-- Two plain timers; the slot of the one-shot is handed out and scheduled again. -/
theorem plainClients_conserved_two : ∃ actions : List Action,
    actions = [.new none, .new none,
      .schedule (timerAt 0) (.scheduleOneShotAtTimeout (some 0) 5 0) 0 0,
      .schedule (timerAt 1) (.schedulePeriodicAtTimeout (some 1) 7 3) 0 0,
      .timerTask 7, .timerTask 8, .deliver 1 8, .deliver 0 9, .new none,
      .schedule (timerAt 0) (.scheduleOneShotAtTimeout (some 2) 5 0) 9 0] ∧
    (∃ final, exec (step (timerPool 0)) (initial (timerPool 0)) actions = some final) ∧
      Always (step (timerPool 0)) (Conserved 0) (initial (timerPool 0)) actions ∧
      Along (step (timerPool 0)) (TriggersWhenReached (timerPool 0)) (initial (timerPool 0))
        actions :=
  ⟨_, rfl, plainClients_conserved (by decide +kernel)⟩

end TimerSystem

end TimerAndCallback
