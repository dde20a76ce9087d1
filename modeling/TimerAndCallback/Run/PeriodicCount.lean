import TimerAndCallback.Run.PlainClient

/-! # How often a periodic timer is triggered

The timer task counts a firing before it sends the message, and `processACallback`
compares the count with the requested number by `≤`. The delivery that brings the
triggers to the requested number therefore adds the timer to the heap once more.
-/

namespace TimerAndCallback

/-- A call of an entry point for periodic timers, with the number of firings. -/
def ScheduleRequest.Repeats (howManyTimesToFire : UInt32) : ScheduleRequest → Prop
  | .schedulePeriodicAtAbsoluteTime _ _ _ howMany => howMany = howManyTimesToFire
  | .schedulePeriodicAtTimeout _ _ howMany => howMany = howManyTimesToFire
  | _ => False

/-- What an entry point for periodic timers passes on. -/
theorem ScheduleRequest.Repeats.arguments {request : ScheduleRequest} {howMany : UInt32}
    (repeats : request.Repeats howMany) :
    request.arguments.type = .Periodic ∧ request.arguments.howManyTimesToFire = howMany := by
  cases request with
  | schedulePeriodicAtAbsoluteTime | schedulePeriodicAtTimeout => exact ⟨rfl, repeats⟩
  | _ => exact repeats.elim

namespace TimerSystem

open TimerMinHeap Execution

/-- Steps that leave a timer to the timer task and the deliveries, until its slot is
handed out again. -/
def LeavesPeriodic (pTimerPool : MemoryPool) (pTimer : UInt64) (system : TimerSystem) :
    Action → Prop
  | .new _ => pTimerPool.handedOut system.pool.area ≠ some pTimer
  | .schedule other _ _ _ => other ≠ pTimer
  | .cancel other => other ≠ pTimer
  | .restart other _ => other ≠ pTimer
  | .stop other => other ≠ pTimer
  | .delete other => other ≠ pTimer
  | _ => True

/-- Since it was scheduled the timer was triggered this many times, and then deleted. -/
def FiredExactly (pTimer : UInt64) (times : Nat) (scheduled final : TimerSystem) : Prop :=
  (final.ledger pTimer).timesTriggered = (scheduled.ledger pTimer).timesTriggered + times ∧
    pTimer ∉ final.pool.outstanding

/-- A periodic timer whose callback had been triggered `earlier` times when it was
scheduled. It fires at most once for each trigger since, and once ahead of them. -/
structure Repeating (pTimer : UInt64) (howMany : UInt32) (earlier : Nat) (system : TimerSystem) :
    Prop where
  live : pTimer ∈ system.pool.outstanding
  scheduled : (system.ledger pTimer).scheduled = true
  type : (system.timers pTimer).type = .Periodic
  howManyTimesToFire : (system.timers pTimer).howManyTimesToFire = howMany
  balance :
    (system.timers pTimer).state = .Active ∧
        earlier + (system.timers pTimer).numberOfTimesFired.toNat ≤
          (system.ledger pTimer).timesTriggered ∨
      (system.timers pTimer).state = .Done ∧
        earlier + (system.timers pTimer).numberOfTimesFired.toNat ≤
          (system.ledger pTimer).timesTriggered + 1

/-- The timer still repeats, or was triggered more often than requested. -/
structure Counting (pShm pTimer : UInt64) (howMany : UInt32) (earlier : Nat)
    (system : TimerSystem) : Prop where
  wellFormed : system.WellFormed pShm
  count : system.Repeating pTimer howMany earlier ∨
    earlier + howMany.toNat < (system.ledger pTimer).timesTriggered

variable {pShm pTimer : UInt64} {howMany : UInt32} {earlier : Nat} {system next : TimerSystem}
  {action : Action}

/-- A timer that is untouched goes on repeating. -/
theorem Repeating.untouched (repeating : system.Repeating pTimer howMany earlier)
    (frame : Untouched pTimer system next) : next.Repeating pTimer howMany earlier where
  live := frame.live.mpr repeating.live
  scheduled := frame.ledger ▸ repeating.scheduled
  type := frame.timer ▸ repeating.type
  howManyTimesToFire := frame.timer ▸ repeating.howManyTimesToFire
  balance := by
    rw [frame.timer, frame.ledger]
    exact repeating.balance

/-- Scheduling starts the count. -/
theorem Transition.repeating {request : ScheduleRequest} {current rand : UInt64}
    (transition : Transition (timerPool pShm) system (.schedule pTimer request current rand) next)
    (repeats : request.Repeats howMany) :
    next.Repeating pTimer howMany (next.ledger pTimer).timesTriggered := by
  cases transition with
  | scheduled _ _ _ _ timer heap live armed room inserted =>
      have fields := Timer.arm_armed armed
      refine ⟨live, ?_, ?_, ?_, Or.inl ⟨?_, ?_⟩⟩
      · simp only [setLedger_ledger, Function.update_self]
      · simp only [setLedger_timers, setTimer_timers, Function.update_self]
        exact fields.type.trans repeats.arguments.1
      · simp only [setLedger_timers, setTimer_timers, Function.update_self]
        exact fields.howManyTimesToFire.trans repeats.arguments.2
      · simp only [setLedger_timers, setTimer_timers, Function.update_self]
        exact fields.state
      · simp only [setLedger_timers, setTimer_timers, Function.update_self]
        rw [fields.numberOfTimesFired]
        exact le_rfl

/-- The triggers of a slot are counted up until it is handed out again. -/
theorem Transition.timesTriggered_le (transition : Transition (timerPool pShm) system action next)
    (leaves : system.LeavesPeriodic (timerPool pShm) pTimer action) :
    (system.ledger pTimer).timesTriggered ≤ (next.ledger pTimer).timesTriggered := by
  by_cases touches : system.Touches pTimer action
  · cases transition with
    | created tasks fresh pool handed =>
        have different : pTimer ≠ fresh := fun same => leaves (same ▸ handed)
        simp only [setLedger_ledger]
        rw [Function.update_of_ne different]
        exact le_rfl
    | scheduled | cancelled | restarted | stopped | deleted => exact absurd touches leaves
    | rested | revived | ignored => exact le_rfl
    | fired current top heap onTop =>
        obtain rfl := touches.unique onTop
        simp only [send_ledger, setTimer_ledger, Function.update_self, le_refl]
    | rearmed position current envelope heap queued =>
        obtain rfl := touches.named queued
        simp only [setTimer_ledger, setLedger_ledger, Function.update_self, Ledger.triggered]
        exact Nat.le_succ _
    | retired position current envelope heap queued =>
        obtain rfl := touches.named queued
        simp only [deleted_ledger_self, setLedger_ledger, Function.update_self, Ledger.triggered]
        exact Nat.le_succ _
  · rw [(transition.untouched touches).ledger]

/-- A timer is deleted by a delivery only when it fired more often than requested. -/
theorem Repeating.step (repeating : system.Repeating pTimer howMany earlier)
    (transition : Transition (timerPool pShm) system action next)
    (leaves : system.LeavesPeriodic (timerPool pShm) pTimer action)
    (touches : system.Touches pTimer action) :
    next.Repeating pTimer howMany earlier ∨
      earlier + howMany.toNat < (next.ledger pTimer).timesTriggered := by
  have bounded : earlier + (system.timers pTimer).numberOfTimesFired.toNat ≤
      (system.ledger pTimer).timesTriggered + 1 := by
    rcases repeating.balance with ⟨_, balance⟩ | ⟨_, balance⟩
    · exact Nat.le_succ_of_le balance
    · exact balance
  cases transition with
  | created => exact absurd repeating.live touches
  | scheduled | cancelled | restarted | stopped | deleted => exact absurd touches leaves
  | rested current =>
      exact Or.inl ⟨repeating.live, repeating.scheduled, repeating.type,
        repeating.howManyTimesToFire, repeating.balance⟩
  | fired current top heap onTop active =>
      obtain rfl := touches.unique onTop
      have balance : earlier + (system.timers pTimer).numberOfTimesFired.toNat ≤
          (system.ledger pTimer).timesTriggered := by
        rcases repeating.balance with ⟨_, balance⟩ | ⟨done, _⟩
        · exact balance
        · exact TimerState.noConfusion (done.symm.trans active)
      refine Or.inl ⟨repeating.live, ?_, ?_, ?_, Or.inr ⟨?_, ?_⟩⟩
      · simp only [send_ledger, setTimer_ledger, Function.update_self]
        exact repeating.scheduled
      · simp only [send_timers, setTimer_timers, Function.update_self]
        exact repeating.type
      · simp only [send_timers, setTimer_timers, Function.update_self]
        exact repeating.howManyTimesToFire
      · simp only [send_timers, setTimer_timers, Function.update_self, Timer.expired]
      · simp only [send_timers, setTimer_timers, send_ledger, setTimer_ledger,
          Function.update_self, Timer.expired, UInt32.toNat_add]
        -- where the count wraps around it only gets smaller
        have wraps := Nat.mod_le
          ((system.timers pTimer).numberOfTimesFired.toNat + (1 : UInt32).toNat) (2 ^ 32)
        have one : (1 : UInt32).toNat = 1 := rfl
        omega
  | revived current top heap onTop idle =>
      obtain rfl := touches.unique onTop
      rcases repeating.balance with ⟨active, _⟩ | ⟨done, _⟩
      · exact TimerState.noConfusion (active.symm.trans idle)
      · exact TimerState.noConfusion (done.symm.trans idle)
  | ignored position current =>
      exact Or.inl ⟨repeating.live, repeating.scheduled, repeating.type,
        repeating.howManyTimesToFire, repeating.balance⟩
  | rearmed position current envelope heap queued =>
      obtain rfl := touches.named queued
      refine Or.inl ⟨repeating.live, ?_, ?_, ?_, Or.inl ⟨?_, ?_⟩⟩
      · simp only [setTimer_ledger, setLedger_ledger, Function.update_self]
        exact repeating.scheduled
      · simp only [setTimer_timers_self]
        exact repeating.type
      · simp only [setTimer_timers_self]
        exact repeating.howManyTimesToFire
      · simp only [setTimer_timers_self, Timer.requeued]
      · simp only [setTimer_timers, setTimer_ledger, setLedger_ledger, Function.update_self,
          Timer.requeued, Ledger.triggered]
        exact bounded
  | retired position current envelope heap queued live retires =>
      obtain rfl := touches.named queued
      apply Or.inr
      simp only [deleted_ledger_self, setLedger_ledger, Function.update_self, Ledger.triggered]
      rcases retires.2 with oneShot | ⟨_, exhausted⟩
      · exact TimerType.noConfusion (repeating.type.symm.trans oneShot)
      · rw [Timer.FiresAgain, repeating.howManyTimesToFire, not_or, UInt32.le_iff_toNat_le,
          Nat.not_le] at exhausted
        have exceeded := exhausted.1
        omega

/-- Every step that leaves the timer to the timer task keeps the count. -/
theorem Counting.step (counting : system.Counting pShm pTimer howMany earlier)
    (leaves : system.LeavesPeriodic (timerPool pShm) pTimer action)
    (taken : system.step (timerPool pShm) action = some next) :
    next.Counting pShm pTimer howMany earlier := by
  have transition := step_transition counting.wellFormed taken
  refine ⟨transition.wellFormed counting.wellFormed, ?_⟩
  rcases counting.count with repeating | exceeded
  · by_cases touches : system.Touches pTimer action
    · exact repeating.step transition leaves touches
    · exact Or.inl (repeating.untouched (transition.untouched touches))
  · exact Or.inr (exceeded.trans_le (transition.timesTriggered_le leaves))

/-- As long as the callback was triggered no more often than requested, the timer is
allocated and repeats. -/
theorem Counting.repeating (counting : system.Counting pShm pTimer howMany earlier)
    (within : (system.ledger pTimer).timesTriggered ≤ earlier + howMany.toNat) :
    system.Repeating pTimer howMany earlier :=
  counting.count.resolve_right (Nat.not_lt.mpr within)

section Served

/-- The last value the clock can show. Every firing time has come by then. -/
def latest : UInt64 := UInt64.ofNat (2 ^ 64 - 1)

private theorem le_latest (time : UInt64) : time.toNat ≤ latest.toNat :=
  Nat.le_of_lt_succ time.toNat_lt

/-- Turns of the timer task and deliveries, at the last value of the clock. -/
def Served : Action → Prop
  | .timerTask current => current = latest
  | .deliver _ current => current = latest
  | _ => False

/-- Turns of the timer task and deliveries lead from one state of plain clients to another. -/
def Serves (pShm : UInt64) (first last : TimerSystem) : Prop :=
  ∃ actions, (∀ action ∈ actions, Served action) ∧
    exec (TimerSystem.step (timerPool pShm)) first actions = some last

/-- The steps that serve the timers leave each of them to the timer task. -/
theorem Served.leaves (served : Served action) :
    system.LeavesPeriodic (timerPool pShm) pTimer action := by
  cases action with
  | timerTask | deliver => trivial
  | _ => exact served.elim

/-- No step is needed to stay. -/
theorem Serves.refl (pShm : UInt64) (system : TimerSystem) : Serves pShm system system :=
  ⟨[], fun _ member => absurd member List.not_mem_nil, rfl⟩

/-- Steps that serve and then serve on. -/
theorem Serves.trans {first middle last : TimerSystem} (front : Serves pShm first middle)
    (back : Serves pShm middle last) : Serves pShm first last := by
  obtain ⟨actions, served, executed⟩ := front
  obtain ⟨others, also, remaining⟩ := back
  refine ⟨actions ++ others, fun action member => ?_,
    exec_append_eq_some.mpr ⟨middle, executed, remaining⟩⟩
  rcases List.mem_append.mp member with earlier | later
  · exact served action earlier
  · exact also action later

/-- One step that serves. -/
theorem Serves.step (action : Action) (served : Served action)
    (taken : system.step (timerPool pShm) action = some next) : Serves pShm system next :=
  ⟨[action], fun _ member => List.mem_singleton.mp member ▸ served,
    (exec_singleton system action).trans taken⟩

/-- Serving keeps the count. -/
theorem Serves.counting {first last : TimerSystem} (serves : Serves pShm first last)
    (counting : first.Counting pShm pTimer howMany earlier) :
    last.Counting pShm pTimer howMany earlier := by
  obtain ⟨actions, served, executed⟩ := serves
  exact exec_invariant (fun _ _ _ holds left taken => Counting.step holds left taken) counting
    (along_of_forall fun action member _ => (served action member).leaves) executed

/-- At the last value of the clock the timer on top fires. -/
theorem PlainClients.firesTop (plainClients : system.PlainClients pShm)
    (positive : 0 < system.minHeap.numberOfTimersBeingManaged) :
    ∃ top next, system.minHeap.heap 0 = some top ∧
      system.step (timerPool pShm) (.timerTask latest) = some next ∧ next.PlainClients pShm ∧
      next.minHeap.numberOfTimersBeingManaged + 1 = system.minHeap.numberOfTimersBeingManaged ∧
      next.InQueue top ∧
      (next.ledger top).timesTriggered = (system.ledger top).timesTriggered := by
  have plain : system.PlainStep (timerPool pShm) (.timerTask latest) := le_latest _
  obtain ⟨next, taken⟩ := plainClients.taken plain
  have transition := step_transition plainClients.wellFormed taken
  have kept := plainClients.transition transition plain
  obtain ⟨top, holds⟩ :=
    Option.isSome_iff_exists.mp (plainClients.wellFormed.managed.filled 0 positive)
  have onTop : system.DueOnTop top latest := ⟨positive, holds, le_latest _⟩
  have active := ((plainClients.situations top).waiting_of_occurrences onTop.occurrences_pos).2.1
  refine ⟨top, next, holds, taken, kept, ?_⟩
  cases transition with
  | rested _ idle => exact TimerState.noConfusion ((idle top onTop).symm.trans active)
  | revived _ other heap otherOnTop idle =>
      cases holds.symm.trans otherOnTop.holds
      exact TimerState.noConfusion (idle.symm.trans active)
  | fired _ other heap otherOnTop _ count =>
      cases holds.symm.trans otherOnTop.holds
      refine ⟨count, ((kept.situations top).fired_of_inFlight ?_).2, ?_⟩
      · rw [send_inFlight, if_pos rfl]
        exact Nat.succ_pos _
      · simp only [send_ledger, setTimer_ledger, Function.update_self]

/-- The timer task empties the heap, so that the timer fires, whatever else is in there
and in whatever order. -/
theorem PlainClients.fires (plainClients : system.PlainClients pShm)
    (inHeap : system.InHeap pTimer) :
    ∃ last, Serves pShm system last ∧ last.PlainClients pShm ∧ last.InQueue pTimer ∧
      (last.ledger pTimer).timesTriggered = (system.ledger pTimer).timesTriggered := by
  generalize managed : system.minHeap.numberOfTimersBeingManaged = managing
  induction managing generalizing system with
  | zero =>
      have absent := inHeap.2.1
      rw [occurrences, contents_eq_zero managed, Multiset.count_zero] at absent
      exact absurd absent Nat.zero_ne_one
  | succ managing ih =>
      obtain ⟨top, next, holds, taken, kept, count, queued, triggered⟩ :=
        plainClients.firesTop (managed ▸ Nat.succ_pos managing)
      have served : Serves pShm system next := Serves.step (.timerTask latest) rfl taken
      by_cases same : pTimer = top
      · subst same
        exact ⟨next, served, kept, queued, triggered⟩
      · have transition := step_transition plainClients.wellFormed taken
        have foreign : ¬ system.Touches pTimer (.timerTask latest) := fun touches =>
          same (Option.some.inj (touches.holds.symm.trans holds))
        have frame := transition.untouched foreign
        have waits : next.InHeap pTimer := by
          refine ⟨frame.timer ▸ inHeap.1, ?_, frame.inFlight.trans inHeap.2.2⟩
          rw [transition.occurrences_kept foreign fun other searches => by cases searches]
          exact inHeap.2.1
        obtain ⟨last, serves, settled, sent, unchanged⟩ :=
          ih kept waits (Nat.succ.inj (count.trans managed))
        refine ⟨last, served.trans serves, settled, sent, unchanged.trans ?_⟩
        rw [frame.ledger]

/-- A queued message is delivered, and triggers the callback. -/
theorem PlainClients.delivers (plainClients : system.PlainClients pShm)
    (inQueue : system.InQueue pTimer) :
    ∃ last, Serves pShm system last ∧ last.PlainClients pShm ∧
      (last.ledger pTimer).timesTriggered = (system.ledger pTimer).timesTriggered + 1 := by
  have present : 0 < system.inFlight pTimer := inQueue.2.2 ▸ Nat.one_pos
  have held := ((plainClients.situations pTimer).fired_of_inFlight present).1
  obtain ⟨envelope, member, named⟩ := inFlight_pos_iff.mp present
  obtain ⟨position, bound, holds⟩ := List.getElem_of_mem member
  have taken_from : system.messages[position]? = some envelope :=
    List.getElem?_eq_some_iff.mpr ⟨bound, holds⟩
  have plain : system.PlainStep (timerPool pShm) (.deliver position latest) :=
    ⟨bound, le_latest _⟩
  obtain ⟨next, taken⟩ := plainClients.taken plain
  have transition := step_transition plainClients.wellFormed taken
  refine ⟨next, Serves.step (.deliver position latest) rfl taken,
    plainClients.transition transition plain, ?_⟩
  subst named
  cases transition with
  | ignored _ _ other queued stays remains =>
      cases taken_from.symm.trans queued
      rcases Timer.rearms_or_retires held.callback held.typed with rearms | retires
      · exact absurd rearms stays
      · exact absurd retires remains
  | rearmed _ _ other heap queued =>
      cases taken_from.symm.trans queued
      simp only [setTimer_ledger, setLedger_ledger, Function.update_self, Ledger.triggered]
  | retired _ _ other heap queued =>
      cases taken_from.symm.trans queued
      simp only [deleted_ledger_self, setLedger_ledger, Function.update_self, Ledger.triggered]

/-- A scheduled timer is triggered once more. -/
theorem PlainClients.triggersOnce (plainClients : system.PlainClients pShm)
    (live : pTimer ∈ system.pool.outstanding)
    (scheduled : (system.ledger pTimer).scheduled = true) :
    ∃ last, Serves pShm system last ∧ last.PlainClients pShm ∧
      (last.ledger pTimer).timesTriggered = (system.ledger pTimer).timesTriggered + 1 := by
  rcases ((plainClients.situations pTimer).of_scheduled live scheduled).2 with inHeap | inQueue
  · obtain ⟨fired, serves, kept, inQueue, unchanged⟩ := plainClients.fires inHeap
    obtain ⟨last, delivers, settled, once⟩ := kept.delivers inQueue
    exact ⟨last, serves.trans delivers, settled, once.trans (congrArg Nat.succ unchanged)⟩
  · exact plainClients.delivers inQueue

/-- A repeating timer is triggered any number of times up to the requested one. -/
theorem PlainClients.triggers (plainClients : system.PlainClients pShm)
    (counting : system.Counting pShm pTimer howMany (system.ledger pTimer).timesTriggered)
    {times : Nat} (within : times ≤ howMany.toNat) :
    ∃ last, Serves pShm system last ∧ last.PlainClients pShm ∧
      (last.ledger pTimer).timesTriggered = (system.ledger pTimer).timesTriggered + times := by
  induction times with
  | zero => exact ⟨system, Serves.refl pShm system, plainClients, rfl⟩
  | succ times ih =>
      obtain ⟨middle, serves, kept, triggered⟩ := ih (Nat.le_of_succ_le within)
      have repeating := (serves.counting counting).repeating (by omega)
      obtain ⟨last, again, settled, once⟩ := kept.triggersOnce repeating.live repeating.scheduled
      exact ⟨last, serves.trans again, settled, once.trans (congrArg Nat.succ triggered)⟩

end Served

/-- However often a periodic timer is to fire, no run triggers it exactly that often and
deletes it: while it was triggered no more often it stays allocated. And among plain
clients, whatever the heap holds, the timer does get that far. -/
theorem periodic_neverFiredExactly {scheduled : TimerSystem} {request : ScheduleRequest}
    {current rand : UInt64} (reached : Reached pShm system) (repeats : request.Repeats howMany)
    (ran : system.step (timerPool pShm) (.schedule pTimer request current rand) =
      some scheduled) :
    (∀ actions final,
      Along (TimerSystem.step (timerPool pShm)) (LeavesPeriodic (timerPool pShm) pTimer)
        scheduled actions →
      exec (TimerSystem.step (timerPool pShm)) scheduled actions = some final →
      ¬ FiredExactly pTimer howMany.toNat scheduled final) ∧
    ∀ before,
      Along (TimerSystem.step (timerPool pShm)) (PlainStep (timerPool pShm))
        (initial (timerPool pShm)) (before ++ [.schedule pTimer request current rand]) →
      exec (TimerSystem.step (timerPool pShm)) (initial (timerPool pShm)) before = some system →
      ∃ actions final,
        Along (TimerSystem.step (timerPool pShm)) (LeavesPeriodic (timerPool pShm) pTimer)
          scheduled actions ∧
        exec (TimerSystem.step (timerPool pShm)) scheduled actions = some final ∧
        (final.ledger pTimer).timesTriggered =
          (scheduled.ledger pTimer).timesTriggered + howMany.toNat ∧
        pTimer ∈ final.pool.outstanding := by
  have transition := step_transition reached.wellFormed ran
  have counting : scheduled.Counting pShm pTimer howMany
      (scheduled.ledger pTimer).timesTriggered :=
    ⟨transition.wellFormed reached.wellFormed, Or.inl (transition.repeating repeats)⟩
  constructor
  · rintro actions final leaves executed ⟨exactly, dead⟩
    have counted := exec_invariant (fun _ _ _ holds left taken => Counting.step holds left taken)
      counting leaves executed
    exact dead (counted.repeating exactly.le).live
  · intro before plain toSystem
    have executed : exec (TimerSystem.step (timerPool pShm)) (initial (timerPool pShm))
        (before ++ [.schedule pTimer request current rand]) = some scheduled :=
      exec_append_eq_some.mpr ⟨system, toSystem, (exec_singleton _ _).trans ran⟩
    have plainClients : scheduled.PlainClients pShm :=
      exec_invariant (fun _ _ _ holds admitted taken =>
        PlainClients.transition holds (step_transition holds.wellFormed taken) admitted)
        (initial_plainClients pShm) plain executed
    obtain ⟨final, serves, _, triggered⟩ := plainClients.triggers counting le_rfl
    have repeating := (serves.counting counting).repeating triggered.le
    obtain ⟨actions, served, ends⟩ := serves
    exact ⟨actions, final, along_of_forall fun action member _ => (served action member).leaves,
      ends, triggered, repeating.live⟩

/-- A timer that is to fire twice, beside a one-shot that is due first. -/
theorem periodic_neverFiredExactly_twice : ∃ system scheduled,
    Reached 0 system ∧
      system.step (timerPool 0)
        (.schedule (timerAt 1) (.schedulePeriodicAtTimeout (some 1) 5 2) 0 0) = some scheduled ∧
      (∀ actions final,
        Along (TimerSystem.step (timerPool 0)) (LeavesPeriodic (timerPool 0) (timerAt 1))
          scheduled actions →
        exec (TimerSystem.step (timerPool 0)) scheduled actions = some final →
        ¬ FiredExactly (timerAt 1) 2 scheduled final) ∧
      ∃ actions final,
        Along (TimerSystem.step (timerPool 0)) (LeavesPeriodic (timerPool 0) (timerAt 1))
          scheduled actions ∧
        exec (TimerSystem.step (timerPool 0)) scheduled actions = some final ∧
        (final.ledger (timerAt 1)).timesTriggered =
          (scheduled.ledger (timerAt 1)).timesTriggered + 2 ∧
        timerAt 1 ∈ final.pool.outstanding := by
  let before : List Action :=
    [.new none, .new none, .schedule (timerAt 0) (.scheduleOneShotAtTimeout (some 0) 3 0) 0 0]
  let request : ScheduleRequest := .schedulePeriodicAtTimeout (some 1) 5 2
  have runs : (exec (TimerSystem.step (timerPool 0)) (initial (timerPool 0))
      (before ++ [.schedule (timerAt 1) request 0 0])).isSome := by
    decide +kernel
  have plain : Along (TimerSystem.step (timerPool 0)) (PlainStep (timerPool 0))
      (initial (timerPool 0)) (before ++ [.schedule (timerAt 1) request 0 0]) := by
    decide +kernel
  obtain ⟨scheduled, executed⟩ := Option.isSome_iff_exists.mp runs
  obtain ⟨system, toSystem, ran⟩ := exec_append_eq_some.mp executed
  rw [exec_singleton] at ran
  have reached : Reached 0 system := ⟨before, toSystem⟩
  have repeats : request.Repeats 2 := rfl
  obtain ⟨never, among⟩ := periodic_neverFiredExactly reached repeats ran
  exact ⟨system, scheduled, reached, ran, never, among before plain toSystem⟩

/-- A timer that is to fire once is allocated after its first delivery; it fires again,
and only its second delivery deletes it. -/
theorem periodic_timer_triggeredTwice : ∃ scheduled once twice,
    exec (TimerSystem.step (timerPool 0)) (initial (timerPool 0))
      [.new none, .schedule (timerAt 0) (.schedulePeriodicAtTimeout (some 0) 5 1) 0 0] =
        some scheduled ∧
    exec (TimerSystem.step (timerPool 0)) scheduled [.timerTask 5, .deliver 0 6] = some once ∧
    exec (TimerSystem.step (timerPool 0)) once [.timerTask 11, .deliver 0 12] = some twice ∧
    (scheduled.ledger (timerAt 0)).timesTriggered = 0 ∧
    (once.ledger (timerAt 0)).timesTriggered = 1 ∧ timerAt 0 ∈ once.pool.outstanding ∧
    (twice.ledger (timerAt 0)).timesTriggered = 2 ∧ timerAt 0 ∉ twice.pool.outstanding ∧
    ¬ FiredExactly (timerAt 0) 1 scheduled once ∧
    ¬ FiredExactly (timerAt 0) 1 scheduled twice := by
  let front : List Action :=
    [.new none, .schedule (timerAt 0) (.schedulePeriodicAtTimeout (some 0) 5 1) 0 0]
  have untriggered : (exec (TimerSystem.step (timerPool 0)) (initial (timerPool 0)) front).map
      (fun state => (state.ledger (timerAt 0)).timesTriggered) = some 0 := by
    decide +kernel
  have kept : (exec (TimerSystem.step (timerPool 0)) (initial (timerPool 0))
      (front ++ [.timerTask 5, .deliver 0 6])).map (fun state =>
        ((state.ledger (timerAt 0)).timesTriggered,
          decide (timerAt 0 ∈ state.pool.outstanding))) = some (1, true) := by
    decide +kernel
  have deleted : (exec (TimerSystem.step (timerPool 0)) (initial (timerPool 0))
      (front ++ [.timerTask 5, .deliver 0 6] ++ [.timerTask 11, .deliver 0 12])).map (fun state =>
        ((state.ledger (timerAt 0)).timesTriggered,
          decide (timerAt 0 ∈ state.pool.outstanding))) = some (2, false) := by
    decide +kernel
  obtain ⟨twice, executed, evaluated⟩ := Option.map_eq_some_iff.mp deleted
  obtain ⟨once, toOnce, ranTwice⟩ := exec_append_eq_some.mp executed
  obtain ⟨scheduled, toScheduled, ranOnce⟩ := exec_append_eq_some.mp toOnce
  rw [toOnce, Option.map_some, Option.some.injEq] at kept
  rw [toScheduled, Option.map_some, Option.some.injEq] at untriggered
  rw [Prod.mk.injEq, decide_eq_true_eq] at kept
  rw [Prod.mk.injEq, decide_eq_false_iff_not] at evaluated
  refine ⟨scheduled, once, twice, toScheduled, ranOnce, ranTwice, untriggered, kept.1, kept.2,
    evaluated.1, evaluated.2, fun exactly => exactly.2 kept.2, fun exactly => ?_⟩
  have triggered := exactly.1
  rw [evaluated.1, untriggered] at triggered
  cases triggered

end TimerSystem

end TimerAndCallback
