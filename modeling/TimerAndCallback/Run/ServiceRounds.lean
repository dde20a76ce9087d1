import TimerAndCallback.Run.DueTimers

/-! # Rounds of turns and deliveries

In a round the timer task takes as many turns as there are timers in the heap, and then
every message is delivered, in some order, all at one time. When the rounds come late
enough for all timers to be due, each of them triggers every scheduled timer once, until
the timer was triggered as often as its arguments allow.
-/

namespace TimerAndCallback

namespace Timer

/-- How often a timer is triggered in all, if that is limited. -/
def quota (timer : Timer) : Option Nat :=
  if timer.type ≠ .Periodic then some 1
  else if timer.howManyTimesToFire = 0 ∨ timer.howManyTimesToFire.toNat + 1 = 2 ^ 32 then none
  else some (timer.howManyTimesToFire.toNat + 1)

/-- As many triggers as these, but no more than the timer has. -/
def upToQuota (timer : Timer) (count : Nat) : Nat := timer.quota.elim count (min count)

/-- Two timers agree on how often and how fast they fire. -/
structure SameTerms (timer other : Timer) : Prop where
  type : other.type = timer.type
  howManyTimesToFire : other.howManyTimesToFire = timer.howManyTimesToFire
  timeout : other.timeout = timer.timeout

variable {timer other : Timer} {triggered : Nat}

/-- Same terms as a timer of the same terms. -/
theorem SameTerms.trans {third : Timer} (first : timer.SameTerms other)
    (second : other.SameTerms third) : timer.SameTerms third :=
  ⟨second.type.trans first.type, second.howManyTimesToFire.trans first.howManyTimesToFire,
    second.timeout.trans first.timeout⟩

private theorem sameTerms_expired (timer : Timer) : timer.SameTerms timer.expired := ⟨rfl, rfl, rfl⟩

private theorem sameTerms_requeued (timer : Timer) (current : UInt64) :
    timer.SameTerms (timer.requeued timer.timeout current) := ⟨rfl, rfl, rfl⟩

private theorem SameTerms.quota (same : timer.SameTerms other) : other.quota = timer.quota := by
  unfold Timer.quota
  rw [same.type, same.howManyTimesToFire]

private theorem quota_pos {quota : Nat} (limited : timer.quota = some quota) : 0 < quota := by
  unfold Timer.quota at limited
  split_ifs at limited
  · cases limited
    exact Nat.one_pos
  · cases limited
    exact Nat.succ_pos _

private theorem upToQuota_of_lt {count : Nat} (below : ∀ quota ∈ timer.quota, count < quota) :
    timer.upToQuota count = count := by
  unfold upToQuota
  cases limited : timer.quota with
  | none => rfl
  | some quota => exact Nat.min_eq_left (below quota limited).le

private theorem upToQuota_of_le {count quota : Nat} (limited : timer.quota = some quota)
    (spent : quota ≤ count) : timer.upToQuota count = quota := by
  unfold upToQuota
  rw [limited]
  exact Nat.min_eq_right spent

/-- A timer that is armed again is not at its last trigger. -/
theorem Rearms.quota (rearms : timer.Rearms)
    (counted : (triggered + 1) % 2 ^ 32 = timer.numberOfTimesFired.toNat)
    (below : ∀ quota ∈ timer.quota, triggered < quota) :
    ∀ quota ∈ timer.quota, triggered + 1 < quota := by
  obtain ⟨_, periodic, again⟩ := rearms
  intro quota limited
  have before := below quota limited
  rw [Option.mem_def, Timer.quota, if_neg (not_not.mpr periodic)] at limited
  split_ifs at limited with endless
  cases limited
  obtain ⟨limit, top⟩ := not_or.mp endless
  have spent : timer.numberOfTimesFired.toNat ≤ timer.howManyTimesToFire.toNat :=
    again.resolve_right limit
  have bounded := timer.howManyTimesToFire.toNat_lt
  omega

/-- A timer is deleted at its last trigger. -/
theorem Retires.quota (retires : timer.Retires)
    (counted : (triggered + 1) % 2 ^ 32 = timer.numberOfTimesFired.toNat)
    (below : ∀ quota ∈ timer.quota, triggered < quota) :
    timer.quota = some (triggered + 1) := by
  have limited : ∃ quota, timer.quota = some quota ∧ quota ≤ triggered + 1 := by
    unfold Timer.quota
    rcases retires.2 with oneShot | ⟨periodic, exhausted⟩
    · rw [if_pos (oneShot ▸ TimerType.noConfusion)]
      exact ⟨1, rfl, Nat.le_add_left _ _⟩
    · obtain ⟨spent, limit⟩ := not_or.mp exhausted
      have more : ¬ timer.numberOfTimesFired.toNat ≤ timer.howManyTimesToFire.toNat := spent
      have bounded := timer.numberOfTimesFired.toNat_lt
      rw [if_neg (not_not.mpr periodic), if_neg (not_or.mpr ⟨limit, by omega⟩)]
      exact ⟨_, rfl, by omega⟩
  obtain ⟨quota, same, spent⟩ := limited
  have before := below quota same
  rw [same, Nat.le_antisymm spent before]

end Timer

namespace TimerSystem

open TimerMinHeap Execution

/-- As many deliveries at one time, in an order that says which message to take when this
many more wait. -/
def deliveries (order : Nat → Nat) (current : UInt64) : Nat → List Action
  | 0 => []
  | count + 1 => .deliver (order count) current :: deliveries order current count

/-- A turn for each timer in the heap and then the delivery of every message. -/
def roundActions (order : Nat → Nat) (system : TimerSystem) (current : UInt64) : List Action :=
  List.replicate system.minHeap.numberOfTimersBeingManaged (.timerTask current) ++
    deliveries order current
      (system.messages.length + system.minHeap.numberOfTimersBeingManaged)

/-- A round as one step. -/
def round (pTimerPool : MemoryPool) (order : UInt64 → Nat → Nat) (system : TimerSystem)
    (current : UInt64) : Option TimerSystem :=
  exec (step pTimerPool) system (system.roundActions (order current) current)

/-- All timers in the heap are due. -/
def AllDue (system : TimerSystem) (current : UInt64) : Prop :=
  ∀ entry ∈ system.minHeap.contents, ∀ pTimer ∈ entry,
    (system.whenToFire pTimer).toNat ≤ current.toNat

instance (system : TimerSystem) (current : UInt64) : Decidable (system.AllDue current) :=
  have (entry : Option UInt64) :
      Decidable (∀ pTimer ∈ entry, (system.whenToFire pTimer).toNat ≤ current.toNat) :=
    Option.decidableForallMem entry
  Multiset.decidableForallMultiset

/-- The timer is allocated and was scheduled. -/
def Scheduled (system : TimerSystem) (pTimer : UInt64) : Prop :=
  pTimer ∈ system.pool.outstanding ∧ (system.ledger pTimer).scheduled = true

instance (system : TimerSystem) (pTimer : UInt64) : Decidable (system.Scheduled pTimer) := by
  unfold Scheduled
  infer_instance

/-- The periodic timers fire again within this time. -/
def RepeatsWithin (system : TimerSystem) (period : Nat) : Prop :=
  ∀ pTimer ∈ system.pool.outstanding, system.Scheduled pTimer →
    (system.timers pTimer).type = .Periodic → (system.timers pTimer).timeout.toNat ≤ period

instance (system : TimerSystem) (period : Nat) : Decidable (system.RepeatsWithin period) :=
  Finset.decidableDforallFinset

/-- Plain clients whose scheduled timers have triggers left. -/
structure Owing (pShm : UInt64) (system : TimerSystem) : Prop where
  clients : system.PlainClients pShm
  below : ∀ pTimer, system.Scheduled pTimer → ∀ quota ∈ (system.timers pTimer).quota,
    (system.ledger pTimer).timesTriggered < quota

variable {pShm pTimer current : UInt64} {system middle next final : TimerSystem} {action : Action}

/-- Untouched by two steps in turn. -/
theorem Untouched.trans (first : Untouched pTimer system middle)
    (second : Untouched pTimer middle next) : Untouched pTimer system next :=
  ⟨second.timer.trans first.timer, second.ledger.trans first.ledger,
    second.live.trans first.live, second.inFlight.trans first.inFlight,
    second.occurrences.trans first.occurrences⟩

/-- A timer that is untouched is scheduled as before. -/
theorem Untouched.scheduled (frame : Untouched pTimer system next) :
    next.Scheduled pTimer ↔ system.Scheduled pTimer := by
  unfold Scheduled
  rw [frame.live, frame.ledger]

/-- What a delivery finds: a timer that has fired and not been triggered since. -/
structure Fired (system : TimerSystem) (pTimer : UInt64) : Prop where
  scheduled : system.Scheduled pTimer
  queued : system.inFlight pTimer = 1
  counted : ((system.ledger pTimer).timesTriggered + 1) % 2 ^ 32 =
    (system.timers pTimer).numberOfTimesFired.toNat

/-- A held timer with a message in flight has fired. -/
theorem Held.fired (held : system.Held pTimer) (queued : system.inFlight pTimer = 1) :
    system.Fired pTimer :=
  ⟨⟨held.live, held.scheduled⟩, queued, queued ▸ held.counted⟩

/-- A timer that is untouched had fired if it has. -/
theorem Untouched.fired (frame : Untouched pTimer system next) (fired : next.Fired pTimer) :
    system.Fired pTimer where
  scheduled := frame.scheduled.mp fired.scheduled
  queued := frame.inFlight.symm.trans fired.queued
  counted := by
    rw [← frame.ledger, ← frame.timer]
    exact fired.counted

/-- What deliveries at one time leave of a timer. -/
inductive Answered (current : UInt64) (pTimer : UInt64) (before after : TimerSystem) : Prop
  | idle (unqueued : before.inFlight pTimer = 0) (frame : Untouched pTimer before after)
  | rearmed (fired : before.Fired pTimer) (rearms : (before.timers pTimer).Rearms)
      (live : pTimer ∈ after.pool.outstanding)
      (timer : after.timers pTimer =
        (before.timers pTimer).requeued (before.timers pTimer).timeout current)
      (ledger : after.ledger pTimer = (before.ledger pTimer).triggered)
  | retired (fired : before.Fired pTimer) (retires : (before.timers pTimer).Retires)
      (dead : pTimer ∉ after.pool.outstanding)
      (triggered : (after.ledger pTimer).timesTriggered =
        (before.ledger pTimer).timesTriggered + 1)

/-- A delivery answers the timer its message leads to. -/
theorem PlainClients.answered (clients : system.PlainClients pShm) {position : Nat}
    (transition : Transition (timerPool pShm) system (.deliver position current) next)
    (leads : system.LeadsTo position pTimer) :
    next.inFlight pTimer = 0 ∧ Answered current pTimer system next := by
  obtain ⟨held, inQueue⟩ := (clients.situations pTimer).fired_of_inFlight leads.inFlight_pos
  cases transition with
  | ignored position current envelope queued stays remains =>
      obtain rfl := leads.named queued
      rcases Timer.rearms_or_retires held.callback held.typed with rearms | retires
      · exact absurd rearms stays
      · exact absurd retires remains
  | rearmed position current envelope heap queued live rearms room inserted =>
      obtain rfl := leads.named queued
      have left := receive_inFlight_self queued current
      rw [inQueue.2.2] at left
      refine ⟨Nat.succ.inj left, .rearmed (held.fired inQueue.2.2) rearms live ?_ ?_⟩
      · simp only [setTimer_timers, Function.update_self]
      · simp only [setTimer_ledger, setLedger_ledger, Function.update_self]
  | retired position current envelope heap queued live retires vacated =>
      obtain rfl := leads.named queued
      have left := receive_inFlight_self queued current
      rw [inQueue.2.2] at left
      refine ⟨Nat.succ.inj left,
        .retired (held.fired inQueue.2.2) retires (Finset.notMem_erase _ _) ?_⟩
      simp only [deleted_ledger_self, setLedger_ledger, Function.update_self, Ledger.triggered]

/-- A timer that was answered is left alone. -/
theorem Answered.then_idle (answered : Answered current pTimer system middle)
    (frame : Untouched pTimer middle next) : Answered current pTimer system next := by
  cases answered with
  | idle unqueued earlier => exact .idle unqueued (earlier.trans frame)
  | rearmed fired rearms live timer ledger =>
      exact .rearmed fired rearms (frame.live.mpr live) (frame.timer.trans timer)
        (frame.ledger.trans ledger)
  | retired fired retires dead triggered =>
      exact .retired fired retires (fun live => dead (frame.live.mp live))
        ((congrArg Ledger.timesTriggered frame.ledger).trans triggered)

/-- What deliveries leave of a timer that was left alone before. -/
theorem Answered.after (answered : Answered current pTimer middle next)
    (frame : Untouched pTimer system middle) : Answered current pTimer system next := by
  cases answered with
  | idle unqueued later => exact .idle (frame.inFlight.symm.trans unqueued) (frame.trans later)
  | rearmed fired rearms live timer ledger =>
      rw [frame.timer] at rearms timer
      rw [frame.ledger] at ledger
      exact .rearmed (frame.fired fired) rearms live timer ledger
  | retired fired retires dead triggered =>
      rw [frame.timer] at retires
      rw [frame.ledger] at triggered
      exact .retired (frame.fired fired) retires dead triggered

/-- A timer that was answered and is not deleted has triggers left. -/
theorem Answered.below (answered : Answered current pTimer system next)
    (below : system.Scheduled pTimer → ∀ quota ∈ (system.timers pTimer).quota,
      (system.ledger pTimer).timesTriggered < quota)
    (scheduled : next.Scheduled pTimer) :
    ∀ quota ∈ (next.timers pTimer).quota, (next.ledger pTimer).timesTriggered < quota := by
  cases answered with
  | idle unqueued frame =>
      rw [frame.timer, frame.ledger]
      exact below (frame.scheduled.mp scheduled)
  | rearmed fired rearms live timer ledger =>
      rw [timer, ledger]
      exact rearms.quota fired.counted (below fired.scheduled)
  | retired _ _ dead => exact absurd scheduled.1 dead

/-- Every plain step leaves the scheduled timers triggers. -/
theorem Owing.transition (owing : system.Owing pShm)
    (transition : Transition (timerPool pShm) system action next)
    (plain : system.PlainStep (timerPool pShm) action) : next.Owing pShm where
  clients := owing.clients.transition transition plain
  below pTimer scheduled := by
    by_cases touches : system.Touches pTimer action
    · have situation := owing.clients.situations pTimer
      have delivered : ∀ position current, action = .deliver position current →
          ∀ quota ∈ (next.timers pTimer).quota,
            (next.ledger pTimer).timesTriggered < quota := by
        rintro position current rfl
        exact (owing.clients.answered transition touches).2.below (owing.below pTimer) scheduled
      cases transition with
      | created tasks fresh pool handed free sound outstanding =>
          obtain ⟨live, asked⟩ := scheduled
          by_cases same : pTimer = fresh
          · subst same
            simp only [setLedger_ledger, Function.update_self, Bool.false_eq_true] at asked
          · dsimp only at live
            rw [outstanding, Finset.mem_insert] at live
            exact absurd (live.resolve_left same) touches
      | scheduled other request current rand timer heap live armed room inserted =>
          obtain rfl : other = pTimer := touches
          cases situation with
          | unscheduled unscheduled =>
              intro quota limited
              simp only [setLedger_ledger, Function.update_self]
              rw [(unscheduled live).2]
              exact Timer.quota_pos limited
          | waiting held => exact absurd (plain.2.1.symm.trans held.scheduled) Bool.false_ne_true
          | fired held => exact absurd (plain.2.1.symm.trans held.scheduled) Bool.false_ne_true
      | rested => exact owing.below pTimer scheduled
      | fired current top heap onTop =>
          obtain rfl := touches.unique onTop
          have held := (situation.waiting_of_occurrences onTop.occurrences_pos).1
          have below := owing.below pTimer ⟨held.live, held.scheduled⟩
          simp only [send_timers, setTimer_timers, send_ledger, setTimer_ledger,
            Function.update_self]
          exact below
      | revived current top heap onTop idle =>
          obtain rfl := touches.unique onTop
          have inHeap := (situation.waiting_of_occurrences onTop.occurrences_pos).2
          exact TimerState.noConfusion (idle.symm.trans inHeap.1)
      | ignored | rearmed | retired => exact delivered _ _ rfl
      | cancelled | restarted | stopped | deleted => exact plain.elim
    · have frame := transition.untouched touches
      rw [frame.timer, frame.ledger]
      exact owing.below pTimer (frame.scheduled.mp scheduled)

/-- A plain step of clients whose timers have triggers left. -/
theorem Owing.taken (owing : system.Owing pShm) (plain : system.PlainStep (timerPool pShm) action) :
    ∃ next, system.step (timerPool pShm) action = some next ∧
      Transition (timerPool pShm) system action next ∧ next.Owing pShm := by
  obtain ⟨next, taken⟩ := owing.clients.taken plain
  have transition := step_transition owing.clients.wellFormed taken
  exact ⟨next, taken, transition, owing.transition transition plain⟩

/-- The deliveries of all messages, in any order, answer every timer that has fired. -/
theorem Owing.deliveries_taken {order : Nat → Nat} {count : Nat} (owing : system.Owing pShm)
    (inside : ∀ count, order count ≤ count) (later : system.clock.toNat ≤ current.toNat)
    (counted : system.messages.length = count) :
    ∃ final, exec (step (timerPool pShm)) system (deliveries order current count) = some final ∧
      final.Owing pShm ∧ final.messages = [] ∧ final.clock.toNat ≤ current.toNat ∧
      ∀ pTimer, Answered current pTimer system final := by
  induction count generalizing system with
  | zero =>
      have empty := List.length_eq_zero_iff.mp counted
      refine ⟨system, rfl, owing, empty, later, fun pTimer => .idle ?_ ⟨rfl, rfl, Iff.rfl, rfl,
        le_rfl⟩⟩
      rw [inFlight, empty]
      rfl
  | succ count ih =>
      have bound : order count < system.messages.length := by
        have front := inside count
        omega
      have plain : system.PlainStep (timerPool pShm) (.deliver (order count) current) :=
        ⟨bound, later⟩
      obtain ⟨next, taken, transition, owed⟩ := owing.taken plain
      have remaining : next.messages.length = count := by
        rw [transition.messages_deliver, List.length_eraseIdx_of_lt bound]
        omega
      obtain ⟨final, ran, settled, empty, clock, answers⟩ :=
        ih owed (congrArg UInt64.toNat transition.clock_deliver).le remaining
      refine ⟨final, exec_cons_eq_some.mpr ⟨next, taken, ran⟩, settled, empty, clock,
        fun pTimer => ?_⟩
      by_cases leads : system.LeadsTo (order count) pTimer
      · obtain ⟨unqueued, answered⟩ := owing.clients.answered transition leads
        cases answers pTimer with
        | idle _ frame => exact answered.then_idle frame
        | rearmed fired => exact absurd (unqueued.symm.trans fired.queued) Nat.zero_ne_one
        | retired fired => exact absurd (unqueued.symm.trans fired.queued) Nat.zero_ne_one
      · exact (answers pTimer).after (transition.untouched leads)

/-- What turns of the timer task keep. -/
structure Turned (system next : TimerSystem) : Prop where
  pool : next.pool = system.pool
  ledger : ∀ pTimer, (next.ledger pTimer).scheduled = (system.ledger pTimer).scheduled ∧
    (next.ledger pTimer).timesTriggered = (system.ledger pTimer).timesTriggered
  terms : ∀ pTimer, (system.timers pTimer).SameTerms (next.timers pTimer)

/-- Nothing turned. -/
theorem Turned.refl (system : TimerSystem) : Turned system system :=
  ⟨rfl, fun _ => ⟨rfl, rfl⟩, fun _ => ⟨rfl, rfl, rfl⟩⟩

/-- Two turns of the timer task in a row. -/
theorem Turned.trans (first : Turned system middle) (second : Turned middle next) :
    Turned system next where
  pool := second.pool.trans first.pool
  ledger pTimer :=
    ⟨(second.ledger pTimer).1.trans (first.ledger pTimer).1,
      (second.ledger pTimer).2.trans (first.ledger pTimer).2⟩
  terms pTimer := (first.terms pTimer).trans (second.terms pTimer)

/-- A turn of the timer task schedules nothing. -/
theorem Turned.scheduled (turned : Turned system next) :
    next.Scheduled pTimer ↔ system.Scheduled pTimer := by
  unfold Scheduled
  rw [turned.pool, (turned.ledger pTimer).1]

private theorem sameTerms_update (timers : UInt64 → Timer) {top : UInt64} {timer : Timer}
    (same : (timers top).SameTerms timer) (pTimer : UInt64) :
    (timers pTimer).SameTerms (Function.update timers top timer pTimer) := by
  rcases eq_or_ne pTimer top with rfl | apart
  · rw [Function.update_self]
    exact same
  · rw [Function.update_of_ne apart]
    exact ⟨rfl, rfl, rfl⟩

/-- A step of the timer task is a turn. -/
theorem Transition.turned
    (transition : Transition (timerPool pShm) system (.timerTask current) next) :
    Turned system next := by
  cases transition with
  | rested => exact ⟨rfl, fun _ => ⟨rfl, rfl⟩, fun _ => ⟨rfl, rfl, rfl⟩⟩
  | fired current top heap =>
      refine ⟨rfl, fun pTimer => ?_, fun pTimer => ?_⟩
      · rw [send_ledger]
        rcases eq_or_ne pTimer top with rfl | apart
        · rw [Function.update_self]
          exact ⟨rfl, rfl⟩
        · rw [Function.update_of_ne apart]
          exact ⟨rfl, rfl⟩
      · exact sameTerms_update system.timers (Timer.sameTerms_expired _) pTimer
  | revived current top heap =>
      refine ⟨rfl, fun _ => ⟨rfl, rfl⟩, fun pTimer => ?_⟩
      exact sameTerms_update system.timers (Timer.sameTerms_requeued _ current) pTimer

/-- The timers in the heap, when all of them are due, all fire. -/
theorem Owing.turns_taken (owing : system.Owing pShm) (due : system.AllDue current)
    (later : system.clock.toNat ≤ current.toNat) :
    ∃ middle, exec (step (timerPool pShm)) system (List.replicate
        system.minHeap.numberOfTimersBeingManaged (.timerTask current)) = some middle ∧
      middle.Owing pShm ∧ middle.clock.toNat ≤ current.toNat ∧ Turned system middle ∧
      middle.minHeap.numberOfTimersBeingManaged = 0 ∧
      middle.messages.length =
        system.messages.length + system.minHeap.numberOfTimersBeingManaged := by
  obtain ⟨fired, middle, ran, expired, settled, _⟩ :=
    owing.clients.allActive.turns owing.clients.wellFormed le_rfl
  have turning : ∀ (state : TimerSystem) (action : Action) (next : TimerSystem),
      (state.Owing pShm ∧ state.clock.toNat ≤ current.toNat ∧ Turned system state) →
      action = .timerTask current → state.step (timerPool pShm) action = some next →
      next.Owing pShm ∧ next.clock.toNat ≤ current.toNat ∧ Turned system next := by
    rintro state action next ⟨owed, early, turned⟩ rfl taken
    have transition := step_transition owed.clients.wellFormed taken
    exact ⟨owed.transition transition early, (congrArg UInt64.toNat transition.clock_timerTask).le,
      turned.trans transition.turned⟩
  obtain ⟨owed, early, turned⟩ := exec_invariant turning ⟨owing, later, .refl system⟩
    (along_of_forall fun _ member _ => List.eq_of_mem_replicate member) ran
  have emptied := expired.all settled owed.clients.wellFormed
    fun pTimer member => due (some pTimer) member pTimer rfl
  have left := congrArg Multiset.card expired.contents
  rw [Multiset.card_add, card_contents, card_contents, emptied, Multiset.coe_card,
    List.length_map] at left
  refine ⟨middle, ran, owed, early, turned, emptied, ?_⟩
  rw [expired.messages, List.length_append, List.length_map, left]
  rfl

/-- What a round leaves of a timer. A scheduled one was triggered, and then armed again or
deleted. -/
inductive Rounded (current : UInt64) (pTimer : UInt64) (before after : TimerSystem) : Prop
  | absent (absent : ¬ before.Scheduled pTimer) (still : ¬ after.Scheduled pTimer)
      (live : pTimer ∈ after.pool.outstanding ↔ pTimer ∈ before.pool.outstanding)
      (triggered : (after.ledger pTimer).timesTriggered = (before.ledger pTimer).timesTriggered)
  | again (scheduled : before.Scheduled pTimer) (still : after.Scheduled pTimer)
      (periodic : (before.timers pTimer).type = .Periodic)
      (terms : (before.timers pTimer).SameTerms (after.timers pTimer))
      (due : after.whenToFire pTimer =
        convertTimerTimeoutToAbsoluteTimeSinceEpoch current (before.timers pTimer).timeout)
      (triggered : (after.ledger pTimer).timesTriggered =
        (before.ledger pTimer).timesTriggered + 1)
  | last (scheduled : before.Scheduled pTimer) (dead : pTimer ∉ after.pool.outstanding)
      (quota : (before.timers pTimer).quota = some ((before.ledger pTimer).timesTriggered + 1))
      (triggered : (after.ledger pTimer).timesTriggered =
        (before.ledger pTimer).timesTriggered + 1)

/-- Turns that empty the heap and the deliveries of all messages make a round. -/
theorem Answered.rounded (answered : Answered current pTimer middle next)
    (turned : Turned system middle) (owing : middle.Owing pShm)
    (emptied : middle.minHeap.numberOfTimersBeingManaged = 0) :
    Rounded current pTimer system next := by
  cases answered with
  | idle unqueued frame =>
      have absent : ¬ middle.Scheduled pTimer := by
        rintro ⟨live, scheduled⟩
        have outside : middle.occurrences pTimer = 0 := by
          rw [← card_contents, Multiset.card_eq_zero] at emptied
          rw [occurrences, emptied, Multiset.count_zero]
        rcases ((owing.clients.situations pTimer).of_scheduled live scheduled).2 with
          inHeap | inQueue
        · exact Nat.zero_ne_one (outside.symm.trans inHeap.2.1)
        · exact Nat.zero_ne_one (unqueued.symm.trans inQueue.2.2)
      refine .absent (mt turned.scheduled.mpr absent) (mt frame.scheduled.mp absent) ?_ ?_
      · rw [frame.live, turned.pool]
      · rw [frame.ledger, (turned.ledger pTimer).2]
  | rearmed fired rearms live timer ledger =>
      have terms := turned.terms pTimer
      refine .again (turned.scheduled.mp fired.scheduled) ⟨live, ?_⟩
        (terms.type.symm.trans rearms.2.1) (terms.trans ?_) ?_ ?_
      · rw [ledger]
        exact fired.scheduled.2
      · rw [timer]
        exact Timer.sameTerms_requeued _ current
      · rw [whenToFire, timer, ← terms.timeout]
        rfl
      · rw [ledger, ← (turned.ledger pTimer).2]
        rfl
  | retired fired retires dead triggered =>
      refine .last (turned.scheduled.mp fired.scheduled) dead ?_ ?_
      · rw [← (turned.terms pTimer).quota, ← (turned.ledger pTimer).2]
        exact retires.quota fired.counted (owing.below pTimer fired.scheduled)
      · rw [triggered, (turned.ledger pTimer).2]

/-- A round in which every timer is due can be taken, and attends to each timer once. -/
theorem Owing.round_taken {order : UInt64 → Nat → Nat} (owing : system.Owing pShm)
    (inside : ∀ current count, order current count ≤ count) (due : system.AllDue current)
    (later : system.clock.toNat ≤ current.toNat) :
    ∃ next, system.round (timerPool pShm) order current = some next ∧
      next.Owing pShm ∧ next.messages = [] ∧ next.clock.toNat ≤ current.toNat ∧
      ∀ pTimer, Rounded current pTimer system next := by
  obtain ⟨middle, turns, owed, early, turned, emptied, counted⟩ := owing.turns_taken due later
  obtain ⟨next, delivered, settled, empty, clock, answers⟩ :=
    owed.deliveries_taken (inside current) early counted
  exact ⟨next, exec_append_eq_some.mpr ⟨middle, turns, delivered⟩, settled, empty, clock,
    fun pTimer => (answers pTimer).rounded turned owed emptied⟩

/-- What this many rounds leave of a timer. -/
structure Attended (count : Nat) (pTimer : UInt64) (before after : TimerSystem) : Prop where
  triggered : before.Scheduled pTimer → (after.ledger pTimer).timesTriggered =
    (before.timers pTimer).upToQuota ((before.ledger pTimer).timesTriggered + count)
  live : before.Scheduled pTimer → (pTimer ∈ after.pool.outstanding ↔
    ∀ quota ∈ (before.timers pTimer).quota, (before.ledger pTimer).timesTriggered + count < quota)
  absent : ¬ before.Scheduled pTimer →
    (after.ledger pTimer).timesTriggered = (before.ledger pTimer).timesTriggered ∧
      (pTimer ∈ after.pool.outstanding ↔ pTimer ∈ before.pool.outstanding)

private theorem Owing.attended (owing : system.Owing pShm) (pTimer : UInt64) :
    Attended 0 pTimer system system where
  triggered scheduled := (Timer.upToQuota_of_lt (owing.below pTimer scheduled)).symm
  live scheduled := iff_of_true scheduled.1 (owing.below pTimer scheduled)
  absent _ := ⟨rfl, Iff.rfl⟩

/-- A round and the rounds after it. -/
theorem Rounded.attended {count : Nat} (rounded : Rounded current pTimer system next)
    (later : Attended count pTimer next final) : Attended (count + 1) pTimer system final := by
  cases rounded with
  | absent absent still live triggered =>
      obtain ⟨kept, stays⟩ := later.absent still
      exact ⟨fun scheduled => absurd scheduled absent, fun scheduled => absurd scheduled absent,
        fun _ => ⟨kept.trans triggered, stays.trans live⟩⟩
  | again scheduled still periodic terms due triggered =>
      have quota := terms.quota
      have shifted : (next.ledger pTimer).timesTriggered + count =
          (system.ledger pTimer).timesTriggered + (count + 1) := by omega
      refine ⟨fun _ => ?_, fun _ => ?_, fun absent => absurd scheduled absent⟩
      · rw [later.triggered still, shifted, Timer.upToQuota, Timer.upToQuota, quota]
      · rw [later.live still, shifted, quota]
  | last scheduled dead quota triggered =>
      obtain ⟨kept, stays⟩ := later.absent fun still => dead still.1
      refine ⟨fun _ => ?_, fun _ => ?_, fun absent => absurd scheduled absent⟩
      · rw [kept, triggered, Timer.upToQuota_of_le quota (by omega)]
      · refine iff_of_false (mt stays.mp dead) fun below => ?_
        have more := below _ quota
        omega

/-- After a round at this time, timers that repeat soon enough are due. -/
theorem rounded_allDue {period : Nat} {later : UInt64} (owing : next.Owing pShm)
    (rounded : ∀ pTimer, Rounded current pTimer system next)
    (repeats : system.RepeatsWithin period)
    (paced : current.toNat + period ≤ later.toNat) : next.AllDue later := by
  rintro _ member pTimer rfl
  have held := ((owing.clients.situations pTimer).waiting_of_occurrences
    (occurrences_pos_iff.mpr member)).1
  cases rounded pTimer with
  | absent _ still => exact absurd ⟨held.live, held.scheduled⟩ still
  | last _ dead => exact absurd held.live dead
  | again scheduled _ periodic _ due =>
      have soon := repeats pTimer scheduled.1 scheduled periodic
      have wraps : (current + (system.timers pTimer).timeout).toNat ≤
          current.toNat + (system.timers pTimer).timeout.toNat :=
        (UInt64.toNat_add _ _).trans_le (Nat.mod_le _ _)
      rw [due, convertTimerTimeoutToAbsoluteTimeSinceEpoch]
      omega

/-- Rounds that are far enough apart can be taken, and attend to each timer once a round. -/
theorem Owing.rounds_taken {order : UInt64 → Nat → Nat} {period : Nat} {times : List UInt64}
    (owing : system.Owing pShm) (inside : ∀ current count, order current count ≤ count)
    (repeats : system.RepeatsWithin period)
    (ready : ∀ first ∈ times.head?, system.clock.toNat ≤ first.toNat ∧ system.AllDue first)
    (paced : times.IsChain fun earlier later => earlier.toNat + period ≤ later.toNat) :
    ∃ final, exec (round (timerPool pShm) order) system times = some final ∧
      (times ≠ [] → final.messages = []) ∧
      ∀ pTimer, Attended times.length pTimer system final := by
  induction times generalizing system with
  | nil => exact ⟨system, rfl, fun some => absurd rfl some, owing.attended⟩
  | cons current times ih =>
      obtain ⟨early, due⟩ := ready current rfl
      obtain ⟨next, taken, owed, empty, clock, rounded⟩ := owing.round_taken inside due early
      obtain ⟨near, rest⟩ := List.isChain_cons.mp paced
      have repeats_next : next.RepeatsWithin period := by
        intro pTimer live scheduled _
        cases rounded pTimer with
        | absent _ still => exact absurd scheduled still
        | last _ dead => exact absurd live dead
        | again before _ periodic terms =>
            rw [terms.timeout]
            exact repeats pTimer before.1 before periodic
      have ready_next : ∀ first ∈ times.head?,
          next.clock.toNat ≤ first.toNat ∧ next.AllDue first := by
        intro first head
        have after := near first head
        exact ⟨by omega, rounded_allDue owed rounded repeats after⟩
      obtain ⟨final, ran, emptied, attended⟩ := ih owed repeats_next ready_next rest
      refine ⟨final, exec_cons_eq_some.mpr ⟨next, taken, ran⟩, fun _ => ?_,
        fun pTimer => (rounded pTimer).attended (attended pTimer)⟩
      cases times with
      | nil =>
          cases ran
          exact empty
      | cons => exact emptied (List.cons_ne_nil _ _)

/-- Every plain run leaves its scheduled timers triggers. -/
theorem exec_owing {actions : List Action}
    (plain : Along (step (timerPool pShm)) (PlainStep (timerPool pShm))
      (initial (timerPool pShm)) actions)
    (reached : exec (step (timerPool pShm)) (initial (timerPool pShm)) actions = some system) :
    system.Owing pShm :=
  exec_invariant (fun _ _ _ owing admitted taken =>
      Owing.transition owing (step_transition owing.clients.wellFormed taken) admitted)
    ⟨initial_plainClients pShm, fun _ scheduled => absurd scheduled.1 (Finset.notMem_empty _)⟩
    plain reached

/-- After any run of plain clients, rounds a period apart, the first of them when all timers
in the heap are due, trigger each scheduled timer once per round until it was triggered as
often as its arguments allow. It is deleted then, and not before. -/
theorem rounds_trigger (pShm : UInt64) (actions : List Action) (system : TimerSystem)
    (order : UInt64 → Nat → Nat) (period : Nat) (times : List UInt64)
    (plain : Along (step (timerPool pShm)) (PlainStep (timerPool pShm))
      (initial (timerPool pShm)) actions)
    (reached : exec (step (timerPool pShm)) (initial (timerPool pShm)) actions = some system)
    (inside : ∀ current count, order current count ≤ count)
    (repeats : system.RepeatsWithin period)
    (ready : ∀ first ∈ times.head?, system.clock.toNat ≤ first.toNat ∧ system.AllDue first)
    (paced : times.IsChain fun earlier later => earlier.toNat + period ≤ later.toNat) :
    ∃ final, exec (round (timerPool pShm) order) system times = some final ∧
      (times ≠ [] → final.messages = []) ∧
      ∀ pTimer, system.Scheduled pTimer →
        (final.ledger pTimer).timesTriggered = (system.timers pTimer).upToQuota
            ((system.ledger pTimer).timesTriggered + times.length) ∧
        (pTimer ∈ final.pool.outstanding ↔ ∀ quota ∈ (system.timers pTimer).quota,
          (system.ledger pTimer).timesTriggered + times.length < quota) := by
  obtain ⟨final, ran, emptied, attended⟩ :=
    (exec_owing plain reached).rounds_taken inside repeats ready paced
  exact ⟨final, ran, emptied, fun pTimer scheduled =>
    ⟨(attended pTimer).triggered scheduled, (attended pTimer).live scheduled⟩⟩

/-- A one-shot timer, a periodic timer asked to fire once and one without end, which has
fired before. -/
theorem rounds_trigger_three : ∃ system,
    exec (step (timerPool 0)) (initial (timerPool 0))
      [.new none, .new none, .new none,
        .schedule (timerAt 0) (.scheduleOneShotAtTimeout (some 0) 5 0) 0 0,
        .schedule (timerAt 1) (.schedulePeriodicAtTimeout (some 1) 4 1) 0 0,
        .schedule (timerAt 2) (.schedulePeriodicAtTimeout (some 2) 3 0) 0 0,
        .timerTask 3] = some system ∧
    ∃ final, exec (round (timerPool 0) fun _ count => count) system [5, 9, 13] = some final ∧
      (([5, 9, 13] : List UInt64) ≠ [] → final.messages = []) ∧
      ∀ pTimer, system.Scheduled pTimer →
        (final.ledger pTimer).timesTriggered =
          (system.timers pTimer).upToQuota ((system.ledger pTimer).timesTriggered + 3) ∧
        (pTimer ∈ final.pool.outstanding ↔ ∀ quota ∈ (system.timers pTimer).quota,
          (system.ledger pTimer).timesTriggered + 3 < quota) := by
  let actions : List Action := [.new none, .new none, .new none,
    .schedule (timerAt 0) (.scheduleOneShotAtTimeout (some 0) 5 0) 0 0,
    .schedule (timerAt 1) (.schedulePeriodicAtTimeout (some 1) 4 1) 0 0,
    .schedule (timerAt 2) (.schedulePeriodicAtTimeout (some 2) 3 0) 0 0, .timerTask 3]
  have checked : (exec (step (timerPool 0)) (initial (timerPool 0)) actions).map
      (fun system => decide (system.RepeatsWithin 4 ∧ system.clock.toNat ≤ 5 ∧
        system.AllDue 5)) = some true := by
    decide +kernel
  obtain ⟨system, reached, holds⟩ := Option.map_eq_some_iff.mp checked
  obtain ⟨repeats, early, due⟩ := of_decide_eq_true holds
  refine ⟨system, reached, rounds_trigger 0 actions system _ 4 _ (by decide +kernel) reached
    (fun _ _ => le_rfl) repeats ?_ (by decide)⟩
  rintro _ ⟨⟩
  exact ⟨early, due⟩

end TimerSystem

end TimerAndCallback
