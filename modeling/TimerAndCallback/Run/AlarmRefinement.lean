import TimerAndCallback.Foundation.AlarmService
import TimerAndCallback.Foundation.Refinement
import TimerAndCallback.Run.PlainClient
import TimerAndCallback.Run.RestartedTimer

/-! # Plain clients have a service of alarms

Clients that schedule by timeouts, each timer once, see an abstract service of alarms. The
heap, the pool and the messages do not show in it. What `howManyTimesToFire` means is what
`processACallback` makes of it: one ring more than it says, without end where it is zero
or the largest value.
-/

namespace TimerAndCallback

open AlarmService

/-- How often a timer with these arguments rings after the first time, if that is limited. -/
def ScheduleArguments.more (arguments : ScheduleArguments) : Option Nat :=
  if arguments.type ≠ .Periodic then some 0
  else if arguments.howManyTimesToFire = 0 ∨ arguments.howManyTimesToFire.toNat + 1 = 2 ^ 32 then
    none
  else some arguments.howManyTimesToFire.toNat

namespace TimerSystem

open TimerMinHeap Execution

/-- A step of plain clients that schedule by timeouts, with no sum of a clock value and a
timeout out of range. -/
def TimeoutStep (pTimerPool : MemoryPool) (system : TimerSystem) (action : Action) : Prop :=
  system.PlainStep pTimerPool action ∧
    match action with
    | .schedule _ request current _ =>
        ∃ timeout ∈ request.atTimeout, current.toNat + timeout.toNat < 2 ^ 64
    | .deliver position current => ∀ envelope ∈ system.messages[position]?,
        (system.timers envelope.timer).Rearms →
          current.toNat + (system.timers envelope.timer).timeout.toNat < 2 ^ 64
    | _ => True

instance (pTimerPool : MemoryPool) (system : TimerSystem) (action : Action) :
    Decidable (system.TimeoutStep pTimerPool action) :=
  match action with
  | .new .. | .schedule .. | .cancel .. | .restart .. | .stop .. | .delete .. | .timerTask ..
  | .deliver .. => by
      unfold TimeoutStep
      infer_instance

/-- What a step shows of the alarms. A delivery shows a ring for each time that it
triggers the callback. -/
def alarmEvents (pTimerPool : MemoryPool) (system : TimerSystem) :
    Action → List (Event UInt64)
  | .new _ => ((pTimerPool.handedOut system.pool.area).map .allocate).toList
  | .schedule pTimer request current _ =>
      [.arm pTimer current.toNat request.arguments.first.toNat request.arguments.timeout.toNat
        request.arguments.more]
  | .timerTask current =>
      match system.minHeap.heap 0 with
      | some top =>
          if system.DueOnTop top current ∧ (system.timers top).state = .Active then
            [.fire top current.toNat]
          else []
      | none => []
  | .deliver position current =>
      match system.messages[position]?, system.step pTimerPool (.deliver position current) with
      | some envelope, some next =>
          List.replicate
            ((next.ledger envelope.timer).timesTriggered -
              (system.ledger envelope.timer).timesTriggered)
            (.ring envelope.timer current.toNat)
      | _, _ => []
  | _ => []

/-- What the members say about the rings to come, with this many firings not answered
yet. -/
inductive Remaining (timer : Timer) (unanswered : Nat) : Option Nat → Prop
  | once (type : timer.type ≠ .Periodic) : Remaining timer unanswered (some 0)
  | limited (more : Nat) (type : timer.type = .Periodic) (limit : timer.howManyTimesToFire ≠ 0)
      (below : timer.howManyTimesToFire.toNat + 1 < 2 ^ 32)
      (count : timer.numberOfTimesFired.toNat + more =
        timer.howManyTimesToFire.toNat + unanswered) : Remaining timer unanswered (some more)
  | endless (type : timer.type = .Periodic)
      (again : timer.howManyTimesToFire = 0 ∨ timer.howManyTimesToFire.toNat + 1 = 2 ^ 32) :
      Remaining timer unanswered none

/-- The members of a timer that has fired this many times without an answer agree with the
alarm. -/
structure Describes (timer : Timer) (unanswered : Nat) (alarm : Alarm) : Prop where
  due : alarm.due = timer.whenToFire.toNat
  period : alarm.period = timer.timeout.toNat
  remaining : Remaining timer unanswered alarm.more

/-- What the status of an alarm says about a timer. -/
inductive Represents (system : TimerSystem) (pTimer : UInt64) : Status → Prop
  | free (dead : pTimer ∉ system.pool.outstanding) : Represents system pTimer .free
  | idle (live : pTimer ∈ system.pool.outstanding)
      (unscheduled : (system.ledger pTimer).scheduled = false) : Represents system pTimer .idle
  | waiting (alarm : Alarm) (live : pTimer ∈ system.pool.outstanding)
      (scheduled : (system.ledger pTimer).scheduled = true)
      (state : (system.timers pTimer).state = .Active)
      (describes : Describes (system.timers pTimer) 0 alarm) :
      Represents system pTimer (.waiting alarm)
  | fired (alarm : Alarm) (live : pTimer ∈ system.pool.outstanding)
      (scheduled : (system.ledger pTimer).scheduled = true)
      (state : (system.timers pTimer).state = .Done)
      (describes : Describes (system.timers pTimer) 1 alarm) :
      Represents system pTimer (.fired alarm)

/-- The service and the system agree. -/
structure Offers (pShm : UInt64) (system : TimerSystem) (service : Service UInt64) : Prop where
  clients : system.PlainClients pShm
  clock : service.now ≤ system.clock.toNat
  status : ∀ pTimer, Represents system pTimer (service.status pTimer)
  rung : ∀ pTimer, service.rung pTimer = (system.ledger pTimer).timesTriggered

section Remaining

variable {timer : Timer} {more : Option Nat}

/-- A timer that was armed has all its rings left. -/
theorem remaining_arm {armed : Timer} {arguments : ScheduleArguments} {current rand : UInt64}
    (ran : timer.arm arguments current rand = some armed) : Remaining armed 0 arguments.more := by
  have fields := Timer.arm_armed ran
  unfold ScheduleArguments.more
  split_ifs with type endless
  · exact .once (fields.type ▸ type)
  · exact .endless (fields.type.trans (not_not.mp type)) (fields.howManyTimesToFire ▸ endless)
  · obtain ⟨limit, below⟩ := not_or.mp endless
    have bounded := arguments.howManyTimesToFire.toNat_lt
    refine .limited _ (fields.type.trans (not_not.mp type)) (fields.howManyTimesToFire ▸ limit)
      ?_ ?_
    · rw [fields.howManyTimesToFire]
      omega
    · rw [fields.howManyTimesToFire, fields.numberOfTimesFired]
      exact Nat.zero_add _

/-- A firing takes one ring. -/
theorem Remaining.expired (remaining : Remaining timer 0 more) :
    Remaining timer.expired 1 more := by
  cases remaining with
  | once type => exact .once type
  | endless type again => exact .endless type again
  | limited more type limit below count =>
      refine .limited more type limit below ?_
      have room : timer.numberOfTimesFired.toNat + 1 < 2 ^ 32 := by omega
      have counted : (timer.numberOfTimesFired + 1).toNat = timer.numberOfTimesFired.toNat + 1 :=
        (UInt32.toNat_add _ _).trans (Nat.mod_eq_of_lt room)
      show (timer.numberOfTimesFired + 1).toNat + more = timer.howManyTimesToFire.toNat + 1
      omega

/-- A timer that is added to the heap again has rings left. -/
theorem Describes.rearms {alarm : Alarm} {current : UInt64} (describes : Describes timer 1 alarm)
    (rearms : timer.Rearms) (bounded : current.toNat + timer.timeout.toNat < 2 ^ 64) :
    ∃ after, alarm.rung current.toNat = .waiting after ∧
      Describes (timer.requeued timer.timeout current) 0 after := by
  obtain ⟨due, period, more⟩ := alarm
  obtain ⟨_, rfl, remaining⟩ := describes
  obtain ⟨_, periodic, again⟩ := rearms
  have later : current.toNat + timer.timeout.toNat =
      (convertTimerTimeoutToAbsoluteTimeSinceEpoch current timer.timeout).toNat :=
    ((UInt64.toNat_add _ _).trans (Nat.mod_eq_of_lt bounded)).symm
  cases remaining with
  | once type => exact absurd periodic type
  | endless _ endless => exact ⟨_, rfl, later, rfl, .endless periodic endless⟩
  | limited more _ limit below count =>
      have spent : timer.numberOfTimesFired.toNat ≤ timer.howManyTimesToFire.toNat :=
        again.resolve_right limit
      cases more with
      | zero => omega
      | succ more =>
          exact ⟨_, rfl, later, rfl, .limited more periodic limit below (Nat.succ.inj count)⟩

/-- A timer that is deleted has rung for the last time. -/
theorem Describes.retires {alarm : Alarm} (describes : Describes timer 1 alarm)
    (retires : timer.Retires) (now : Nat) : alarm.rung now = .free := by
  obtain ⟨due, period, more⟩ := alarm
  have remaining := describes.remaining
  have exhausted : timer.type = .Periodic → ¬ timer.FiresAgain := by
    rintro periodic again
    exact Timer.Rearms.not_retires ⟨retires.1, periodic, again⟩ retires
  cases remaining with
  | once type => rfl
  | endless type again =>
      refine absurd ?_ (exhausted type)
      rcases again with zero | top
      · exact Or.inr zero
      · have bounded := timer.numberOfTimesFired.toNat_lt
        exact Or.inl (UInt32.le_iff_toNat_le.mpr (by omega))
  | limited more type limit below count =>
      have spent : ¬ timer.numberOfTimesFired.toNat ≤ timer.howManyTimesToFire.toNat :=
        fun again => exhausted type (Or.inl again)
      cases more with
      | zero => rfl
      | succ more => omega

end Remaining

section Steps

variable {pShm pTimer : UInt64} {system next : TimerSystem} {service : Service UInt64}
variable {action : Action} {status : Status}

/-- A timer that is untouched stays represented. -/
theorem Represents.untouched (represents : Represents system pTimer status)
    (frame : Untouched pTimer system next) : Represents next pTimer status := by
  cases represents with
  | free dead => exact .free fun live => dead (frame.live.mp live)
  | idle live unscheduled => exact .idle (frame.live.mpr live) (frame.ledger ▸ unscheduled)
  | waiting alarm live scheduled state describes =>
      exact .waiting alarm (frame.live.mpr live) (frame.ledger ▸ scheduled) (frame.timer ▸ state)
        (frame.timer ▸ describes)
  | fired alarm live scheduled state describes =>
      exact .fired alarm (frame.live.mpr live) (frame.ledger ▸ scheduled) (frame.timer ▸ state)
        (frame.timer ▸ describes)

/-- A slot that is not handed out is a free name. -/
theorem Represents.free_of_dead (represents : Represents system pTimer status)
    (dead : pTimer ∉ system.pool.outstanding) : status = .free := by
  cases represents with
  | free => rfl
  | idle live | waiting _ live | fired _ live => exact absurd live dead

/-- A timer that was never scheduled is an idle name. -/
theorem Represents.idle_of_unscheduled (represents : Represents system pTimer status)
    (live : pTimer ∈ system.pool.outstanding)
    (unscheduled : (system.ledger pTimer).scheduled = false) : status = .idle := by
  cases represents with
  | free dead => exact absurd live dead
  | idle => rfl
  | waiting _ _ scheduled | fired _ _ scheduled =>
      exact absurd (unscheduled.symm.trans scheduled) Bool.false_ne_true

/-- A scheduled timer that is active has an alarm waiting. -/
theorem Represents.waiting_of_active (represents : Represents system pTimer status)
    (live : pTimer ∈ system.pool.outstanding)
    (scheduled : (system.ledger pTimer).scheduled = true)
    (active : (system.timers pTimer).state = .Active) :
    ∃ alarm, status = .waiting alarm ∧ Describes (system.timers pTimer) 0 alarm := by
  cases represents with
  | free dead => exact absurd live dead
  | idle _ unscheduled => exact absurd (unscheduled.symm.trans scheduled) Bool.false_ne_true
  | waiting alarm _ _ _ describes => exact ⟨alarm, rfl, describes⟩
  | fired _ _ _ done => exact TimerState.noConfusion (done.symm.trans active)

/-- A scheduled timer that is done has an alarm that fired. -/
theorem Represents.fired_of_done (represents : Represents system pTimer status)
    (live : pTimer ∈ system.pool.outstanding)
    (scheduled : (system.ledger pTimer).scheduled = true)
    (done : (system.timers pTimer).state = .Done) :
    ∃ alarm, status = .fired alarm ∧ Describes (system.timers pTimer) 1 alarm := by
  cases represents with
  | free dead => exact absurd live dead
  | idle _ unscheduled => exact absurd (unscheduled.symm.trans scheduled) Bool.false_ne_true
  | waiting _ _ _ active => exact TimerState.noConfusion (active.symm.trans done)
  | fired alarm _ _ _ describes => exact ⟨alarm, rfl, describes⟩

/-- What is left to show when a step is about one timer. -/
theorem Offers.moved (offers : Offers pShm system service) {now rung : Nat}
    (clients : next.PlainClients pShm) (clock : now ≤ next.clock.toNat)
    (others : ∀ other status, other ≠ pTimer → Represents system other status →
      Represents next other status)
    (kept : ∀ other, other ≠ pTimer → next.ledger other = system.ledger other)
    (self : Represents next pTimer status)
    (count : rung = (next.ledger pTimer).timesTriggered) :
    Offers pShm next (service.put pTimer now status rung) where
  clients := clients
  clock := clock
  status other := by
    by_cases same : other = pTimer
    · subst same
      rw [put_status_self]
      exact self
    · rw [put_status_of_ne same]
      exact others other _ same (offers.status other)
  rung other := by
    by_cases same : other = pTimer
    · subst same
      rw [put_rung_self]
      exact count
    · rw [put_rung_of_ne same, offers.rung, kept other same]

/-- A step that is about one timer says nothing new of the others. -/
theorem represents_others
    (untouched : ∀ other, ¬ system.Touches other action → Untouched other system next)
    (only : ∀ other, system.Touches other action → other = pTimer) (other : UInt64)
    (status : Status) (apart : other ≠ pTimer) (represents : Represents system other status) :
    Represents next other status :=
  represents.untouched (untouched other fun touches => apart (only other touches))

/-- What is left to show when the step touches no other timer. -/
theorem Offers.touched (offers : Offers pShm system service) {now rung : Nat}
    (clients : next.PlainClients pShm) (clock : now ≤ next.clock.toNat)
    (untouched : ∀ other, ¬ system.Touches other action → Untouched other system next)
    (only : ∀ other, system.Touches other action → other = pTimer)
    (self : Represents next pTimer status)
    (count : rung = (next.ledger pTimer).timesTriggered) :
    Offers pShm next (service.put pTimer now status rung) :=
  offers.moved clients clock (represents_others untouched only)
    (fun other apart => (untouched other fun touches => apart (only other touches)).ledger) self
    count

/-- A delivery that triggers the callback shows one ring. -/
theorem alarmEvents_deliver {pTimerPool : MemoryPool} {position : Nat} {current : UInt64}
    {envelope : Envelope} (queued : system.messages[position]? = some envelope)
    (taken : system.step pTimerPool (.deliver position current) = some next)
    (once : (next.ledger envelope.timer).timesTriggered =
      (system.ledger envelope.timer).timesTriggered + 1) :
    system.alarmEvents pTimerPool (.deliver position current) =
      [.ring envelope.timer current.toNat] := by
  simp only [alarmEvents, queued, taken, once, Nat.add_sub_cancel_left, List.replicate_one]

/-- The alarm of a timer that a message leads to has fired. -/
theorem Offers.fired_of_queued (offers : Offers pShm system service) {position : Nat}
    {envelope : Envelope} (queued : system.messages[position]? = some envelope) :
    system.Held envelope.timer ∧ ∃ alarm, service.status envelope.timer = .fired alarm ∧
      Describes (system.timers envelope.timer) 1 alarm := by
  obtain ⟨held, inQueue⟩ := (offers.clients.situations envelope.timer).fired_of_inFlight
    (LeadsTo.inFlight_pos ⟨envelope, queued, rfl⟩)
  exact ⟨held, (offers.status envelope.timer).fired_of_done held.live held.scheduled inQueue.1⟩

private theorem arm_atTimeout {request : ScheduleRequest} {timer armed : Timer}
    {current rand timeout : UInt64} (asked : request.atTimeout = some timeout)
    (ran : timer.arm request.arguments current rand = some armed) :
    request.arguments.first = timeout ∧ armed.whenToFire = current + timeout := by
  cases request with
  | scheduleOneShotAtTimeout | schedulePeriodicAtTimeout =>
      cases asked
      cases ran
      exact ⟨rfl, rfl⟩
  | scheduleOneShotAtAbsoluteTime | scheduleOneShotBetweenAbsoluteTimes
  | scheduleOneShotBetweenTimeouts | schedulePeriodicAtAbsoluteTime => cases asked

/-- The service allows what a step shows. -/
theorem Offers.step (offers : Offers pShm system service)
    (timely : system.TimeoutStep (timerPool pShm) action)
    (taken : system.step (timerPool pShm) action = some next) :
    ∃ after, exec AlarmService.step service (system.alarmEvents (timerPool pShm) action) =
      some after ∧ Offers pShm next after := by
  obtain ⟨plain, timely⟩ := timely
  have transition := step_transition offers.clients.wellFormed taken
  have clients := offers.clients.transition transition plain
  have later : service.now ≤ next.clock.toNat := offers.clock.trans (transition.clock_le plain)
  have untouched : ∀ other, ¬ system.Touches other action → Untouched other system next :=
    fun _ => transition.untouched
  cases transition with
  | created tasks fresh pool handed free sound outstanding =>
      refine ⟨service.put fresh service.now .idle 0, ?_, offers.moved clients later ?_ ?_ ?_ ?_⟩
      · rw [alarmEvents, handed]
        exact (exec_singleton _ _).trans
          (step_eq_some.mpr (.allocate fresh ((offers.status fresh).free_of_dead free)))
      · intro other status apart represents
        by_cases live : other ∈ system.pool.outstanding
        · exact represents.untouched (untouched other fun dead => dead live)
        · rw [represents.free_of_dead live]
          refine .free fun member => live ?_
          dsimp only at member
          rw [outstanding, Finset.mem_insert] at member
          exact member.resolve_left apart
      · exact fun other apart => Function.update_of_ne apart _ _
      · refine .idle ?_ ?_
        · dsimp only
          rw [outstanding]
          exact Finset.mem_insert_self _ _
        · simp only [setLedger_ledger, Function.update_self]
      · simp only [setLedger_ledger, Function.update_self]
  | scheduled pTimer request current rand timer heap live armed room inserted =>
      obtain ⟨timeout, asked, bounded⟩ := timely
      obtain ⟨rfl, due⟩ := arm_atTimeout asked armed
      have idle := (offers.status pTimer).idle_of_unscheduled live plain.2.1
      refine ⟨_, (exec_singleton _ _).trans (step_eq_some.mpr (.arm _ _ _ _ _ idle later)),
        offers.touched clients le_rfl untouched (fun other same => same.symm)
          (.waiting _ live ?_ ?_ ⟨?_, ?_, ?_⟩) ?_⟩
      · simp only [setLedger_ledger, Function.update_self]
      · simp only [setLedger_timers, setTimer_timers, Function.update_self]
        exact (Timer.arm_armed armed).state
      · simp only [setLedger_timers, setTimer_timers, Function.update_self]
        rw [due]
        exact ((UInt64.toNat_add _ _).trans (Nat.mod_eq_of_lt bounded)).symm
      · simp only [setLedger_timers, setTimer_timers, Function.update_self]
        exact congrArg UInt64.toNat (Timer.arm_scheduledAs asked armed).timeout.symm
      · simp only [setLedger_timers, setTimer_timers, Function.update_self]
        exact remaining_arm armed
      · simp only [setLedger_ledger, Function.update_self]
        exact offers.rung pTimer
  | rested current idle =>
      refine ⟨service, ?_, clients, later, fun other =>
        (offers.status other).untouched ⟨rfl, rfl, Iff.rfl, rfl, le_rfl⟩, offers.rung⟩
      unfold alarmEvents
      cases holds : system.minHeap.heap 0 with
      | none => rfl
      | some top =>
          dsimp only
          rw [if_neg fun fires => TimerState.noConfusion ((idle top fires.1).symm.trans fires.2)]
          rfl
  | fired current top heap onTop active =>
      obtain ⟨held, inHeap⟩ :=
        (offers.clients.situations top).waiting_of_occurrences onTop.occurrences_pos
      obtain ⟨alarm, waiting, describes⟩ :=
        (offers.status top).waiting_of_active held.live held.scheduled active
      refine ⟨service.put top current.toNat (.fired alarm) (service.rung top), ?_,
        offers.touched clients le_rfl untouched (fun other touches => touches.unique onTop)
          (.fired _ held.live ?_ ?_ ⟨?_, ?_, ?_⟩) ?_⟩
      · unfold alarmEvents
        rw [onTop.holds]
        dsimp only
        rw [if_pos ⟨onTop, active⟩]
        exact (exec_singleton _ _).trans
          (step_eq_some.mpr (.fire _ _ alarm waiting later (describes.due.trans_le onTop.due)))
      · simp only [send_ledger, setTimer_ledger, Function.update_self]
        exact held.scheduled
      · simp only [send_timers, setTimer_timers, Function.update_self, Timer.expired]
      · simp only [send_timers, setTimer_timers, Function.update_self]
        exact describes.due
      · simp only [send_timers, setTimer_timers, Function.update_self]
        exact describes.period
      · simp only [send_timers, setTimer_timers, Function.update_self]
        exact describes.remaining.expired
      · simp only [send_ledger, setTimer_ledger, Function.update_self]
        exact offers.rung top
  | revived current top heap onTop idle =>
      have inHeap :=
        ((offers.clients.situations top).waiting_of_occurrences onTop.occurrences_pos).2
      exact TimerState.noConfusion (idle.symm.trans inHeap.1)
  | ignored position current envelope queued stays remains =>
      obtain ⟨held, _⟩ := offers.fired_of_queued queued
      rcases Timer.rearms_or_retires held.callback held.typed with rearms | retires
      · exact absurd rearms stays
      · exact absurd retires remains
  | rearmed position current envelope heap queued live rearms room inserted =>
      obtain ⟨held, alarm, fired, describes⟩ := offers.fired_of_queued queued
      obtain ⟨after, rung, describes⟩ := describes.rearms rearms (timely envelope queued rearms)
      refine ⟨service.put envelope.timer current.toNat (alarm.rung current.toNat)
          (service.rung envelope.timer + 1), ?_,
        offers.touched clients le_rfl untouched
          (fun other touches => (touches.named queued).symm) ?_ ?_⟩
      · rw [alarmEvents_deliver queued taken]
        · exact (exec_singleton _ _).trans (step_eq_some.mpr (.ring _ _ alarm fired later))
        · simp only [setTimer_ledger, setLedger_ledger, Function.update_self, Ledger.triggered]
      · rw [rung]
        refine .waiting _ live ?_ ?_ ?_
        · simp only [setTimer_ledger, setLedger_ledger, Function.update_self]
          exact held.scheduled
        · simp only [setTimer_timers, Function.update_self]
          rfl
        · simp only [setTimer_timers, Function.update_self]
          exact describes
      · simp only [setTimer_ledger, setLedger_ledger, Function.update_self, Ledger.triggered]
        exact congrArg (· + 1) (offers.rung envelope.timer)
  | retired position current envelope heap queued live retires vacated =>
      obtain ⟨_, alarm, fired, describes⟩ := offers.fired_of_queued queued
      refine ⟨service.put envelope.timer current.toNat (alarm.rung current.toNat)
          (service.rung envelope.timer + 1), ?_,
        offers.touched clients le_rfl untouched
          (fun other touches => (touches.named queued).symm) ?_ ?_⟩
      · rw [alarmEvents_deliver queued taken]
        · exact (exec_singleton _ _).trans (step_eq_some.mpr (.ring _ _ alarm fired later))
        · simp only [deleted_ledger_self, setLedger_ledger, Function.update_self, Ledger.triggered]
      · rw [describes.retires retires]
        exact .free (Finset.notMem_erase _ _)
      · simp only [deleted_ledger_self, setLedger_ledger, Function.update_self, Ledger.triggered]
        exact congrArg (· + 1) (offers.rung envelope.timer)
  | cancelled | restarted | stopped | deleted => exact plain.elim

/-- The system starts as the service does. -/
theorem initial_offers (pShm : UInt64) :
    Offers pShm (initial (timerPool pShm)) AlarmService.start where
  clients := initial_plainClients pShm
  clock := le_rfl
  status _ := .free (Finset.notMem_empty _)
  rung _ := rfl

end Steps

/-- What plain clients, `TimerTask` and the deliveries do is what a service of alarms may
do. The service knows each timer, and how often its callback was triggered. -/
theorem alarms_served (pShm : UInt64) (actions : List Action) (system : TimerSystem)
    (timely : Along (step (timerPool pShm)) (TimeoutStep (timerPool pShm))
      (initial (timerPool pShm)) actions)
    (reached : exec (step (timerPool pShm)) (initial (timerPool pShm)) actions = some system) :
    ∃ service, exec AlarmService.step start (trace (step (timerPool pShm))
        (alarmEvents (timerPool pShm)) (initial (timerPool pShm)) actions) = some service ∧
      service.now ≤ system.clock.toNat ∧
      (∀ pTimer, Represents system pTimer (service.status pTimer)) ∧
      ∀ pTimer, service.rung pTimer = (system.ledger pTimer).timesTriggered := by
  obtain ⟨service, allowed, offers⟩ := exec_trace
    (fun _ _ _ _ offers timely taken => offers.step timely taken) (initial_offers pShm) timely
    reached
  exact ⟨service, allowed, offers.clock, offers.status, offers.rung⟩

/-- A periodic timer that has fired twice and was triggered once. -/
theorem alarms_served_one : ∃ system,
    exec (step (timerPool 0)) (initial (timerPool 0))
      [.new none, .schedule (timerAt 0) (.schedulePeriodicAtTimeout (some 0) 5 0) 0 0,
        .timerTask 4, .timerTask 5, .deliver 0 6, .timerTask 11] = some system ∧
    ∃ service, exec AlarmService.step start (trace (step (timerPool 0))
        (alarmEvents (timerPool 0)) (initial (timerPool 0))
        [.new none, .schedule (timerAt 0) (.schedulePeriodicAtTimeout (some 0) 5 0) 0 0,
          .timerTask 4, .timerTask 5, .deliver 0 6, .timerTask 11]) = some service ∧
      service.now ≤ system.clock.toNat ∧
      (∀ pTimer, Represents system pTimer (service.status pTimer)) ∧
      ∀ pTimer, service.rung pTimer = (system.ledger pTimer).timesTriggered := by
  have ran : (exec (step (timerPool 0)) (initial (timerPool 0))
      [.new none, .schedule (timerAt 0) (.schedulePeriodicAtTimeout (some 0) 5 0) 0 0,
        .timerTask 4, .timerTask 5, .deliver 0 6, .timerTask 11]).isSome := by
    decide +kernel
  obtain ⟨system, reached⟩ := Option.isSome_iff_exists.mp ran
  exact ⟨system, reached, alarms_served 0 _ system (by decide +kernel) reached⟩

/-- After a timer was scheduled, its callback is not triggered before the timeout and one
more timeout for each earlier trigger have passed, nor more often than once more than
`howManyTimesToFire` says. Its slot is handed out again only after it was triggered that
often. -/
theorem triggers_spaced (pShm : UInt64) (actions : List Action) (system : TimerSystem)
    (timely : Along (step (timerPool pShm)) (TimeoutStep (timerPool pShm))
      (initial (timerPool pShm)) actions)
    (reached : exec (step (timerPool pShm)) (initial (timerPool pShm)) actions = some system)
    (pTimer : UInt64) (now delay period : Nat) (more : Option Nat)
    (front middle rest : List (Event UInt64)) (event : Event UInt64)
    (shown : trace (step (timerPool pShm)) (alarmEvents (timerPool pShm))
      (initial (timerPool pShm)) actions =
        front ++ .arm pTimer now delay period more :: (middle ++ event :: rest))
    (kept : .allocate pTimer ∉ middle) :
    (∀ late, event = .ring pTimer late →
      now + delay + middle.countP (Rings pTimer) * period ≤ late ∧
        ∀ limit, more = some limit → middle.countP (Rings pTimer) ≤ limit) ∧
    (event = .allocate pTimer →
      ∃ limit, more = some limit ∧ middle.countP (Rings pTimer) = limit + 1) := by
  obtain ⟨service, allowed, _⟩ := exec_trace
    (fun _ _ _ _ offers timely taken => offers.step timely taken) (initial_offers pShm) timely
    reached
  rw [shown] at allowed
  constructor
  · rintro late rfl
    exact ring_spaced allowed kept
  · rintro rfl
    exact reallocated_done allowed kept

/-- A timer that fires once more than it was asked to, before its slot is handed out
again. -/
theorem triggers_spaced_two : ∃ actions middle,
    actions = [.new none, .schedule (timerAt 0) (.schedulePeriodicAtTimeout (some 0) 5 1) 0 0,
      .timerTask 5, .deliver 0 6, .timerTask 11, .deliver 0 12, .new none] ∧
    trace (step (timerPool 0)) (alarmEvents (timerPool 0)) (initial (timerPool 0)) actions =
      .allocate (timerAt 0) :: .arm (timerAt 0) 0 5 5 (some 1) ::
        (middle ++ [.allocate (timerAt 0)]) ∧
    ∃ limit, some 1 = some limit ∧ middle.countP (Rings (timerAt 0)) = limit + 1 := by
  have ran : (exec (step (timerPool 0)) (initial (timerPool 0))
      [.new none, .schedule (timerAt 0) (.schedulePeriodicAtTimeout (some 0) 5 1) 0 0,
        .timerTask 5, .deliver 0 6, .timerTask 11, .deliver 0 12, .new none]).isSome := by
    decide +kernel
  have shown : trace (step (timerPool 0)) (alarmEvents (timerPool 0)) (initial (timerPool 0))
      [.new none, .schedule (timerAt 0) (.schedulePeriodicAtTimeout (some 0) 5 1) 0 0,
        .timerTask 5, .deliver 0 6, .timerTask 11, .deliver 0 12, .new none] =
      [.allocate (timerAt 0)] ++ .arm (timerAt 0) 0 5 5 (some 1) ::
        ([.fire (timerAt 0) 5, .ring (timerAt 0) 6, .fire (timerAt 0) 11, .ring (timerAt 0) 12] ++
          [.allocate (timerAt 0)]) := by
    decide +kernel
  obtain ⟨system, reached⟩ := Option.isSome_iff_exists.mp ran
  exact ⟨_, _, rfl, shown,
    (triggers_spaced 0 _ system (by decide +kernel) reached _ _ _ _ _ _ _ _ _ shown
      (by decide +kernel)).2 rfl⟩

end TimerSystem

end TimerAndCallback
