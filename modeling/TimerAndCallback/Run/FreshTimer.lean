import TimerAndCallback.Run.HeapSafety
import TimerAndCallback.Platform.TimerMinHeapRemoval

/-! # New timers in used slots

`new Timer (creatingTId, cbContextTId)` writes two members and keeps what the slot's
previous occupant left in the others. Until the timer is scheduled, its destructor goes
by that. The contents of the slot make no difference as long as the search of the heap
does not find the address, and no call takes the firing time from a member.
-/

namespace TimerAndCallback

/-- The call takes the firing time from a member: an absolute first time is not copied,
and a window with reversed bounds leaves the firing time as it is. -/
def ScheduleRequest.ReadsMember (current : UInt64) : ScheduleRequest → Prop
  | .scheduleOneShotAtAbsoluteTime .. => True
  | .scheduleOneShotAtTimeout .. => False
  | .scheduleOneShotBetweenAbsoluteTimes _ absoluteTime1 absoluteTime2 =>
      convertAbsoluteTimeSinceEpochToRelative current absoluteTime2 <
        convertAbsoluteTimeSinceEpochToRelative current absoluteTime1
  | .scheduleOneShotBetweenTimeouts _ timeout1 timeout2 => timeout2 < timeout1
  | .schedulePeriodicAtAbsoluteTime .. => True
  | .schedulePeriodicAtTimeout .. => False

namespace Timer

/-- The members a constructor with two tasks and a destructor write. -/
structure SameOwner (one other : Timer) : Prop where
  pCb : other.pCb = one.pCb
  creatingTId : other.creatingTId = one.creatingTId
  cbContexTId : other.cbContexTId = one.cbContexTId

variable {request : ScheduleRequest} {current : UInt64}

/-- A request that does not read the member is armed alike whatever the member holds. -/
theorem firstWhenToFire_congr (independent : ¬ request.ReadsMember current) (one other : Timer)
    (rand : UInt64) : other.firstWhenToFire request.arguments current rand =
      one.firstWhenToFire request.arguments current rand := by
  cases request with
  | scheduleOneShotAtAbsoluteTime => exact absurd trivial independent
  | scheduleOneShotAtTimeout => rfl
  | scheduleOneShotBetweenAbsoluteTimes =>
      exact (if_neg independent).trans (if_neg independent).symm
  | scheduleOneShotBetweenTimeouts => exact (if_neg independent).trans (if_neg independent).symm
  | schedulePeriodicAtAbsoluteTime => exact absurd trivial independent
  | schedulePeriodicAtTimeout => rfl

private theorem firstWhenToFire_of_readsMember (reads : request.ReadsMember current) (timer : Timer)
    (value rand : UInt64) :
    { timer with first := value, whenToFire := value }.firstWhenToFire request.arguments
      current rand = some value := by
  cases request with
  | scheduleOneShotAtAbsoluteTime => rfl
  | scheduleOneShotAtTimeout => exact absurd reads id
  | scheduleOneShotBetweenAbsoluteTimes => exact if_pos reads
  | scheduleOneShotBetweenTimeouts => exact if_pos reads
  | schedulePeriodicAtAbsoluteTime => rfl
  | schedulePeriodicAtTimeout => exact absurd reads id

/-- A call that takes no firing time from a member writes every other member. -/
theorem arm_congr (independent : ¬ request.ReadsMember current) {one other : Timer}
    (same : one.SameOwner other) (rand : UInt64) : ∃ first,
      other.arm request.arguments current rand =
        (one.arm request.arguments current rand).map
          fun armed => { armed with first := first } := by
  let arguments := request.arguments
  refine ⟨if arguments.isFuzzyOneShot || arguments.firstIsAbsolute then other.first
    else arguments.first, ?_⟩
  unfold arm
  rw [firstWhenToFire_congr independent one other, Option.map_map]
  apply congrArg (fun write => Option.map write _)
  funext whenToFire
  simp only [Function.comp_apply, same.pCb, same.creatingTId, same.cbContexTId, arguments]

end Timer

namespace TimerSystem

open TimerMinHeap Execution

/-- The system with another first time in the timer. -/
def withFirst (pTimer first : UInt64) (system : TimerSystem) : TimerSystem :=
  system.setTimer pTimer { system.timers pTimer with first := first }

/-- The systems differ in the members of one timer only, and once it is scheduled, in
none but its first time. -/
def Alike (pTimer : UInt64) (one other : TimerSystem) : Prop :=
  ∃ timer, other = one.setTimer pTimer timer ∧
    ((one.ledger pTimer).scheduled = true →
      timer = { one.timers pTimer with first := timer.first })

/-- A client's calls on one timer, scheduling it by some of the calls there are. -/
def OwnAction (pTimer : UInt64) (requests : ScheduleRequest → UInt64 → Prop) : Action → Prop
  | .schedule other request current _ => other = pTimer ∧ requests request current
  | .cancel other => other = pTimer
  | .stop other => other = pTimer
  | .delete other => other = pTimer
  | _ => False

/-- The slot is free again, and the heap is as it was. -/
structure GivenBack (pTimer : UInt64) (before after : TimerSystem) : Prop where
  free : pTimer ∉ after.pool.outstanding
  numberAllocated : after.pool.area.numberAllocated = before.pool.area.numberAllocated
  count : after.minHeap.numberOfTimersBeingManaged = before.minHeap.numberOfTimersBeingManaged
  slots : ∀ index < before.minHeap.numberOfTimersBeingManaged,
    after.minHeap.heap index = before.minHeap.heap index

/-- A timer constructed in the slot inherits nothing from it: deleting it at once gives
the slot back, and a client's calls have the same effects whatever the slot contained.
No free slot contains a callback (`WellFormed.silent`). -/
structure StartsFresh (pShm pTimer : UInt64) (tasks : TaskId × TaskId)
    (requests : ScheduleRequest → UInt64 → Prop) (system : TimerSystem) : Prop where
  givenBack : ∃ after,
    exec (step (timerPool pShm)) system [.new (some tasks), .delete pTimer] = some after ∧
      GivenBack pTimer system after
  same : ∀ (one other : Timer) (following : List Action), one.pCb = none → other.pCb = none →
    (∀ action ∈ following, OwnAction pTimer requests action) →
      Option.Rel (Alike pTimer)
        (exec (step (timerPool pShm)) (system.setTimer pTimer one)
          (.new (some tasks) :: following))
        (exec (step (timerPool pShm)) (system.setTimer pTimer other)
          (.new (some tasks) :: following))

section WithFirst

variable (system : TimerSystem) (pTimer first : UInt64)

private theorem whenToFire_withFirst :
    (system.withFirst pTimer first).whenToFire = system.whenToFire := by
  funext other
  unfold whenToFire withFirst
  rw [setTimer_timers]
  by_cases same : other = pTimer
  · rw [same, Function.update_self]
  · rw [Function.update_of_ne same]

private theorem addToHeap_withFirst : (system.withFirst pTimer first).addToHeap pTimer =
    (system.addToHeap pTimer).map (withFirst pTimer first) := by
  unfold addToHeap
  rw [whenToFire_withFirst, Option.map_map]
  rfl

private theorem removeFromHeap_withFirst : (system.withFirst pTimer first).removeFromHeap pTimer =
    (system.removeFromHeap pTimer).map (withFirst pTimer first) := by
  unfold removeFromHeap
  rw [whenToFire_withFirst, Option.map_map]
  rfl

private theorem setTimerState_withFirst (state : TimerState) :
    (system.withFirst pTimer first).setTimerState pTimer state =
      (system.setTimerState pTimer state).withFirst pTimer first := by
  simp only [withFirst, setTimerState, setTimer, Function.update_idem, Function.update_self]

private theorem stop_withFirst : (system.withFirst pTimer first).stop pTimer =
    (system.stop pTimer).map (withFirst pTimer first) := by
  unfold stop
  rw [setTimerState_withFirst, removeFromHeap_withFirst]

private theorem cancel_withFirst : (system.withFirst pTimer first).cancel pTimer =
    (system.cancel pTimer).withFirst pTimer first := by
  simp only [withFirst, cancel, setTimer, Function.update_idem, Function.update_self]

private theorem setCallback_withFirst (pCb : Option Nat) :
    (system.withFirst pTimer first).setTimer pTimer
        { (system.withFirst pTimer first).timers pTimer with pCb := pCb } =
      (system.setTimer pTimer { system.timers pTimer with pCb := pCb }).withFirst pTimer first := by
  simp only [withFirst, setTimer, Function.update_idem, Function.update_self]

private theorem destroy_withFirst : (system.withFirst pTimer first).destroy pTimer =
    (system.destroy pTimer).map (withFirst pTimer first) := by
  have members : (system.withFirst pTimer first).timers pTimer =
      { system.timers pTimer with first := first } := Function.update_self _ _ _
  unfold destroy
  rw [members]
  dsimp only
  split_ifs with quiet
  · exact congrArg some (setCallback_withFirst system pTimer first none)
  · rw [removeFromHeap_withFirst]
    cases system.removeFromHeap pTimer with
    | none => rfl
    | some middle => exact congrArg some (setCallback_withFirst middle pTimer first none)

private theorem delete_withFirst (pTimerPool : MemoryPool) :
    (system.withFirst pTimer first).delete pTimerPool pTimer =
      (system.delete pTimerPool pTimer).map (withFirst pTimer first) := by
  unfold delete
  rw [destroy_withFirst]
  cases system.destroy pTimer with
  | none => rfl
  | some middle =>
      simp only [Option.map_some, Option.bind_some, operatorDelete, Option.map_map]
      rfl

/-- A call that takes no firing time from a member has the same effect on two timers
that share a callback and their tasks, but for the first time. -/
theorem schedule_setTimer {request : ScheduleRequest} {current : UInt64} {timer : Timer}
    (independent : ¬ request.ReadsMember current)
    (same : (system.timers pTimer).SameOwner timer) (rand : UInt64) : ∃ first,
      (system.setTimer pTimer timer).schedule pTimer request.arguments current rand =
        (system.schedule pTimer request.arguments current rand).map (withFirst pTimer first) := by
  obtain ⟨first, armed⟩ := Timer.arm_congr independent same rand
  refine ⟨first, ?_⟩
  unfold schedule
  rw [setTimer_timers_self, armed]
  cases (system.timers pTimer).arm request.arguments current rand with
  | none => rfl
  | some armed =>
      have written : ((system.setTimer pTimer timer).setTimer pTimer
          { armed with first := first }).setLedger pTimer
            { system.ledger pTimer with scheduled := true } =
          ((system.setTimer pTimer armed).setLedger pTimer
            { system.ledger pTimer with scheduled := true }).withFirst pTimer first := by
        simp only [withFirst, setTimer, setLedger, Function.update_idem, Function.update_self]
      have added := addToHeap_withFirst ((system.setTimer pTimer armed).setLedger pTimer
        { system.ledger pTimer with scheduled := true }) pTimer first
      rw [← written] at added
      exact added

end WithFirst

/-- A destructor whose search, if it makes one, leaves the heap alone. Then it is up to the
pool whether the call returns. -/
theorem delete_unchanged {system : TimerSystem} {pTimer : UInt64} (pTimerPool : MemoryPool)
    (searched : ¬ (system.timers pTimer).Quiet → system.removeFromHeap pTimer = some system) :
    system.delete pTimerPool pTimer =
      (pTimerPool.removeFromPool system.pool.area pTimer).map fun _ =>
        system.deleted pTimerPool pTimer system.minHeap := by
  have left : (if (system.timers pTimer).type = .Invalid ∨ (system.timers pTimer).state = .Done
      then some system else system.removeFromHeap pTimer) = some system := by
    split_ifs with quiet
    · rfl
    · exact searched quiet
  have destroyed : system.destroy pTimer =
      some (system.setTimer pTimer { system.timers pTimer with pCb := none }) :=
    Option.bind_eq_some_iff.mpr ⟨system, left, rfl⟩
  rw [delete, destroyed, Option.bind_some, operatorDelete, setTimer_pool, deleted]
  cases pTimerPool.removeFromPool system.pool.area pTimer <;> rfl

section Passed

variable {pTimer : UInt64} (system : TimerSystem)
  (room : system.minHeap.numberOfTimersBeingManaged ≤ MAX_NUMBER_OF_TIMERS)
  (filled : system.minHeap.Filled system.minHeap.numberOfTimersBeingManaged)
  (passed : ¬ system.minHeap.Finds pTimer)

include room filled passed

private theorem removeFromHeap_passed : system.removeFromHeap pTimer = some system :=
  Option.map_eq_some_iff.mpr
    ⟨_, (removeFromHeap_eq_error_iff system.whenToFire room filled).mpr passed, rfl⟩

private theorem stop_passed : system.stop pTimer = some (system.setTimerState pTimer .Idle) :=
  removeFromHeap_passed (system.setTimerState pTimer .Idle) room filled passed

private theorem delete_passed (pTimerPool : MemoryPool) :
    system.delete pTimerPool pTimer =
      (pTimerPool.removeFromPool system.pool.area pTimer).map fun _ =>
        system.deleted pTimerPool pTimer system.minHeap :=
  delete_unchanged pTimerPool fun _ => removeFromHeap_passed system room filled passed

omit room passed in
/-- No timer is scheduled while the heap is full. -/
theorem schedule_full (full : ¬ system.minHeap.numberOfTimersBeingManaged < MAX_NUMBER_OF_TIMERS)
    (arguments : ScheduleArguments) (current rand : UInt64) :
    system.schedule pTimer arguments current rand = none := by
  unfold schedule
  cases (system.timers pTimer).arm arguments current rand with
  | none => rfl
  | some timer =>
      apply Option.eq_none_iff_forall_ne_some.mpr
      intro next added
      exact full (addToHeap_cases added filled).1

end Passed

/-- Two systems in which a slot was handed out with different contents: not yet
scheduled they share the heap that was there, and then all but the first time. -/
inductive Twins (pTimer : UInt64) (heap : TimerMinHeap UInt64) :
    TimerSystem → TimerSystem → Prop
  | unscheduled (one : TimerSystem) (timer : Timer) (shared : one.minHeap = heap)
      (unscheduled : (one.ledger pTimer).scheduled = false)
      (same : (one.timers pTimer).SameOwner timer) :
      Twins pTimer heap one (one.setTimer pTimer timer)
  | scheduled (one : TimerSystem) (first : UInt64)
      (room : heap.numberOfTimersBeingManaged < MAX_NUMBER_OF_TIMERS) :
      Twins pTimer heap one (one.withFirst pTimer first)

section Twins

variable {pShm pTimer : UInt64} {heap : TimerMinHeap UInt64} {one other : TimerSystem}
  {requests : ScheduleRequest → UInt64 → Prop} {action : Action}

private theorem Twins.alike (twins : Twins pTimer heap one other) : Alike pTimer one other := by
  cases twins with
  | unscheduled timer shared unscheduled =>
      refine ⟨timer, rfl, fun scheduled => ?_⟩
      rw [unscheduled] at scheduled
      cases scheduled
  | scheduled first => exact ⟨_, rfl, fun _ => rfl⟩

/-- A call on the timer, made in two systems where it is allocated in both or neither. -/
theorem call_related {related : TimerSystem → TimerSystem → Prop}
    {method another : Option TimerSystem} (pool : other.pool = one.pool)
    (made : Option.Rel related method another) :
    Option.Rel related (one.call pTimer method) (other.call pTimer another) := by
  unfold call
  rw [pool]
  split_ifs
  · exact made
  · exact .none

private theorem deleted_setTimer (pTimerPool : MemoryPool) (one : TimerSystem) (pTimer : UInt64)
    (timer : Timer) (heap : TimerMinHeap UInt64) :
    (one.setTimer pTimer timer).deleted pTimerPool pTimer heap =
      (one.deleted pTimerPool pTimer heap).setTimer pTimer { timer with pCb := none } := by
  simp only [deleted, setTimer, freed, Function.update_idem, Function.update_self]

/-- Writing the timer in both systems, keeping what they share of it. -/
theorem Twins.written (write : Timer → Timer) {timer : Timer} (shared : one.minHeap = heap)
    (unscheduled : (one.ledger pTimer).scheduled = false)
    (same : (write (one.timers pTimer)).SameOwner (write timer)) :
    Twins pTimer heap (one.setTimer pTimer (write (one.timers pTimer)))
      ((one.setTimer pTimer timer).setTimer pTimer
        (write ((one.setTimer pTimer timer).timers pTimer))) := by
  have twins := Twins.unscheduled (one.setTimer pTimer (write (one.timers pTimer))) (write timer)
    shared unscheduled (by rwa [setTimer_timers, Function.update_self])
  convert twins using 1
  simp only [setTimer, Function.update_idem, Function.update_self]

/-- The calls on a timer that is not scheduled yet. -/
theorem step_unscheduled {timer : Timer} (shared : one.minHeap = heap)
    (unscheduled : (one.ledger pTimer).scheduled = false)
    (same : (one.timers pTimer).SameOwner timer)
    (room : heap.numberOfTimersBeingManaged ≤ MAX_NUMBER_OF_TIMERS)
    (filled : heap.Filled heap.numberOfTimersBeingManaged) (passed : ¬ heap.Finds pTimer)
    (independent : heap.numberOfTimersBeingManaged < MAX_NUMBER_OF_TIMERS →
      ∀ request current, requests request current → ¬ request.ReadsMember current)
    (own : OwnAction pTimer requests action) :
    Option.Rel (Twins pTimer heap) (one.step (timerPool pShm) action)
      ((one.setTimer pTimer timer).step (timerPool pShm) action) := by
  subst shared
  cases action with
  | new => exact own.elim
  | schedule named request current rand =>
      obtain ⟨rfl, asked⟩ := own
      refine call_related rfl ?_
      by_cases roomy : one.minHeap.numberOfTimersBeingManaged < MAX_NUMBER_OF_TIMERS
      · obtain ⟨first, scheduled⟩ := schedule_setTimer { one with clock := current } named
          (independent roomy request current asked) same rand
        exact scheduled ▸ rel_map fun state _ => .scheduled state first roomy
      · rw [schedule_full { one with clock := current } filled roomy,
          schedule_full { one.setTimer named timer with clock := current } filled roomy]
        exact .none
  | cancel named =>
      obtain rfl := own
      refine call_related rfl (.some ?_)
      exact Twins.written (fun timer => { timer with pCb := none, state := .Idle }) rfl unscheduled
        ⟨rfl, same.creatingTId, same.cbContexTId⟩
  | restart => exact own.elim
  | stop named =>
      obtain rfl := own
      refine call_related rfl ?_
      rw [stop_passed one room filled passed,
        stop_passed (one.setTimer named timer) room filled passed]
      exact .some (Twins.written (fun timer => { timer with state := .Idle }) rfl unscheduled
        ⟨same.pCb, same.creatingTId, same.cbContexTId⟩)
  | delete named =>
      obtain rfl := own
      refine call_related rfl ?_
      rw [delete_passed one room filled passed,
        delete_passed (one.setTimer named timer) room filled passed]
      have twins := Twins.unscheduled (one.deleted (timerPool pShm) named one.minHeap)
        { timer with pCb := none } rfl (by rwa [deleted_ledger_self])
        (by
          rw [deleted_timers_self]
          exact ⟨rfl, same.creatingTId, same.cbContexTId⟩)
      rw [← deleted_setTimer] at twins
      rw [setTimer_pool]
      cases (timerPool pShm).removeFromPool one.pool.area named with
      | none => exact .none
      | some area => exact .some twins
  | timerTask => exact own.elim
  | deliver => exact own.elim

/-- The calls on a timer whose members are the same but for the first time. -/
theorem step_scheduled (first : UInt64)
    (roomy : heap.numberOfTimersBeingManaged < MAX_NUMBER_OF_TIMERS)
    (independent : ∀ request current, requests request current → ¬ request.ReadsMember current)
    (own : OwnAction pTimer requests action) :
    Option.Rel (Twins pTimer heap) (one.step (timerPool pShm) action)
      ((one.withFirst pTimer first).step (timerPool pShm) action) := by
  cases action with
  | new => exact own.elim
  | schedule named request current rand =>
      obtain ⟨rfl, asked⟩ := own
      refine call_related rfl ?_
      have same : (one.timers named).SameOwner { one.timers named with first := first } :=
        ⟨rfl, rfl, rfl⟩
      obtain ⟨first, scheduled⟩ := schedule_setTimer { one with clock := current } named
        (independent request current asked) same rand
      exact scheduled ▸ rel_map fun state _ => .scheduled state first roomy
  | cancel named =>
      obtain rfl := own
      refine call_related rfl ?_
      rw [cancel_withFirst]
      exact .some (.scheduled _ first roomy)
  | restart => exact own.elim
  | stop named =>
      obtain rfl := own
      refine call_related rfl ?_
      rw [stop_withFirst]
      exact rel_map fun state _ => .scheduled state first roomy
  | delete named =>
      obtain rfl := own
      refine call_related rfl ?_
      rw [delete_withFirst]
      exact rel_map fun state _ => .scheduled state first roomy
  | timerTask => exact own.elim
  | deliver => exact own.elim

/-- Twins take the same step and stay twins. -/
theorem Twins.step (twins : Twins pTimer heap one other)
    (room : heap.numberOfTimersBeingManaged ≤ MAX_NUMBER_OF_TIMERS)
    (filled : heap.Filled heap.numberOfTimersBeingManaged) (passed : ¬ heap.Finds pTimer)
    (independent : heap.numberOfTimersBeingManaged < MAX_NUMBER_OF_TIMERS →
      ∀ request current, requests request current → ¬ request.ReadsMember current)
    (own : OwnAction pTimer requests action) :
    Option.Rel (Twins pTimer heap) (one.step (timerPool pShm) action)
      (other.step (timerPool pShm) action) := by
  cases twins with
  | unscheduled timer shared unscheduled same =>
      exact step_unscheduled shared unscheduled same room filled passed independent own
  | scheduled first roomy => exact step_scheduled first roomy (independent roomy) own

end Twins

section Handed

variable {pShm pTimer : UInt64} {system : TimerSystem} {pTimerPool : MemoryPool}

private theorem operatorNew_setTimer (system : TimerSystem) (timer : Timer) :
    (system.setTimer pTimer timer).operatorNew pTimerPool =
      (system.operatorNew pTimerPool).map fun outcome =>
        (outcome.1, outcome.2.setTimer pTimer timer) := by
  unfold operatorNew
  rw [setTimer_pool]
  cases pTimerPool.getFromPool system.pool.area with
  | none => rfl
  | some outcome =>
      obtain ⟨_ | _, area⟩ := outcome <;> rfl

/-- What `operator new` leaves when it hands out a slot. -/
theorem operatorNew_handed
    (handed : (system.operatorNew pTimerPool).map Prod.fst = some (some pTimer)) : ∃ area,
      pTimerPool.getFromPool system.pool.area = some (some pTimer, area) ∧
      system.operatorNew pTimerPool = some (some pTimer,
        { system with
          pool := { area := area, outstanding := insert pTimer system.pool.outstanding }
          ledger := Function.update system.ledger pTimer
            ⟨(system.ledger pTimer).incarnation + 1, false, 0, 0⟩ }) := by
  unfold operatorNew at handed ⊢
  rw [Option.map_map] at handed
  obtain ⟨⟨answer, area⟩, ran, answered⟩ := Option.map_eq_some_iff.mp handed
  cases answer with
  | none => cases answered
  | some object =>
      cases answered
      exact ⟨area, ran, Option.map_eq_some_iff.mpr ⟨_, ran, rfl⟩⟩

private theorem setTimer_self (system : TimerSystem) (pTimer : UInt64) :
    system.setTimer pTimer (system.timers pTimer) = system := by
  unfold setTimer
  rw [Function.update_eq_self]

/-- The system after `new Timer (creatingTId, cbContextTId)` in a slot that contained
`timer`. -/
def newIn (pTimerPool : MemoryPool) (pTimer : UInt64) (tasks : TaskId × TaskId) (timer : Timer)
    (system : TimerSystem) : TimerSystem :=
  ((system.operatorNew pTimerPool).elim system Prod.snd).setTimer pTimer
    (timer.constructFor tasks.1 tasks.2)

/-- The constructor starts from whatever the slot contains. -/
theorem new_setTimer
    (handed : (system.operatorNew pTimerPool).map Prod.fst = some (some pTimer)) (timer : Timer)
    (tasks : TaskId × TaskId) : (system.setTimer pTimer timer).new pTimerPool (some tasks) =
      some (system.newIn pTimerPool pTimer tasks timer) := by
  obtain ⟨area, _, ran⟩ := operatorNew_handed handed
  unfold new newIn
  rw [operatorNew_setTimer, ran]
  simp only [Option.map_some, Option.elim_some, setTimer, Function.update_idem,
    Function.update_self]

private theorem exec_new
    (handed : (system.operatorNew pTimerPool).map Prod.fst = some (some pTimer)) (timer : Timer)
    (tasks : TaskId × TaskId) (following : List Action) :
    exec (step pTimerPool) (system.setTimer pTimer timer) (.new (some tasks) :: following) =
      exec (step pTimerPool) (system.newIn pTimerPool pTimer tasks timer) following := by
  rw [exec_cons, step, new_setTimer handed timer tasks, Option.bind_some]

private theorem newIn_minHeap
    (handed : (system.operatorNew pTimerPool).map Prod.fst = some (some pTimer)) (timer : Timer)
    (tasks : TaskId × TaskId) :
    (system.newIn pTimerPool pTimer tasks timer).minHeap = system.minHeap := by
  obtain ⟨area, _, ran⟩ := operatorNew_handed handed
  rw [newIn, ran]
  rfl

private theorem newIn_outstanding
    (handed : (system.operatorNew pTimerPool).map Prod.fst = some (some pTimer))
    (timer : Timer) (tasks : TaskId × TaskId) :
    (system.newIn pTimerPool pTimer tasks timer).pool.outstanding =
      insert pTimer system.pool.outstanding := by
  obtain ⟨area, _, ran⟩ := operatorNew_handed handed
  rw [newIn, ran]
  rfl

private theorem newIn_live
    (handed : (system.operatorNew pTimerPool).map Prod.fst = some (some pTimer)) (timer : Timer)
    (tasks : TaskId × TaskId) :
    pTimer ∈ (system.newIn pTimerPool pTimer tasks timer).pool.outstanding := by
  rw [newIn_outstanding handed]
  exact Finset.mem_insert_self _ _

private theorem newIn_unscheduled
    (handed : (system.operatorNew pTimerPool).map Prod.fst = some (some pTimer))
    (timer : Timer) (tasks : TaskId × TaskId) :
    ((system.newIn pTimerPool pTimer tasks timer).ledger pTimer).scheduled = false := by
  obtain ⟨area, _, ran⟩ := operatorNew_handed handed
  rw [newIn, ran]
  exact congrArg Ledger.scheduled (Function.update_self pTimer _ system.ledger)

private theorem newIn_timers_self (timer : Timer) (tasks : TaskId × TaskId) :
    (system.newIn pTimerPool pTimer tasks timer).timers pTimer =
      timer.constructFor tasks.1 tasks.2 := Function.update_self _ _ _

/-- Two contents of the slot start a pair of twins. -/
theorem newIn_twins (handed : (system.operatorNew pTimerPool).map Prod.fst = some (some pTimer))
    {one other : Timer} (silent : one.pCb = none) (silentOther : other.pCb = none)
    (tasks : TaskId × TaskId) :
    Twins pTimer system.minHeap (system.newIn pTimerPool pTimer tasks one)
      (system.newIn pTimerPool pTimer tasks other) := by
  have twins := Twins.unscheduled (system.newIn pTimerPool pTimer tasks one)
    (other.constructFor tasks.1 tasks.2) (newIn_minHeap handed one tasks)
    (newIn_unscheduled handed one tasks)
    (by
      rw [newIn_timers_self]
      exact ⟨silentOther.trans silent.symm, rfl, rfl⟩)
  convert twins using 1
  simp only [newIn, setTimer, Function.update_idem]

/-- What scheduling leaves when the heap has room. -/
theorem schedule_armed {arguments : ScheduleArguments} {current rand : UInt64} {timer : Timer}
    (armed : (system.timers pTimer).arm arguments current rand = some timer)
    (roomy : system.minHeap.numberOfTimersBeingManaged < MAX_NUMBER_OF_TIMERS)
    (filled : system.minHeap.Filled system.minHeap.numberOfTimersBeingManaged) : ∃ next,
      system.schedule pTimer arguments current rand = some next ∧
        next.timers pTimer = timer ∧ (next.ledger pTimer).scheduled = true := by
  let written := (system.setTimer pTimer timer).setLedger pTimer
    { system.ledger pTimer with scheduled := true }
  obtain ⟨next, added⟩ := addToHeap_taken written pTimer filled roomy
  refine ⟨next, Option.bind_eq_some_iff.mpr ⟨timer, armed, added⟩, ?_⟩
  obtain ⟨_, heap, _, rfl⟩ := addToHeap_cases added filled
  refine ⟨Function.update_self _ _ _, ?_⟩
  simp only [written, setLedger_ledger, Function.update_self]

/-- A call that takes the firing time from a member takes what the slot contained. -/
theorem schedule_readsMember {request : ScheduleRequest} {current : UInt64}
    (reads : request.ReadsMember current) (system : TimerSystem) (timer : Timer) {value : UInt64}
    (contained : system.timers pTimer = { timer with first := value, whenToFire := value })
    (roomy : system.minHeap.numberOfTimersBeingManaged < MAX_NUMBER_OF_TIMERS)
    (filled : system.minHeap.Filled system.minHeap.numberOfTimersBeingManaged) (rand : UInt64) :
    ∃ next, system.schedule pTimer request.arguments current rand = some next ∧
      (next.timers pTimer).whenToFire = value ∧ (next.ledger pTimer).scheduled = true := by
  have read := Timer.firstWhenToFire_of_readsMember reads timer value rand
  rw [← contained] at read
  obtain ⟨next, ran, held, scheduled⟩ := schedule_armed
    (Option.map_eq_some_iff.mpr ⟨value, read, rfl⟩) roomy filled
  exact ⟨next, ran, held ▸ rfl, scheduled⟩

end Handed

variable {pShm pTimer : UInt64} {system : TimerSystem} {tasks : TaskId × TaskId}
  {requests : ScheduleRequest → UInt64 → Prop}

/-- Constructing a timer keeps the system well formed, whatever a free slot contained. -/
theorem newIn_wellFormed (wellFormed : system.WellFormed pShm)
    (handed : (system.operatorNew (timerPool pShm)).map Prod.fst = some (some pTimer))
    {timer : Timer} (silent : timer.pCb = none) (tasks : TaskId × TaskId) :
    (system.newIn (timerPool pShm) pTimer tasks timer).WellFormed pShm := by
  have contained : (system.setTimer pTimer timer).WellFormed pShm :=
    ⟨wellFormed.pool, wellFormed.managed, wellFormed.silent_update fun _ => silent,
      wellFormed.resolved⟩
  have allocates : step (timerPool pShm) (system.setTimer pTimer timer) (.new (some tasks)) =
      some (system.newIn (timerPool pShm) pTimer tasks timer) := new_setTimer handed timer tasks
  exact contained.step allocates

/-- The slot that is handed out is free. -/
theorem WellFormed.unused (wellFormed : system.WellFormed pShm)
    (handed : (system.operatorNew (timerPool pShm)).map Prod.fst = some (some pTimer)) :
    pTimer ∉ system.pool.outstanding := by
  obtain ⟨area, ran, _⟩ := operatorNew_handed handed
  cases wellFormed.pool.sound.getFromPool ran with
  | granted index _ bound unused => exact unused

/-- Deleting the new timer at once, where the search does not find its address. -/
theorem newIn_givenBack (wellFormed : system.WellFormed pShm)
    (handed : (system.operatorNew (timerPool pShm)).map Prod.fst = some (some pTimer))
    (passed : ¬ system.minHeap.Finds pTimer) (tasks : TaskId × TaskId) : ∃ after,
      exec (step (timerPool pShm)) system [.new (some tasks), .delete pTimer] = some after ∧
        GivenBack pTimer system after := by
  let memory := system.timers pTimer
  let fresh := system.newIn (timerPool pShm) pTimer tasks memory
  have shared : fresh.minHeap = system.minHeap := newIn_minHeap handed memory tasks
  have live : pTimer ∈ fresh.pool.outstanding := newIn_live handed memory tasks
  have unused := wellFormed.unused handed
  have freshly : fresh.WellFormed pShm :=
    newIn_wellFormed wellFormed handed (wellFormed.silent pTimer unused) tasks
  obtain ⟨area, released⟩ := freshly.returns live
  have allocates : step (timerPool pShm) system (.new (some tasks)) = some fresh := by
    have ran := new_setTimer handed memory tasks
    rwa [setTimer_self] at ran
  have deletes : step (timerPool pShm) fresh (.delete pTimer) =
      some (fresh.deleted (timerPool pShm) pTimer fresh.minHeap) := by
    refine (if_pos live).trans ((delete_passed fresh ?_ ?_ ?_ (timerPool pShm)).trans ?_)
    · exact shared ▸ wellFormed.managed.count
    · exact shared ▸ wellFormed.managed.filled
    · exact shared ▸ passed
    · rw [released, Option.map_some]
  have kept := freshly.step deletes
  have returned : (fresh.deleted (timerPool pShm) pTimer fresh.minHeap).pool.outstanding =
      system.pool.outstanding := by
    change fresh.pool.outstanding.erase pTimer = system.pool.outstanding
    rw [newIn_outstanding handed, Finset.erase_insert unused]
  refine ⟨fresh.deleted (timerPool pShm) pTimer fresh.minHeap,
    exec_cons_eq_some.mpr ⟨fresh, allocates, (exec_singleton fresh _).trans deletes⟩,
    ?_, ?_, ?_, ?_⟩
  · rwa [returned]
  · apply UInt32.toNat_inj.mp
    rw [kept.pool.counted, returned, wellFormed.pool.counted]
  · exact congrArg numberOfTimersBeingManaged shared
  · intro index _
    exact congrArg (fun heap => TimerMinHeap.heap heap index) shared

/-- Deleting tells a slot that contained an invalid timer from one that did not, where
the search finds its address. -/
theorem not_startsFresh_of_finds (wellFormed : system.WellFormed pShm)
    (handed : (system.operatorNew (timerPool pShm)).map Prod.fst = some (some pTimer))
    (found : system.minHeap.Finds pTimer) :
    ¬ StartsFresh pShm pTimer tasks requests system := by
  intro starts
  have related := starts.same { Timer.zeroFilled with type := .Invalid } Timer.zeroFilled
    [.delete pTimer] rfl rfl (by
      intro action member
      rw [List.mem_singleton] at member
      exact member ▸ rfl)
  rw [exec_new handed, exec_new handed, exec_singleton, exec_singleton] at related
  let one := system.newIn (timerPool pShm) pTimer tasks { Timer.zeroFilled with type := .Invalid }
  let other := system.newIn (timerPool pShm) pTimer tasks Timer.zeroFilled
  have shared : one.minHeap = system.minHeap := newIn_minHeap handed _ tasks
  have sharedOther : other.minHeap = system.minHeap := newIn_minHeap handed _ tasks
  have quiet : (one.timers pTimer).Quiet := by
    rw [newIn_timers_self]
    exact Or.inl rfl
  have busy : ¬ (other.timers pTimer).Quiet := by
    rw [newIn_timers_self]
    exact show ¬ Timer.zeroFilled.Quiet by decide
  have live : pTimer ∈ one.pool.outstanding := newIn_live handed _ tasks
  have freshly : one.WellFormed pShm := newIn_wellFormed wellFormed handed rfl tasks
  obtain ⟨area, released⟩ := freshly.returns live
  have deletes : step (timerPool pShm) one (.delete pTimer) =
      some (one.deleted (timerPool pShm) pTimer one.minHeap) := by
    refine (if_pos live).trans
      ((delete_unchanged (timerPool pShm) fun busy => absurd quiet busy).trans ?_)
    rw [released, Option.map_some]
  rw [deletes] at related
  generalize ran : step (timerPool pShm) other (.delete pTimer) = outcome at related
  cases related with
  | @some _ after alike =>
      obtain ⟨timer, rfl, _⟩ := alike
      obtain ⟨_, deleted⟩ := Option.ite_none_right_eq_some.mp ran
      obtain ⟨heap, vacated, same⟩ := delete_cases deleted (sharedOther ▸ wellFormed.managed.count)
        (sharedOther ▸ wellFormed.managed.filled)
      have unchanged : one.minHeap = heap := congrArg minHeap same
      rw [sharedOther] at vacated
      cases vacated with
      | quiet quiet => exact busy quiet
      | searched _ removal =>
          exact removal.count_ne found (congrArg numberOfTimersBeingManaged
            (unchanged.symm.trans shared))

/-- A request that reads the member tells what the slot held before. -/
theorem not_startsFresh_of_readsMember {request : ScheduleRequest} {current : UInt64}
    (wellFormed : system.WellFormed pShm)
    (handed : (system.operatorNew (timerPool pShm)).map Prod.fst = some (some pTimer))
    (roomy : system.minHeap.numberOfTimersBeingManaged < MAX_NUMBER_OF_TIMERS)
    (asked : requests request current) (reads : request.ReadsMember current) :
    ¬ StartsFresh pShm pTimer tasks requests system := by
  intro starts
  have related := starts.same { Timer.zeroFilled with first := 0, whenToFire := 0 }
    { Timer.zeroFilled with first := 1, whenToFire := 1 } [.schedule pTimer request current 0]
    rfl rfl (by
      intro action member
      rw [List.mem_singleton] at member
      subst member
      exact ⟨rfl, asked⟩)
  rw [exec_new handed, exec_new handed, exec_singleton, exec_singleton] at related
  have scheduled : ∀ value : UInt64, ∃ next,
      step (timerPool pShm) (system.newIn (timerPool pShm) pTimer tasks
        { Timer.zeroFilled with first := value, whenToFire := value })
          (.schedule pTimer request current 0) = some next ∧
        (next.timers pTimer).whenToFire = value ∧ (next.ledger pTimer).scheduled = true := by
    intro value
    let fresh := system.newIn (timerPool pShm) pTimer tasks
      { Timer.zeroFilled with first := value, whenToFire := value }
    have shared : fresh.minHeap = system.minHeap := newIn_minHeap handed _ tasks
    obtain ⟨next, ran, left⟩ := schedule_readsMember reads { fresh with clock := current }
      (Timer.zeroFilled.constructFor tasks.1 tasks.2) (newIn_timers_self _ tasks)
      (shared ▸ roomy) (shared ▸ wellFormed.managed.filled) 0
    exact ⟨next, (if_pos (newIn_live handed _ tasks)).trans ran, left⟩
  obtain ⟨one, ranOne, first, flagged⟩ := scheduled 0
  obtain ⟨other, ranOther, second, _⟩ := scheduled 1
  rw [ranOne, ranOther] at related
  cases related with
  | some alike =>
      obtain ⟨timer, rfl, same⟩ := alike
      rw [setTimer_timers_self, same flagged] at second
      exact absurd (first.symm.trans second) (by decide)

end TimerSystem

end TimerAndCallback
