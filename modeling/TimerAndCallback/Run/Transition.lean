import TimerAndCallback.Run.Step
import TimerAndCallback.Platform.TimerMinHeapChange

/-! # What a step can do

`Transition` lists every way a step can end, with what it writes. The heap is
described by what insertion and removal do to its contents; stale slots and the
order of the slots are left open. Arguments about runs case on transitions and
never unfold an operation.
-/

namespace TimerAndCallback

namespace Timer

/-- The destructor leaves the heap alone. -/
def Quiet (timer : Timer) : Prop := timer.type = .Invalid ∨ timer.state = .Done

/-- A periodic timer has firings left, by the test `processACallback` makes. -/
def FiresAgain (timer : Timer) : Prop :=
  timer.numberOfTimesFired ≤ timer.howManyTimesToFire ∨ timer.howManyTimesToFire = 0

/-- A delivery triggers the callback and adds the timer to the heap again. -/
def Rearms (timer : Timer) : Prop :=
  timer.pCb.isSome ∧ timer.type = .Periodic ∧ timer.FiresAgain

/-- A delivery triggers the callback and deletes the timer. -/
def Retires (timer : Timer) : Prop :=
  timer.pCb.isSome ∧ (timer.type = .OneShot ∨ timer.type = .Periodic ∧ ¬ timer.FiresAgain)

/-- A timer that is re-armed is not retired. -/
theorem Rearms.not_retires {timer : Timer} (rearms : timer.Rearms) : ¬ timer.Retires := by
  rintro ⟨_, oneShot | ⟨_, exhausted⟩⟩
  · exact TimerType.noConfusion (oneShot.symm.trans rearms.2.1)
  · exact exhausted rearms.2.2

instance (timer : Timer) : Decidable timer.Quiet := by unfold Quiet; infer_instance

instance (timer : Timer) : Decidable timer.FiresAgain := by unfold FiresAgain; infer_instance

instance (timer : Timer) : Decidable timer.Rearms := by unfold Rearms; infer_instance

instance (timer : Timer) : Decidable timer.Retires := by unfold Retires; infer_instance

/-- The members after a new firing time was set and the timer added to the heap. -/
def requeued (timer : Timer) (timeout current : UInt64) : Timer :=
  { timer with
    timeout := timeout
    whenToFire := convertTimerTimeoutToAbsoluteTimeSinceEpoch current timeout
    state := .Active }

/-- The members after a firing. -/
def expired (timer : Timer) : Timer :=
  { timer with numberOfTimesFired := timer.numberOfTimesFired + 1, state := .Done }

/-- The members a constructor leaves on the memory of its slot. -/
def constructed (memory : Timer) (tasks : Option (TaskId × TaskId)) : Timer :=
  match tasks with
  | none => memory.construct
  | some (creatingTId, cbContextTId) => memory.constructFor creatingTId cbContextTId

end Timer

/-- The history of a timer whose callback was triggered. -/
def Ledger.triggered (ledger : Ledger) : Ledger :=
  { ledger with timesTriggered := ledger.timesTriggered + 1 }

namespace TimerSystem

open TimerMinHeap

/-- What destroying a timer does to the heap. -/
inductive Vacated (timer : Timer) (pTimer : UInt64) (before : TimerMinHeap UInt64) :
    TimerMinHeap UInt64 → Prop
  | quiet (quiet : timer.Quiet) : Vacated timer pTimer before before
  | searched {result : Result} {after : TimerMinHeap UInt64} (busy : ¬ timer.Quiet)
      (removal : Removal pTimer before result after) : Vacated timer pTimer before after

/-- What restarting a timer does to the heap. -/
inductive Requeued (timer : Timer) (pTimer : UInt64) (before : TimerMinHeap UInt64) :
    TimerMinHeap UInt64 → Prop
  | moved {result : Result} {middle after : TimerMinHeap UInt64} (active : timer.state = .Active)
      (removal : Removal pTimer before result middle)
      (room : middle.numberOfTimersBeingManaged < MAX_NUMBER_OF_TIMERS)
      (inserted : Inserted pTimer middle after) : Requeued timer pTimer before after
  | added {after : TimerMinHeap UInt64} (inactive : timer.state ≠ .Active)
      (room : before.numberOfTimersBeingManaged < MAX_NUMBER_OF_TIMERS)
      (inserted : Inserted pTimer before after) : Requeued timer pTimer before after

/-- The timer on top is due. -/
structure DueOnTop (system : TimerSystem) (top : UInt64) (current : UInt64) : Prop where
  positive : 0 < system.minHeap.numberOfTimersBeingManaged
  holds : system.minHeap.heap 0 = some top
  due : (system.whenToFire top).toNat ≤ current.toNat

instance (system : TimerSystem) (top current : UInt64) : Decidable (system.DueOnTop top current) :=
  decidable_of_iff (0 < system.minHeap.numberOfTimersBeingManaged ∧
      system.minHeap.heap 0 = some top ∧ (system.whenToFire top).toNat ≤ current.toNat)
    ⟨fun ⟨positive, holds, due⟩ => ⟨positive, holds, due⟩,
      fun ⟨positive, holds, due⟩ => ⟨positive, holds, due⟩⟩

/-- The system after `delete pTimer` left this heap behind. -/
def deleted (pTimerPool : MemoryPool) (system : TimerSystem) (pTimer : UInt64)
    (heap : TimerMinHeap UInt64) : TimerSystem :=
  (({ system with minHeap := heap }).setTimer pTimer
    { system.timers pTimer with pCb := none }).freed pTimer
      ((pTimerPool.removeFromPool system.pool.area pTimer).getD system.pool.area)

@[simp] theorem deleted_timers_self (pTimerPool : MemoryPool) (system : TimerSystem)
    (pTimer : UInt64) (heap : TimerMinHeap UInt64) :
    (system.deleted pTimerPool pTimer heap).timers pTimer =
      { system.timers pTimer with pCb := none } := Function.update_self _ _ _

@[simp] theorem deleted_ledger_self (pTimerPool : MemoryPool) (system : TimerSystem)
    (pTimer : UInt64) (heap : TimerMinHeap UInt64) :
    (system.deleted pTimerPool pTimer heap).ledger pTimer =
      { system.ledger pTimer with incarnation := (system.ledger pTimer).incarnation + 1 } :=
  Function.update_self _ _ _

/-- Every way a step can end. -/
inductive Transition (pTimerPool : MemoryPool) (system : TimerSystem) : Action → TimerSystem → Prop
  | created (tasks : Option (TaskId × TaskId)) (pTimer : UInt64) (pool : MemoryPool.PoolRun)
      (handed : pTimerPool.handedOut system.pool.area = some pTimer)
      (fresh : pTimer ∉ system.pool.outstanding)
      (sound : pool.Invariant pTimerPool)
      (outstanding : pool.outstanding = insert pTimer system.pool.outstanding) :
      Transition pTimerPool system (.new tasks)
        { (system.setTimer pTimer ((system.timers pTimer).constructed tasks)).setLedger pTimer
            ⟨(system.ledger pTimer).incarnation + 1, false, 0, 0⟩ with pool := pool }
  | scheduled (pTimer : UInt64) (request : ScheduleRequest) (current rand : UInt64)
      (timer : Timer) (heap : TimerMinHeap UInt64)
      (live : pTimer ∈ system.pool.outstanding)
      (armed : (system.timers pTimer).arm request.arguments current rand = some timer)
      (room : system.minHeap.numberOfTimersBeingManaged < MAX_NUMBER_OF_TIMERS)
      (inserted : Inserted pTimer system.minHeap heap) :
      Transition pTimerPool system (.schedule pTimer request current rand)
        { (system.setTimer pTimer timer).setLedger pTimer
            { system.ledger pTimer with scheduled := true } with
          minHeap := heap, clock := current }
  | cancelled (pTimer : UInt64) (live : pTimer ∈ system.pool.outstanding) :
      Transition pTimerPool system (.cancel pTimer) (system.cancel pTimer)
  | restarted (pTimer : UInt64) (current : UInt64) (heap : TimerMinHeap UInt64)
      (live : pTimer ∈ system.pool.outstanding)
      (requeued : Requeued (system.timers pTimer) pTimer system.minHeap heap) :
      Transition pTimerPool system (.restart pTimer current)
        { system.setTimer pTimer
            ((system.timers pTimer).requeued (system.timers pTimer).timeout current) with
          minHeap := heap, clock := current }
  | stopped (pTimer : UInt64) (result : Result) (heap : TimerMinHeap UInt64)
      (live : pTimer ∈ system.pool.outstanding)
      (removal : Removal pTimer system.minHeap result heap) :
      Transition pTimerPool system (.stop pTimer)
        { system.setTimerState pTimer .Idle with minHeap := heap }
  | deleted (pTimer : UInt64) (heap : TimerMinHeap UInt64)
      (live : pTimer ∈ system.pool.outstanding)
      (vacated : Vacated (system.timers pTimer) pTimer system.minHeap heap) :
      Transition pTimerPool system (.delete pTimer) (system.deleted pTimerPool pTimer heap)
  | rested (current : UInt64)
      (idle : ∀ top, system.DueOnTop top current → (system.timers top).state = .Done) :
      Transition pTimerPool system (.timerTask current) { system with clock := current }
  | fired (current : UInt64) (top : UInt64) (heap : TimerMinHeap UInt64)
      (onTop : system.DueOnTop top current)
      (active : (system.timers top).state = .Active)
      (count : heap.numberOfTimersBeingManaged + 1 = system.minHeap.numberOfTimersBeingManaged)
      (contents : system.minHeap.contents = some top ::ₘ heap.contents) :
      Transition pTimerPool system (.timerTask current)
        (({ system with minHeap := heap, clock := current }.setTimer top
          (system.timers top).expired).send top
            ⟨.TimerTask, 0, getIndex pTimerPool top⟩ current)
  | revived (current : UInt64) (top : UInt64) (heap : TimerMinHeap UInt64)
      (onTop : system.DueOnTop top current)
      (idle : (system.timers top).state = .Idle)
      (count : heap.numberOfTimersBeingManaged = system.minHeap.numberOfTimersBeingManaged)
      (contents : heap.contents = system.minHeap.contents) :
      Transition pTimerPool system (.timerTask current)
        { system.setTimer top
            ((system.timers top).requeued (system.timers top).timeout current) with
          minHeap := heap, clock := current }
  | ignored (position : Nat) (current : UInt64) (envelope : Envelope)
      (queued : system.messages[position]? = some envelope)
      (stays : ¬ (system.timers envelope.timer).Rearms)
      (remains : ¬ (system.timers envelope.timer).Retires) :
      Transition pTimerPool system (.deliver position current) (system.receive position current)
  | rearmed (position : Nat) (current : UInt64) (envelope : Envelope)
      (heap : TimerMinHeap UInt64)
      (queued : system.messages[position]? = some envelope)
      (live : envelope.timer ∈ system.pool.outstanding)
      (rearms : (system.timers envelope.timer).Rearms)
      (room : system.minHeap.numberOfTimersBeingManaged < MAX_NUMBER_OF_TIMERS)
      (inserted : Inserted envelope.timer system.minHeap heap) :
      Transition pTimerPool system (.deliver position current)
        { ((system.receive position current).setLedger envelope.timer
            (system.ledger envelope.timer).triggered).setTimer envelope.timer
              ((system.timers envelope.timer).requeued (system.timers envelope.timer).timeout
                current) with minHeap := heap }
  | retired (position : Nat) (current : UInt64) (envelope : Envelope)
      (heap : TimerMinHeap UInt64)
      (queued : system.messages[position]? = some envelope)
      (live : envelope.timer ∈ system.pool.outstanding)
      (retires : (system.timers envelope.timer).Retires)
      (vacated : Vacated (system.timers envelope.timer) envelope.timer system.minHeap heap) :
      Transition pTimerPool system (.deliver position current)
        (((system.receive position current).setLedger envelope.timer
          (system.ledger envelope.timer).triggered).deleted pTimerPool envelope.timer heap)

/-- A delivery takes its message out of those in flight. -/
theorem Transition.messages_deliver {pTimerPool : MemoryPool} {system next : TimerSystem}
    {position : Nat} {current : UInt64}
    (transition : Transition pTimerPool system (.deliver position current) next) :
    next.messages = system.messages.eraseIdx position := by
  cases transition <;> rfl

/-- A delivery sets the clock. -/
theorem Transition.clock_deliver {pTimerPool : MemoryPool} {system next : TimerSystem}
    {position : Nat} {current : UInt64}
    (transition : Transition pTimerPool system (.deliver position current) next) :
    next.clock = current := by
  cases transition <;> rfl

/-- A step of the timer task sets the clock. -/
theorem Transition.clock_timerTask {pTimerPool : MemoryPool} {system next : TimerSystem}
    {current : UInt64} (transition : Transition pTimerPool system (.timerTask current) next) :
    next.clock = current := by
  cases transition <;> rfl

/-- An address the timer pool hands out. -/
def IsObject (pShm : UInt64) (pTimer : UInt64) : Prop :=
  ∃ index, (timerPool pShm).IsSlot index pTimer

/-- The heap is within its array and holds addresses the pool hands out. -/
structure Managed (pShm : UInt64) (minheap : TimerMinHeap UInt64) : Prop where
  count : minheap.numberOfTimersBeingManaged ≤ MAX_NUMBER_OF_TIMERS
  filled : minheap.Filled minheap.numberOfTimersBeingManaged
  objects : ∀ pTimer, some pTimer ∈ minheap.contents → IsObject pShm pTimer

/-- What every state of a run satisfies, whatever its clients do. -/
structure WellFormed (pShm : UInt64) (system : TimerSystem) : Prop where
  pool : system.pool.Invariant (timerPool pShm)
  managed : Managed pShm system.minHeap
  /-- The memory of a slot that is not allocated names no callback. -/
  silent : ∀ pTimer, pTimer ∉ system.pool.outstanding → (system.timers pTimer).pCb = none
  resolved : ∀ envelope ∈ system.messages,
    getTimerAtIndex (timerPool pShm) envelope.message.shmIndex = envelope.timer

variable {pShm : UInt64} {system next : TimerSystem} {pTimer : UInt64}

/-- The free list of the timers is mapped. -/
theorem timerPool_serviceable (pShm : UInt64) : (timerPool pShm).Serviceable :=
  MemoryPool.serviceable_of_fits pShm (by decide) (by decide)

/-- The constructor of the pool leaves the area that a run begins with. -/
theorem timerPool_createArea (pShm : UInt64) :
    (timerPool pShm).createArea SharedManagementArea.zeroFilled =
      some (initial (timerPool pShm)).pool.area :=
  (timerPool_serviceable pShm).createArea_eq

/-- The index in a message leads back to the timer that fired. -/
theorem getTimerAtIndex_getIndex (object : IsObject pShm pTimer) :
    getTimerAtIndex (timerPool pShm) (getIndex (timerPool pShm) pTimer) = pTimer := by
  obtain ⟨index, bound, rfl⟩ := object
  have count := (timerPool pShm).maxNumberOfObjects.toNat_lt
  have named : (UInt64.ofNat index).toNat = index := UINT64.toNat_ofNat (by omega)
  unfold getTimerAtIndex getIndex
  rw [(timerPool_serviceable pShm).getIndexFromMemoryLocation_eq (by exact Nat.succ_pos 55)
    (named.symm ▸ bound)]

/-- What `addToHeap` does. -/
theorem addToHeap_cases (ran : system.addToHeap pTimer = some next)
    (filled : system.minHeap.Filled system.minHeap.numberOfTimersBeingManaged) :
    system.minHeap.numberOfTimersBeingManaged < MAX_NUMBER_OF_TIMERS ∧
      ∃ heap, Inserted pTimer system.minHeap heap ∧ next = { system with minHeap := heap } := by
  obtain ⟨⟨result, heap⟩, added, rfl⟩ := Option.map_eq_some_iff.mp ran
  obtain ⟨room, _, inserted⟩ := addToHeap_inserted filled added
  exact ⟨room, heap, inserted, rfl⟩

/-- What `removeFromHeap` does. -/
theorem removeFromHeap_cases (ran : system.removeFromHeap pTimer = some next)
    (room : system.minHeap.numberOfTimersBeingManaged ≤ MAX_NUMBER_OF_TIMERS)
    (filled : system.minHeap.Filled system.minHeap.numberOfTimersBeingManaged) :
    ∃ result heap, Removal pTimer system.minHeap result heap ∧
      next = { system with minHeap := heap } := by
  obtain ⟨⟨result, heap⟩, removed, rfl⟩ := Option.map_eq_some_iff.mp ran
  have removal := removeFromHeap_removal room (by decide) (by decide) filled removed
  exact ⟨result, heap, removal, rfl⟩

/-- What `changeFiringTime` does. -/
theorem changeFiringTime_cases {timeout current : UInt64}
    (ran : system.changeFiringTime pTimer timeout current = some next)
    (filled : system.minHeap.Filled system.minHeap.numberOfTimersBeingManaged) :
    system.minHeap.numberOfTimersBeingManaged < MAX_NUMBER_OF_TIMERS ∧
      ∃ heap, Inserted pTimer system.minHeap heap ∧
        next = { system.setTimer pTimer ((system.timers pTimer).requeued timeout current) with
          minHeap := heap } := by
  unfold changeFiringTime at ran
  exact addToHeap_cases ran filled

/-- What `restart` does. -/
theorem restart_cases {current : UInt64} (ran : system.restart pTimer current = some next)
    (room : system.minHeap.numberOfTimersBeingManaged ≤ MAX_NUMBER_OF_TIMERS)
    (filled : system.minHeap.Filled system.minHeap.numberOfTimersBeingManaged) :
    ∃ heap, Requeued (system.timers pTimer) pTimer system.minHeap heap ∧
      next = { system.setTimer pTimer
        ((system.timers pTimer).requeued (system.timers pTimer).timeout current) with
          minHeap := heap } := by
  obtain ⟨middle, searched, added⟩ := Option.bind_eq_some_iff.mp ran
  dsimp only at added
  split_ifs at searched with active
  · obtain ⟨result, without, removal, rfl⟩ := removeFromHeap_cases searched room filled
    obtain ⟨room, heap, inserted, rfl⟩ := addToHeap_cases added (removal.filled filled)
    refine ⟨heap, .moved active removal room inserted, ?_⟩
    simp only [setTimer, setTimerState, Function.update_idem, Function.update_self, Timer.requeued]
  · cases searched
    obtain ⟨room, heap, inserted, rfl⟩ := addToHeap_cases added filled
    exact ⟨heap, .added active room inserted, rfl⟩

/-- What `delete` does. -/
theorem delete_cases {pTimerPool : MemoryPool}
    (ran : system.delete pTimerPool pTimer = some next)
    (room : system.minHeap.numberOfTimersBeingManaged ≤ MAX_NUMBER_OF_TIMERS)
    (filled : system.minHeap.Filled system.minHeap.numberOfTimersBeingManaged) :
    ∃ heap, Vacated (system.timers pTimer) pTimer system.minHeap heap ∧
      next = system.deleted pTimerPool pTimer heap := by
  obtain ⟨destroyed, ranDestroy, ranDelete⟩ := Option.bind_eq_some_iff.mp ran
  obtain ⟨area, returned, rfl⟩ := Option.map_eq_some_iff.mp ranDelete
  obtain ⟨middle, searched, finished⟩ := Option.bind_eq_some_iff.mp ranDestroy
  cases finished
  split_ifs at searched with quiet
  · cases searched
    refine ⟨system.minHeap, .quiet quiet, ?_⟩
    simp only [deleted, setTimer_pool] at returned ⊢
    rw [returned, Option.getD_some]
  · obtain ⟨result, heap, removal, rfl⟩ := removeFromHeap_cases searched room filled
    refine ⟨heap, .searched quiet removal, ?_⟩
    simp only [deleted, setTimer_pool] at returned ⊢
    rw [returned, Option.getD_some]

/-- Allocation hands out a free slot, constructs in it and starts its history. -/
theorem new_transition {tasks : Option (TaskId × TaskId)}
    (sound : system.pool.Invariant (timerPool pShm))
    (ran : system.new (timerPool pShm) tasks = some next) :
    Transition (timerPool pShm) system (.new tasks) next := by
  unfold new operatorNew at ran
  cases handed : (timerPool pShm).getFromPool system.pool.area with
  | none => simp only [handed, Option.map_none, reduceCtorEq] at ran
  | some outcome =>
      cases sound.sound.getFromPool handed with
      | refused => simp only [handed, Option.map_some, reduceCtorEq] at ran
      | granted index area bound unused =>
          have called : (timerPool pShm).callPool system.pool .getFromPool =
              some ⟨area, insert ((timerPool pShm).getMemoryLocationFromIndex
                (UInt64.ofNat index)) system.pool.outstanding⟩ := by
            simp only [MemoryPool.callPool, handed, Option.map_some]
          simp only [handed, Option.map_some, Option.some.injEq] at ran
          subst ran
          refine .created tasks _ _ ?_ unused
            (sound.getFromPool (timerPool_serviceable pShm).toAddressable called) rfl
          rw [MemoryPool.handedOut, handed, Option.bind_some]

/-- A turn of the timer task, on the timer on top. -/
theorem timerTaskTurn_transition {current : UInt64} (wellFormed : system.WellFormed pShm)
    (ran : { system with clock := current }.timerTaskTurn (timerPool pShm) current = some next) :
    Transition (timerPool pShm) system (.timerTask current) next := by
  unfold timerTaskTurn at ran
  split_ifs at ran with none
  · cases ran
    refine .rested current fun top onTop => ?_
    exact absurd none (Nat.ne_of_gt onTop.positive)
  · obtain ⟨top, holds, turned⟩ := Option.bind_eq_some_iff.mp ran
    dsimp only at holds turned
    have positive := Nat.pos_of_ne_zero none
    split_ifs at turned with due
    · have onTop : system.DueOnTop top current := ⟨positive, holds, uint64LEQ_iff.mp due⟩
      split at turned
      next active =>
        obtain ⟨middle, removed, finished⟩ := Option.bind_eq_some_iff.mp turned
        cases finished
        obtain ⟨result, heap, removal, rfl⟩ :=
          removeFromHeap_cases removed wellFormed.managed.count wellFormed.managed.filled
        obtain ⟨count, contents⟩ := removal.of_top positive holds
        have fires : Transition (timerPool pShm) system (.timerTask current) _ :=
          .fired current top heap onTop active count contents
        convert fires using 1
        simp only [setTimerState, setTimer, Function.update_idem, Function.update_self,
          Timer.expired]
      next idle =>
        obtain ⟨middle, removed, requeued⟩ := Option.bind_eq_some_iff.mp turned
        obtain ⟨result, without, removal, rfl⟩ :=
          removeFromHeap_cases removed wellFormed.managed.count wellFormed.managed.filled
        obtain ⟨count, contents⟩ := removal.of_top positive holds
        obtain ⟨_, heap, inserted, rfl⟩ :=
          changeFiringTime_cases requeued (removal.filled wellFormed.managed.filled)
        exact .revived current top heap onTop idle (inserted.count.trans count)
          (inserted.contents.trans contents.symm)
      next done =>
        cases turned
        refine .rested current fun other other_onTop => ?_
        have same := holds.symm.trans other_onTop.holds
        cases same
        exact done
    · cases turned
      refine .rested current fun other other_onTop => ?_
      have same := holds.symm.trans other_onTop.holds
      cases same
      exact absurd (uint64LEQ_iff.mpr other_onTop.due) due

/-- A delivery, by the timer the message leads to. -/
theorem deliver_transition {position : Nat} {current : UInt64} (wellFormed : system.WellFormed pShm)
    (ran : system.step (timerPool pShm) (.deliver position current) = some next) :
    Transition (timerPool pShm) system (.deliver position current) next := by
  obtain ⟨envelope, queued, delivered⟩ := Option.bind_eq_some_iff.mp ran
  obtain ⟨⟨result, final⟩, processed, rfl⟩ := Option.map_eq_some_iff.mp delivered
  rw [wellFormed.resolved envelope (List.mem_of_getElem? queued)] at processed
  have liveOf : (system.timers envelope.timer).pCb.isSome →
      envelope.timer ∈ system.pool.outstanding := by
    intro callback
    by_contra dead
    rw [wellFormed.silent envelope.timer dead] at callback
    cases callback
  unfold processACallback at processed
  dsimp only [receive] at processed
  split at processed
  next oneShot =>
    split_ifs at processed with callback
    · obtain ⟨triggered, recorded, processed⟩ := Option.bind_eq_some_iff.mp processed
      obtain ⟨after, ranDelete, finished⟩ := Option.bind_eq_some_iff.mp processed
      cases recorded
      cases finished
      obtain ⟨heap, vacated, rfl⟩ := delete_cases ranDelete wellFormed.managed.count
        wellFormed.managed.filled
      exact .retired position current envelope heap queued (liveOf callback)
        ⟨callback, Or.inl oneShot⟩ vacated
    · cases processed
      exact .ignored position current envelope queued (fun rearms => callback rearms.1)
        fun retires => callback retires.1
  next periodic =>
    split_ifs at processed with callback firesAgain
    · obtain ⟨triggered, recorded, processed⟩ := Option.bind_eq_some_iff.mp processed
      obtain ⟨after, handled, finished⟩ := Option.bind_eq_some_iff.mp processed
      cases recorded
      cases finished
      obtain ⟨room, heap, inserted, rfl⟩ := changeFiringTime_cases handled wellFormed.managed.filled
      exact .rearmed position current envelope heap queued (liveOf callback)
        ⟨callback, periodic, firesAgain⟩ room inserted
    · obtain ⟨triggered, recorded, processed⟩ := Option.bind_eq_some_iff.mp processed
      obtain ⟨after, handled, finished⟩ := Option.bind_eq_some_iff.mp processed
      cases recorded
      cases finished
      obtain ⟨heap, vacated, rfl⟩ := delete_cases handled wellFormed.managed.count
        wellFormed.managed.filled
      exact .retired position current envelope heap queued (liveOf callback)
        ⟨callback, Or.inr ⟨periodic, firesAgain⟩⟩ vacated
    · cases processed
      exact .ignored position current envelope queued (fun rearms => callback rearms.1)
        fun retires => callback retires.1
  next invalid =>
    cases processed
    refine .ignored position current envelope queued (fun rearms => ?_) fun retires => ?_
    · exact TimerType.noConfusion (invalid.symm.trans rearms.2.1)
    · rcases retires.2 with oneShot | ⟨periodic, _⟩
      · exact TimerType.noConfusion (invalid.symm.trans oneShot)
      · exact TimerType.noConfusion (invalid.symm.trans periodic)

/-- The inversion of a step. -/
theorem step_transition {action : Action} (wellFormed : system.WellFormed pShm)
    (ran : system.step (timerPool pShm) action = some next) :
    Transition (timerPool pShm) system action next := by
  cases action with
  | new tasks => exact new_transition wellFormed.pool ran
  | schedule pTimer request current rand =>
      obtain ⟨live, called⟩ := Option.ite_none_right_eq_some.mp ran
      obtain ⟨timer, armed, added⟩ := Option.bind_eq_some_iff.mp called
      obtain ⟨room, heap, inserted, rfl⟩ := addToHeap_cases added wellFormed.managed.filled
      exact .scheduled pTimer request current rand timer heap live armed room inserted
  | cancel pTimer =>
      obtain ⟨live, called⟩ := Option.ite_none_right_eq_some.mp ran
      cases called
      exact .cancelled pTimer live
  | restart pTimer current =>
      obtain ⟨live, called⟩ := Option.ite_none_right_eq_some.mp ran
      obtain ⟨heap, requeued, rfl⟩ := restart_cases called wellFormed.managed.count
        wellFormed.managed.filled
      exact .restarted pTimer current heap live requeued
  | stop pTimer =>
      obtain ⟨live, called⟩ := Option.ite_none_right_eq_some.mp ran
      obtain ⟨result, heap, removal, rfl⟩ :=
        removeFromHeap_cases called wellFormed.managed.count wellFormed.managed.filled
      exact .stopped pTimer result heap live removal
  | delete pTimer =>
      obtain ⟨live, called⟩ := Option.ite_none_right_eq_some.mp ran
      obtain ⟨heap, vacated, rfl⟩ := delete_cases called wellFormed.managed.count
        wellFormed.managed.filled
      exact .deleted pTimer heap live vacated
  | timerTask current => exact timerTaskTurn_transition wellFormed ran
  | deliver position current => exact deliver_transition wellFormed ran

end TimerSystem

end TimerAndCallback
