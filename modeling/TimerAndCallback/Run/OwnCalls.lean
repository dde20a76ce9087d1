import TimerAndCallback.Run.Frame
import TimerAndCallback.Platform.TimerMinHeapOccupancy

/-! # The calls a callback makes on its own timer

A callback may stop, cancel or restart the timer that triggered it. Besides the members
of the timer, the calls change what there is of it in the heap. What they may leave is
worked out from the state the delivery starts in and from the calls.
-/

namespace TimerAndCallback

namespace TimerSystem

open TimerMinHeap Execution Outcomes

/-- A call that a callback makes on its own timer, with the clock it reads. -/
inductive OwnCall
  | stop
  | cancel
  | restart (current : UInt64)
  deriving DecidableEq, Repr

/-- The call adds the timer to the heap. -/
def OwnCall.adds : OwnCall → Bool
  | .restart _ => true
  | _ => false

/-- Make one call. -/
def perform (pTimer : UInt64) (system : TimerSystem) : OwnCall → Option TimerSystem
  | .stop => system.stop pTimer
  | .cancel => some (system.cancel pTimer)
  | .restart current => system.restart pTimer current

/-- A callback whose method makes these calls. -/
def triggeredCalling (calls : List OwnCall) (system : TimerSystem) (pTimer : UInt64) :
    Option TimerSystem :=
  exec (perform pTimer) system calls

/-- The state of a timer, and what there is of it in the heap. -/
structure OwnState where
  state : TimerState
  occupancy : Occupancy
  deriving DecidableEq

namespace OwnState

/-- What a call may leave of a timer with this timeout. -/
def outcomes (timeout : UInt64) (own : OwnState) : OwnCall → List (Option OwnState)
  | .stop => own.occupancy.search.map (Option.map (mk .Idle))
  | .cancel => [some ⟨.Idle, own.occupancy⟩]
  | .restart current =>
      let searched :=
        if own.state = .Active then own.occupancy.search else [some own.occupancy]
      let time := (convertTimerTimeoutToAbsoluteTimeSinceEpoch current timeout).toNat
      (andThen searched (Occupancy.add MAX_NUMBER_OF_TIMERS time)).map (Option.map (mk .Active))

/-- What deleting the timer may leave of it. -/
def vacated (own : OwnState) : List (Option OwnState) :=
  (if own.state = .Done then [some own.occupancy] else own.occupancy.search).map
    (Option.map (mk own.state))

/-- What the calls and then deleting the timer may leave of it. -/
def afterCalls (timeout : UInt64) (calls : List OwnCall) (own : OwnState) :
    List (Option OwnState) :=
  andThen (Outcomes.exec (outcomes timeout) own calls) vacated

/-- The state and the calls leave one outcome. -/
def Determined (calls : List OwnCall) (own : OwnState) : Prop :=
  own.occupancy.Determined (calls.countP OwnCall.adds)

/-- A call on a determined timer has one outcome, which is determined for the calls after it. -/
theorem Determined.outcomes {own : OwnState} {call : OwnCall} {calls : List OwnCall}
    (determined : own.Determined (call :: calls)) (timeout : UInt64) :
    Single (Determined calls) (own.outcomes timeout call) := by
  cases call with
  | stop => exact (Occupancy.Determined.search determined).map fun _ kept => kept
  | cancel => exact single_some determined
  | restart current =>
      have pending : own.occupancy.Determined (calls.countP OwnCall.adds + 1) := by
        rw [← List.countP_cons_of_pos (show OwnCall.adds (.restart current) = true from rfl)]
        exact determined
      have searched : Single (Occupancy.Determined (calls.countP OwnCall.adds + 1))
          (if own.state = .Active then own.occupancy.search else [some own.occupancy]) := by
        split_ifs
        · exact pending.search
        · exact single_some pending
      have added := searched.andThen fun _ kept => kept.add MAX_NUMBER_OF_TIMERS
        (convertTimerTimeoutToAbsoluteTimeSinceEpoch current timeout).toNat
      exact added.map fun _ kept => kept

/-- Where no sift has a choice, the calls have one outcome. -/
theorem Determined.exec {own : OwnState} {calls : List OwnCall}
    (determined : own.Determined calls) (timeout : UInt64) :
    Single (Determined []) (Outcomes.exec (OwnState.outcomes timeout) own calls) := by
  induction calls generalizing own with
  | nil => exact single_some determined
  | cons call calls ih => exact (determined.outcomes timeout).andThen fun _ kept => ih kept

/-- The calls on a determined timer have one outcome. -/
theorem Determined.afterCalls {own : OwnState} {calls : List OwnCall}
    (determined : own.Determined calls) (timeout : UInt64) :
    Single (fun _ => True) (own.afterCalls timeout calls) := by
  refine (determined.exec timeout).andThen fun left kept => ?_
  unfold vacated
  split_ifs
  · exact single_some trivial
  · exact (Occupancy.Determined.search kept).map fun _ _ => trivial

end OwnState

/-- The state of the timer, and what there is of it in the heap. -/
def own (system : TimerSystem) (pTimer : UInt64) : OwnState where
  state := (system.timers pTimer).state
  occupancy := system.minHeap.occupancy system.whenToFire pTimer

/-- A periodic timer that its pool takes back, and what there is of it. -/
structure Owned (pTimerPool : MemoryPool) (timeout pTimer : UInt64) (own : OwnState)
    (system : TimerSystem) : Prop where
  periodic : (system.timers pTimer).type = .Periodic
  timeout : (system.timers pTimer).timeout = timeout
  state : (system.timers pTimer).state = own.state
  returns : (pTimerPool.removeFromPool system.pool.area pTimer).isSome
  occupied : Occupied MAX_NUMBER_OF_TIMERS system.whenToFire pTimer own.occupancy system.minHeap

variable {pTimerPool : MemoryPool} {timeout pTimer : UInt64} {own : OwnState}
  {system : TimerSystem}

/-- Alone in the heap, or added to it once at most, the timer leaves no choice to a sift. -/
theorem own_determined {calls : List OwnCall}
    (few : system.minHeap.numberOfTimersBeingManaged = system.occurrences pTimer ∨
      system.occurrences pTimer + calls.countP OwnCall.adds ≤ 1) :
    (system.own pTimer).Determined calls := by
  unfold OwnState.Determined Occupancy.Determined TimerSystem.own occupancy
  unfold occurrences at few
  dsimp only
  rcases few with alone | few
  · exact Or.inl (by omega)
  · by_cases empty : system.minHeap.numberOfTimersBeingManaged = 0
    · exact Or.inl (by omega)
    · refine Or.inr ⟨few, ?_⟩
      rw [or_iff_not_imp_left]
      intro adds
      have absent : some pTimer ∉ system.minHeap.contents := by
        rw [← Multiset.count_eq_zero]
        omega
      rw [if_neg (not_or.mpr ⟨absent, empty⟩)]
      rfl

/-- Writing the timer changes what the others fire at in nothing. -/
theorem whenToFire_setTimer_of_ne {other : UInt64} (different : other ≠ pTimer) (timer : Timer) :
    (system.setTimer pTimer timer).whenToFire other = system.whenToFire other := by
  unfold whenToFire
  rw [setTimer_timers, Function.update_of_ne different]

/-- Writing the timer leaves its entries as they are. -/
theorem Owned.setTimer (owned : Owned pTimerPool timeout pTimer own system) (timer : Timer)
    (periodic : timer.type = .Periodic) (kept : timer.timeout = timeout) :
    Owned pTimerPool timeout pTimer ⟨timer.state, own.occupancy⟩
      (system.setTimer pTimer timer) where
  periodic := by
    rw [setTimer_timers_self]
    exact periodic
  timeout := by
    rw [setTimer_timers_self]
    exact kept
  state := by rw [setTimer_timers_self]
  returns := owned.returns
  occupied := owned.occupied.congr fun other different =>
    (whenToFire_setTimer_of_ne different timer).symm

private theorem Owned.withHeap (owned : Owned pTimerPool timeout pTimer own system)
    {occupancy : Occupancy} {heap : TimerMinHeap UInt64}
    (occupied : Occupied MAX_NUMBER_OF_TIMERS system.whenToFire pTimer occupancy heap) :
    Owned pTimerPool timeout pTimer ⟨own.state, occupancy⟩ { system with minHeap := heap } :=
  ⟨owned.periodic, owned.timeout, owned.state, owned.returns, occupied⟩

/-- The outcomes of a search cover what it leaves of the timer. -/
theorem Owned.search (owned : Owned pTimerPool timeout pTimer own system) :
    Covers (fun occupancy => Owned pTimerPool timeout pTimer ⟨own.state, occupancy⟩)
      own.occupancy.search (system.removeFromHeap pTimer) := by
  have covered := owned.occupied.search (by decide) (by decide) system.whenToFire
  have ran : system.removeFromHeap pTimer =
      ((system.minHeap.removeFromHeap MAX_NUMBER_OF_TIMERS system.whenToFire pTimer).map
        Prod.snd).map fun heap => { system with minHeap := heap } := by
    rw [Option.map_map]
    rfl
  rw [ran]
  exact covered.map_result fun _ _ occupied => owned.withHeap occupied

/-- The outcomes of adding the timer cover the insertion. -/
theorem Owned.add (owned : Owned pTimerPool timeout pTimer own system) :
    Covers (fun occupancy => Owned pTimerPool timeout pTimer ⟨own.state, occupancy⟩)
      (own.occupancy.add MAX_NUMBER_OF_TIMERS (system.whenToFire pTimer).toNat)
      (system.addToHeap pTimer) := by
  have ran : system.addToHeap pTimer =
      ((system.minHeap.addToHeap MAX_NUMBER_OF_TIMERS system.whenToFire pTimer).map
        Prod.snd).map fun heap => { system with minHeap := heap } := by
    rw [Option.map_map]
    rfl
  rw [ran]
  exact owned.occupied.add.map_result fun _ _ occupied => owned.withHeap occupied

/-- A call that idles the timer leaves its entries as they are. -/
theorem Owned.idle (owned : Owned pTimerPool timeout pTimer own system) :
    Owned pTimerPool timeout pTimer ⟨.Idle, own.occupancy⟩ (system.setTimerState pTimer .Idle) :=
  owned.setTimer { system.timers pTimer with state := .Idle } owned.periodic owned.timeout

/-- What a restart makes of the timer, and adding it then. -/
theorem Owned.requeued (owned : Owned pTimerPool timeout pTimer own system) (current : UInt64) :
    Covers (fun occupancy => Owned pTimerPool timeout pTimer ⟨.Active, occupancy⟩)
      (own.occupancy.add MAX_NUMBER_OF_TIMERS
        (convertTimerTimeoutToAbsoluteTimeSinceEpoch current timeout).toNat)
      ((system.setTimer pTimer ((system.timers pTimer).requeued (system.timers pTimer).timeout
        current)).addToHeap pTimer) := by
  have armed := owned.setTimer
    ((system.timers pTimer).requeued (system.timers pTimer).timeout current)
    owned.periodic owned.timeout
  have added := armed.add
  rw [whenToFire, setTimer_timers_self] at added
  rw [← owned.timeout] at added ⊢
  exact added

/-- The outcomes of a restart cover it. -/
theorem Owned.restart (owned : Owned pTimerPool timeout pTimer own system) (current : UInt64) :
    Covers (Owned pTimerPool timeout pTimer) (own.outcomes timeout (.restart current))
      (system.restart pTimer current) := by
  have searched : Covers (fun occupancy next => ∃ state,
      Owned pTimerPool timeout pTimer ⟨state, occupancy⟩ next)
      (if own.state = .Active then own.occupancy.search else [some own.occupancy])
      (if (system.timers pTimer).state = .Active then
        (system.setTimerState pTimer .Idle).removeFromHeap pTimer else some system) := by
    rw [owned.state]
    split_ifs with active
    · exact owned.idle.search.mono fun _ _ left => ⟨.Idle, left⟩
    · exact .of_eq ⟨own.state, owned⟩ (List.mem_singleton.mpr rfl) rfl
  have added : Covers (fun occupancy => Owned pTimerPool timeout pTimer ⟨.Active, occupancy⟩)
      (andThen (if own.state = .Active then own.occupancy.search else [some own.occupancy])
        (Occupancy.add MAX_NUMBER_OF_TIMERS
          (convertTimerTimeoutToAbsoluteTimeSinceEpoch current timeout).toNat))
      (system.restart pTimer current) :=
    searched.andThen fun _ _ ⟨_, left⟩ => left.requeued current
  exact added.map_outcomes fun _ _ left => left

/-- The outcomes of a call cover it. -/
theorem Owned.perform (owned : Owned pTimerPool timeout pTimer own system) (call : OwnCall) :
    Covers (Owned pTimerPool timeout pTimer) (own.outcomes timeout call)
      (system.perform pTimer call) := by
  cases call with
  | stop => exact owned.idle.search.map_outcomes fun _ _ left => left
  | cancel =>
      have cancelled := owned.setTimer { system.timers pTimer with pCb := none, state := .Idle }
        owned.periodic owned.timeout
      exact .of_eq cancelled (List.mem_singleton.mpr rfl) rfl
  | restart current => exact owned.restart current

/-- The outcomes of the calls cover the callback. -/
theorem Owned.triggered (owned : Owned pTimerPool timeout pTimer own system)
    (calls : List OwnCall) :
    Covers (Owned pTimerPool timeout pTimer) (Outcomes.exec (OwnState.outcomes timeout) own calls)
      (triggeredCalling calls system pTimer) :=
  covers_exec (fun _ _ call owned => owned.perform call) owned calls

/-- What a delivery leaves of the timer it deletes. -/
structure Left (pTimer : UInt64) (own : OwnState) (after : TimerSystem) : Prop where
  state : (after.timers pTimer).state = own.state
  count : after.occurrences pTimer = own.occupancy.count

/-- The timer that is out of the way is destroyed and returned to its pool. -/
theorem Owned.returned (owned : Owned pTimerPool timeout pTimer own system) :
    ∃ after, (system.setTimer pTimer { system.timers pTimer with pCb := none }).operatorDelete
        pTimerPool pTimer = some after ∧ Left pTimer own after := by
  obtain ⟨area, accepted⟩ := Option.isSome_iff_exists.mp owned.returns
  refine ⟨_, Option.map_eq_some_iff.mpr ⟨area, accepted, rfl⟩, ?_, owned.occupied.count⟩
  rw [freed_timers, setTimer_timers_self]
  exact owned.state

/-- The outcomes of deleting the timer cover it. -/
theorem Owned.delete (owned : Owned pTimerPool timeout pTimer own system) :
    Covers (Left pTimer) own.vacated (system.delete pTimerPool pTimer) := by
  have quiet_iff : (system.timers pTimer).type = .Invalid ∨ (system.timers pTimer).state = .Done ↔
      own.state = .Done := by
    rw [← owned.state, owned.periodic]
    exact or_iff_right TimerType.noConfusion
  have searched : Covers (fun occupancy => Owned pTimerPool timeout pTimer ⟨own.state, occupancy⟩)
      (if own.state = .Done then [some own.occupancy] else own.occupancy.search)
      (if (system.timers pTimer).type = .Invalid ∨ (system.timers pTimer).state = .Done then
        some system else system.removeFromHeap pTimer) := by
    simp only [quiet_iff]
    split_ifs with done
    · exact .of_eq owned (List.mem_singleton.mpr rfl) rfl
    · exact owned.search
  have deleted : Covers (fun occupancy => Left pTimer ⟨own.state, occupancy⟩)
      (if own.state = .Done then [some own.occupancy] else own.occupancy.search)
      (system.delete pTimerPool pTimer) := by
    rw [TimerSystem.delete, destroy, Option.bind_eq_bind, Option.bind_assoc]
    exact searched.bind_taken fun _ _ left => left.returned
  exact deleted.map_outcomes fun _ _ left => left

/-- The outcomes worked out from the calls cover the callback and the deletion. -/
theorem Owned.afterCalls (owned : Owned pTimerPool timeout pTimer own system)
    (calls : List OwnCall) :
    Covers (Left pTimer) (own.afterCalls timeout calls)
      ((triggeredCalling calls system pTimer).bind fun called => called.delete pTimerPool pTimer) :=
  (owned.triggered calls).andThen fun _ _ left => left.delete

end TimerSystem

end TimerAndCallback
