import TimerAndCallback.Run.OwnCalls
import TimerAndCallback.Run.HeapSafety

/-! # Callbacks that call methods of their own timer

`processACallback` reads the members of a periodic timer, runs the callback, and then
adds the timer to the heap or deletes it, by what it read. The callback may have
stopped, cancelled or restarted the timer in between: the re-arming undoes a stop,
and adds a timer again that the callback restarted. A timer that fired for the last
time is deleted, and the calls hold as far as the search for it succeeds.
-/

namespace TimerAndCallback

namespace TimerSystem

open TimerMinHeap Execution Outcomes

/-- The last of the calls stopped or cancelled the timer. -/
def EndsStopped (calls : List OwnCall) : Prop :=
  calls.getLast? = some .stop ∨ calls.getLast? = some .cancel

instance (calls : List OwnCall) : Decidable (EndsStopped calls) := by
  unfold EndsStopped
  infer_instance

private theorem not_endsStopped_nil : ¬ EndsStopped [] := by
  rintro (stop | cancel)
  · cases stop
  · cases cancel

/-- Calls that do not end by stopping the timer end by restarting it. -/
theorem restarts_of_not_endsStopped {calls : List OwnCall} (nonempty : calls ≠ [])
    (goesOn : ¬ EndsStopped calls) : ∃ front current, calls = front ++ [.restart current] := by
  rcases List.eq_nil_or_concat' calls with rfl | ⟨front, last, rfl⟩
  · exact absurd rfl nonempty
  · unfold EndsStopped at goesOn
    rw [List.getLast?_concat] at goesOn
    cases last with
    | stop => exact absurd (Or.inl rfl) goesOn
    | cancel => exact absurd (Or.inr rfl) goesOn
    | restart current => exact ⟨front, current, rfl⟩

/-- What the calls are to leave when the delivery returns. -/
structure TakenEffect (pTimer : UInt64) (calls : List OwnCall) (after : TimerSystem) : Prop where
  once : after.occurrences pTimer ≤ 1
  stopped : EndsStopped calls →
    after.occurrences pTimer = 0 ∧ (after.timers pTimer).state ≠ .Active

/-- The delivery returns, and the calls of the callback are in effect then. -/
def TakesEffect (pTimerPool : MemoryPool) (pTimer current : UInt64) (calls : List OwnCall)
    (system : TimerSystem) : Prop :=
  ∃ result after,
    system.processACallback pTimerPool (triggeredCalling calls) pTimer current =
        some (result, after) ∧
      TakenEffect pTimer calls after

/-- The outcome is one in which the calls are in effect. -/
def InEffect (calls : List OwnCall) : Option OwnState → Prop
  | none => False
  | some own => own.occupancy.count ≤ 1 ∧
      (EndsStopped calls → own.occupancy.count = 0 ∧ own.state ≠ .Active)

instance (calls : List OwnCall) : ∀ outcome, Decidable (InEffect calls outcome)
  | none => isFalse id
  | some own => inferInstanceAs (Decidable (own.occupancy.count ≤ 1 ∧
      (EndsStopped calls → own.occupancy.count = 0 ∧ own.state ≠ .Active)))

/-- What the calls and the deletion of the timer may leave of it. -/
def deliveryOutcomes (system : TimerSystem) (pTimer : UInt64) (calls : List OwnCall) :
    List (Option OwnState) :=
  (system.own pTimer).afterCalls (system.timers pTimer).timeout calls

/-- A periodic timer with a callback, in a pool that takes it back, and a heap within
its array. -/
structure Deliverable (pTimerPool : MemoryPool) (pTimer : UInt64) (system : TimerSystem) :
    Prop where
  periodic : (system.timers pTimer).type = .Periodic
  callback : (system.timers pTimer).pCb.isSome
  returns : (pTimerPool.removeFromPool system.pool.area pTimer).isSome
  room : system.minHeap.numberOfTimersBeingManaged ≤ MAX_NUMBER_OF_TIMERS
  filled : system.minHeap.Filled system.minHeap.numberOfTimersBeingManaged

variable {pShm pTimer current timeout : UInt64} {system called after : TimerSystem}
  {calls : List OwnCall} {pTimerPool : MemoryPool} {own : OwnState}

/-- In every state of a run, a periodic timer with a callback can be delivered. -/
theorem WellFormed.deliverable (wellFormed : system.WellFormed pShm)
    (periodic : (system.timers pTimer).type = .Periodic)
    (callback : (system.timers pTimer).pCb.isSome) :
    system.Deliverable (timerPool pShm) pTimer where
  periodic := periodic
  callback := callback
  returns := by
    have live : pTimer ∈ system.pool.outstanding := by
      by_contra dead
      rw [wellFormed.silent pTimer dead] at callback
      cases callback
    exact Option.isSome_iff_exists.mpr (wellFormed.returns live)
  room := wellFormed.managed.count
  filled := wellFormed.managed.filled

/-- A delivery finds its timer owned by the delivery. -/
theorem Deliverable.owned (deliverable : system.Deliverable pTimerPool pTimer) :
    Owned pTimerPool (system.timers pTimer).timeout pTimer (system.own pTimer) system where
  periodic := deliverable.periodic
  timeout := rfl
  state := rfl
  returns := deliverable.returns
  occupied := occupied deliverable.room deliverable.filled

/-- What a delivery does after the callback made its calls. -/
theorem Deliverable.processACallback_eq (deliverable : system.Deliverable pTimerPool pTimer) :
    system.processACallback pTimerPool (triggeredCalling calls) pTimer current =
      ((triggeredCalling calls system pTimer).bind fun called =>
        if (system.timers pTimer).FiresAgain then
          called.changeFiringTime pTimer (system.timers pTimer).timeout current
        else called.delete pTimerPool pTimer).map fun after => (.OK, after) := by
  unfold processACallback
  simp only [deliverable.periodic, deliverable.callback, if_true, Option.bind_eq_bind]
  rw [Option.map_eq_bind, Option.bind_assoc]
  rfl

/-- The state a callback leaves is one of the outcomes. -/
theorem Owned.leaves (owned : Owned pTimerPool timeout pTimer own system)
    (ran : triggeredCalling calls system pTimer = some called) :
    ∃ left, Owned pTimerPool timeout pTimer left called := by
  obtain ⟨left, _, described⟩ := (owned.triggered calls).described ran
  exact ⟨left, described⟩

/-- A callback that ends by restarting its timer leaves it in the heap. -/
theorem Owned.queued (owned : Owned pTimerPool timeout pTimer own system)
    {front : List OwnCall} {last : UInt64}
    (ran : triggeredCalling (front ++ [.restart last]) system pTimer = some called) :
    0 < called.occurrences pTimer := by
  obtain ⟨middle, before, taken⟩ := exec_append_eq_some.mp ran
  rw [exec_singleton] at taken
  obtain ⟨left, described⟩ := owned.leaves before
  obtain ⟨heap, requeued, rfl⟩ :=
    restart_cases taken described.occupied.room described.occupied.filled
  exact occurrences_pos_iff.mpr requeued.mem

/-- A timer that fires again is added to the heap whatever the callback did: the calls
are in effect only if there are none, and the timer was not in the heap. -/
theorem Deliverable.takesEffect_again_iff (deliverable : system.Deliverable pTimerPool pTimer)
    (again : (system.timers pTimer).FiresAgain) :
    TakesEffect pTimerPool pTimer current calls system ↔
      calls = [] ∧ system.occurrences pTimer = 0 ∧
        system.minHeap.numberOfTimersBeingManaged < MAX_NUMBER_OF_TIMERS := by
  unfold TakesEffect
  simp only [deliverable.processACallback_eq, if_pos again]
  constructor
  · rintro ⟨result, after, returned, effect⟩
    obtain ⟨_, handled, same⟩ := Option.map_eq_some_iff.mp returned
    cases same
    obtain ⟨called, ran, added⟩ := Option.bind_eq_some_iff.mp handled
    obtain ⟨left, described⟩ := deliverable.owned.leaves ran
    obtain ⟨room, heap, inserted, rfl⟩ := changeFiringTime_cases added described.occupied.filled
    have once := effect.once
    have counted := inserted.occurrences_self
    have nothing : calls = [] := by
      by_contra nonempty
      by_cases ends : EndsStopped calls
      · refine (effect.stopped ends).2 ?_
        simp only [setTimer_timers_self, Timer.requeued]
      · obtain ⟨front, last, rfl⟩ := restarts_of_not_endsStopped nonempty ends
        have queued := deliverable.owned.queued ran
        unfold occurrences at once queued
        dsimp only at once
        omega
    subst nothing
    cases ran
    refine ⟨rfl, ?_, room⟩
    unfold occurrences at once ⊢
    dsimp only at once
    omega
  · rintro ⟨rfl, absent, room⟩
    obtain ⟨next, added⟩ := addToHeap_taken
      (system.setTimer pTimer
        ((system.timers pTimer).requeued (system.timers pTimer).timeout current)) pTimer
      deliverable.filled room
    obtain ⟨_, heap, inserted, left⟩ := addToHeap_cases added deliverable.filled
    refine ⟨.OK, next, Option.map_eq_some_iff.mpr ⟨next, added, rfl⟩, ?_, ?_⟩
    · rw [left]
      exact (inserted.once absent).le
    · exact fun ends => absurd ends not_endsStopped_nil

/-- The calls are in effect where they are so in the outcome that describes the result. -/
theorem takenEffect_iff_inEffect (calls : List OwnCall) {outcome : Option OwnState}
    {result : Option TimerSystem} (related : Option.Rel (Left pTimer) outcome result) :
    (∃ after, result = some after ∧ TakenEffect pTimer calls after) ↔ InEffect calls outcome := by
  cases related with
  | none =>
      refine iff_of_false ?_ id
      rintro ⟨_, absent, _⟩
      cases absent
  | @some own after left =>
      dsimp only [InEffect]
      rw [← left.count, ← left.state]
      constructor
      · rintro ⟨_, same, effect⟩
        cases same
        exact ⟨effect.once, effect.stopped⟩
      · rintro ⟨once, stopped⟩
        exact ⟨after, rfl, once, stopped⟩

/-- The delivery of a timer that fired for the last time deletes it: the calls are in
effect if they are in every outcome, and only if they are in one. -/
theorem Deliverable.takesEffect_exhausted (deliverable : system.Deliverable pTimerPool pTimer)
    (exhausted : ¬ (system.timers pTimer).FiresAgain) :
    ((∀ outcome ∈ system.deliveryOutcomes pTimer calls, InEffect calls outcome) →
        TakesEffect pTimerPool pTimer current calls system) ∧
      (TakesEffect pTimerPool pTimer current calls system →
        ∃ outcome ∈ system.deliveryOutcomes pTimer calls, InEffect calls outcome) := by
  have taken_iff : TakesEffect pTimerPool pTimer current calls system ↔
      ∃ after, ((triggeredCalling calls system pTimer).bind fun called =>
        called.delete pTimerPool pTimer) = some after ∧ TakenEffect pTimer calls after := by
    unfold TakesEffect
    simp only [deliverable.processACallback_eq, if_neg exhausted, Option.map_eq_some_iff,
      Prod.mk.injEq]
    constructor
    · rintro ⟨_, _, ⟨after, ran, _, rfl⟩, effect⟩
      exact ⟨after, ran, effect⟩
    · rintro ⟨after, ran, effect⟩
      exact ⟨.OK, after, ⟨after, ran, rfl, rfl⟩, effect⟩
  have decided := (deliverable.owned.afterCalls calls).decides fun _ _ related =>
    takenEffect_iff_inEffect calls related
  rw [taken_iff]
  exact decided

/-- A run that is seen to end in a state with a property reaches such a state. -/
private theorem exists_reached_of_exec {actions : List Action} {holds : TimerSystem → Prop}
    [DecidablePred holds]
    (ran : (exec (step (timerPool 0)) (initial (timerPool 0)) actions).map
      (fun system => decide (holds system)) = some true) :
    ∃ system, Reached 0 system ∧ holds system := by
  obtain ⟨system, executed, seen⟩ := Option.map_eq_some_iff.mp ran
  exact ⟨system, ⟨actions, executed⟩, of_decide_eq_true seen⟩

end TimerSystem

end TimerAndCallback
