import TimerAndCallback.Run.HeapRepresentation

/-! # Steps stay inside the heap's array

Where the entries of the heap are distinct and allocated, a timer that is not among
them finds room, and every step that its caller may take is taken.
-/

namespace TimerAndCallback

namespace TimerSystem

open TimerMinHeap Execution

variable {pShm pTimer : UInt64} {system next : TimerSystem} {action : Action}

/-- The pool hands out no more objects than the heap has slots. -/
theorem WellFormed.outstanding_card_le (wellFormed : system.WellFormed pShm) :
    system.pool.outstanding.card ≤ MAX_NUMBER_OF_TIMERS := by
  obtain ⟨visited, _, total⟩ := wellFormed.pool.sound
  have size : (timerPool pShm).maxNumberOfObjects.toNat = MAX_NUMBER_OF_TIMERS := rfl
  rw [← wellFormed.pool.counted]
  omega

/-- What is left of the heap has room for an allocated timer that is not in it. -/
theorem Represented.room (represented : system.Represented) (wellFormed : system.WellFormed pShm)
    {heap : TimerMinHeap UInt64} (within : heap.contents ≤ system.minHeap.contents)
    (live : pTimer ∈ system.pool.outstanding) (outside : some pTimer ∉ heap.contents) :
    heap.numberOfTimersBeingManaged < MAX_NUMBER_OF_TIMERS := by
  let slots : Finset (Option UInt64) :=
    ⟨heap.contents, Multiset.nodup_of_le within represented.distinct⟩
  have size : slots.card = heap.numberOfTimersBeingManaged := card_contents heap
  have allocated : insert (some pTimer) slots ⊆
      system.pool.outstanding.map Function.Embedding.some := by
    intro entry member
    rw [Finset.mem_map]
    rcases Finset.mem_insert.mp member with rfl | inside
    · exact ⟨pTimer, live, rfl⟩
    · have held : entry ∈ system.minHeap.contents := Multiset.mem_of_le within inside
      cases entry with
      | none => exact absurd held (filled_iff.mp wellFormed.managed.filled)
      | some other => exact ⟨other, represented.allocated other held, rfl⟩
  have fewer := Finset.card_le_card allocated
  rw [Finset.card_insert_of_notMem outside, Finset.card_map, size] at fewer
  exact fewer.trans wellFormed.outstanding_card_le

section Operations

/-- `addToHeap` returns while the heap has room. -/
theorem addToHeap_taken (system : TimerSystem) (pTimer : UInt64)
    (filled : system.minHeap.Filled system.minHeap.numberOfTimersBeingManaged)
    (room : system.minHeap.numberOfTimersBeingManaged < MAX_NUMBER_OF_TIMERS) :
    ∃ next, system.addToHeap pTimer = some next := by
  obtain ⟨sifted, added, _⟩ := addToHeap_eq system.whenToFire room filled pTimer
  exact ⟨_, Option.map_eq_some_iff.mpr ⟨_, added, rfl⟩⟩

/-- A schedule call that finds room and works out a firing time is taken. -/
theorem schedule_taken (wellFormed : system.WellFormed pShm)
    (live : pTimer ∈ system.pool.outstanding) {request : ScheduleRequest} {current rand : UInt64}
    {timer : Timer} (armed : (system.timers pTimer).arm request.arguments current rand = some timer)
    (room : system.minHeap.numberOfTimersBeingManaged < MAX_NUMBER_OF_TIMERS) :
    ∃ heap, Inserted pTimer system.minHeap heap ∧
      system.step (timerPool pShm) (.schedule pTimer request current rand) =
        some { (system.setTimer pTimer timer).setLedger pTimer
            { system.ledger pTimer with scheduled := true } with
          minHeap := heap, clock := current } := by
  obtain ⟨next, added⟩ := addToHeap_taken
    ((({ system with clock := current }).setTimer pTimer timer).setLedger pTimer
      { system.ledger pTimer with scheduled := true }) pTimer wellFormed.managed.filled room
  have ran : system.step (timerPool pShm) (.schedule pTimer request current rand) = some next :=
    Option.ite_none_right_eq_some.mpr
      ⟨live, Option.bind_eq_some_iff.mpr ⟨timer, armed, added⟩⟩
  cases step_transition wellFormed ran with
  | scheduled _ _ _ _ other heap _ rearmed _ inserted =>
      cases armed.symm.trans rearmed
      exact ⟨heap, inserted, ran⟩

private theorem removeFromHeap_taken (system : TimerSystem) (pTimer : UInt64)
    (managed : Managed pShm system.minHeap)
    (inside : system.minHeap.numberOfTimersBeingManaged = 0 →
      ∀ index < 3, system.minHeap.heap index ≠ some pTimer) :
    ∃ next, system.removeFromHeap pTimer = some next := by
  obtain ⟨outcome, removed⟩ := Option.isSome_iff_exists.mp
    ((removeFromHeap_isSome system.whenToFire managed.count (by decide) (by decide)
      managed.filled).mpr inside)
  exact ⟨_, Option.map_eq_some_iff.mpr ⟨outcome, removed, rfl⟩⟩

private theorem delete_taken (system : TimerSystem) (pTimer : UInt64)
    (wellFormed : system.WellFormed pShm)
    (live : pTimer ∈ system.pool.outstanding)
    (inside : ¬ (system.timers pTimer).Quiet → system.minHeap.numberOfTimersBeingManaged = 0 →
      ∀ index < 3, system.minHeap.heap index ≠ some pTimer) :
    ∃ next, system.delete (timerPool pShm) pTimer = some next := by
  have searched : ∃ middle, (if (system.timers pTimer).type = .Invalid ∨
      (system.timers pTimer).state = .Done then some system
      else system.removeFromHeap pTimer) = some middle ∧ middle.pool = system.pool := by
    split_ifs with quiet
    · exact ⟨system, rfl, rfl⟩
    · obtain ⟨middle, removed⟩ :=
        removeFromHeap_taken system pTimer wellFormed.managed (inside quiet)
      obtain ⟨_, heap, _, rfl⟩ :=
        removeFromHeap_cases removed wellFormed.managed.count wellFormed.managed.filled
      exact ⟨_, removed, rfl⟩
  obtain ⟨middle, searched, same⟩ := searched
  obtain ⟨area, returned⟩ := wellFormed.returns live
  have destroyed : system.destroy pTimer =
      some (middle.setTimer pTimer { middle.timers pTimer with pCb := none }) :=
    Option.bind_eq_some_iff.mpr ⟨middle, searched, rfl⟩
  rw [← same] at returned
  exact ⟨_, Option.bind_eq_some_iff.mpr
    ⟨_, destroyed, Option.map_eq_some_iff.mpr ⟨area, returned, rfl⟩⟩⟩

private theorem restart_taken (system : TimerSystem) (pTimer current : UInt64)
    (wellFormed : system.WellFormed pShm)
    (represented : system.Represented) (live : pTimer ∈ system.pool.outstanding)
    (movable : some pTimer ∈ system.minHeap.contents →
      (system.timers pTimer).state = .Active ∧ ¬ system.minHeap.Misses pTimer)
    (inside : (system.timers pTimer).state = .Active →
      system.minHeap.numberOfTimersBeingManaged = 0 →
      ∀ index < 3, system.minHeap.heap index ≠ some pTimer) :
    ∃ next, system.restart pTimer current = some next := by
  unfold restart
  by_cases active : (system.timers pTimer).state = .Active
  · obtain ⟨middle, removed⟩ := removeFromHeap_taken (system.setTimerState pTimer .Idle) pTimer
      wellFormed.managed (inside active)
    obtain ⟨result, heap, removal, rfl⟩ :=
      removeFromHeap_cases removed wellFormed.managed.count wellFormed.managed.filled
    have outside := (represented.fits pTimer).absent removal fun member => (movable member).2
    have room := represented.room wellFormed removal.contents_le live
      (Multiset.count_eq_zero.mp outside)
    rw [if_pos active, removed, Option.bind_eq_bind, Option.bind_some]
    exact addToHeap_taken _ pTimer (removal.filled wellFormed.managed.filled) room
  · have room := represented.room wellFormed le_rfl live fun member => active (movable member).1
    rw [if_neg active, Option.bind_eq_bind, Option.bind_some]
    exact addToHeap_taken _ pTimer wellFormed.managed.filled room

/-- A turn of the timer task finds its timer on top, and has room to add it again. -/
theorem timerTaskTurn_taken (system : TimerSystem) (current : UInt64)
    (managed : Managed pShm system.minHeap) :
    ∃ next, system.timerTaskTurn (timerPool pShm) current = some next := by
  unfold timerTaskTurn
  split_ifs with empty
  · exact ⟨system, rfl⟩
  · have positive := Nat.pos_of_ne_zero empty
    obtain ⟨top, holds⟩ := Option.isSome_iff_exists.mp (managed.filled 0 positive)
    rw [holds, Option.bind_eq_bind, Option.bind_some]
    dsimp only
    split_ifs with due
    · split
      next active =>
        obtain ⟨middle, removed⟩ := removeFromHeap_taken
          (system.setTimer top { system.timers top with
            numberOfTimesFired := (system.timers top).numberOfTimesFired + 1 }) top managed
          fun none => absurd none empty
        exact ⟨_, Option.bind_eq_some_iff.mpr ⟨middle, removed, rfl⟩⟩
      next idle =>
        obtain ⟨middle, removed⟩ := removeFromHeap_taken system top managed
          fun none => absurd none empty
        obtain ⟨result, heap, removal, rfl⟩ :=
          removeFromHeap_cases removed managed.count managed.filled
        have count := (removal.of_top positive holds).1
        have room : heap.numberOfTimersBeingManaged < MAX_NUMBER_OF_TIMERS := by
          have bounded := managed.count
          omega
        rw [removed, Option.bind_eq_bind, Option.bind_some]
        exact addToHeap_taken _ top (removal.filled managed.filled) room
      next done => exact ⟨system, rfl⟩
    · exact ⟨system, rfl⟩

/-- A delivery finds its timer, and adds it to the heap or deletes it. -/
theorem processACallback_taken (system : TimerSystem) (pTimer current : UInt64)
    (wellFormed : system.WellFormed pShm)
    (room : (system.timers pTimer).Rearms →
      system.minHeap.numberOfTimersBeingManaged < MAX_NUMBER_OF_TIMERS)
    (inside : (system.timers pTimer).Retires → ¬ (system.timers pTimer).Quiet →
      system.minHeap.numberOfTimersBeingManaged = 0 →
      ∀ index < 3, system.minHeap.heap index ≠ some pTimer) :
    ∃ outcome, system.processACallback (timerPool pShm) recordTriggered pTimer current =
      some outcome := by
  have marked : (system.setLedger pTimer (system.ledger pTimer).triggered).WellFormed pShm :=
    ⟨wellFormed.pool, wellFormed.managed, wellFormed.silent, wellFormed.resolved⟩
  have live : (system.timers pTimer).pCb.isSome → pTimer ∈ system.pool.outstanding := by
    intro callback
    by_contra dead
    rw [wellFormed.silent pTimer dead] at callback
    cases callback
  unfold processACallback
  dsimp only
  split
  next oneShot =>
    split_ifs with callback
    · obtain ⟨after, ranDelete⟩ := delete_taken
        (system.setLedger pTimer (system.ledger pTimer).triggered) pTimer marked (live callback)
        (inside ⟨callback, Or.inl oneShot⟩)
      refine ⟨(.OK, after), Option.bind_eq_some_iff.mpr ⟨_, rfl, ?_⟩⟩
      exact Option.bind_eq_some_iff.mpr ⟨after, ranDelete, rfl⟩
    · exact ⟨_, rfl⟩
  next periodic =>
    split_ifs with callback firesAgain
    · obtain ⟨after, added⟩ := addToHeap_taken
        ((system.setLedger pTimer (system.ledger pTimer).triggered).setTimer pTimer
          ((system.timers pTimer).requeued (system.timers pTimer).timeout current)) pTimer
        wellFormed.managed.filled (room ⟨callback, periodic, firesAgain⟩)
      refine ⟨(.OK, after), Option.bind_eq_some_iff.mpr ⟨_, rfl, ?_⟩⟩
      exact Option.bind_eq_some_iff.mpr ⟨after, added, rfl⟩
    · obtain ⟨after, ranDelete⟩ := delete_taken
        (system.setLedger pTimer (system.ledger pTimer).triggered) pTimer marked (live callback)
        (inside ⟨callback, Or.inr ⟨periodic, firesAgain⟩⟩)
      refine ⟨(.OK, after), Option.bind_eq_some_iff.mpr ⟨_, rfl, ?_⟩⟩
      exact Option.bind_eq_some_iff.mpr ⟨after, ranDelete, rfl⟩
    · exact ⟨_, rfl⟩
  next invalid => exact ⟨_, rfl⟩

end Operations

/-- An allocation that is enabled is taken. -/
theorem new_taken (wellFormed : system.WellFormed pShm)
    (free : system.pool.area.numberAllocated ≠ (timerPool pShm).maxNumberOfObjects)
    (tasks : Option (TaskId × TaskId)) : ∃ next, system.new (timerPool pShm) tasks = some next := by
  obtain ⟨outcome, handed⟩ :=
    wellFormed.pool.sound.getFromPool_returns (timerPool_serviceable pShm)
  cases wellFormed.pool.sound.getFromPool handed with
  | refused _ full => exact absurd full free
  | granted =>
      simp only [new, operatorNew, handed, Option.map_some]
      exact ⟨_, rfl⟩

/-- Every enabled step that keeps the heap is taken. -/
theorem step_taken (wellFormed : system.WellFormed pShm) (represented : system.Represented)
    (enabled : system.Enabled (timerPool pShm) action) (keeps : system.KeepsDistinct action)
    (inside : system.SearchesInside action) :
    ∃ next, system.step (timerPool pShm) action = some next := by
  have called : ∀ {pTimer : UInt64} {method : Option TimerSystem},
      pTimer ∈ system.pool.outstanding → (∃ next, method = some next) →
      ∃ next, system.call pTimer method = some next :=
    fun live taken => taken.imp fun _ ran => Option.ite_none_right_eq_some.mpr ⟨live, ran⟩
  cases action with
  | new tasks => exact new_taken wellFormed enabled tasks
  | schedule pTimer request current rand =>
      obtain ⟨live, armable⟩ := enabled
      obtain ⟨timer, armed⟩ := Option.isSome_iff_exists.mp armable
      obtain ⟨heap, _, ran⟩ := schedule_taken wellFormed live armed
        (represented.room wellFormed le_rfl live keeps)
      exact ⟨_, ran⟩
  | cancel pTimer => exact called enabled ⟨_, rfl⟩
  | restart pTimer current =>
      have clocked : ({ system with clock := current } : TimerSystem).WellFormed pShm :=
        ⟨wellFormed.pool, wellFormed.managed, wellFormed.silent, wellFormed.resolved⟩
      have same : ({ system with clock := current } : TimerSystem).Represented :=
        ⟨represented.bounded, represented.distinct, represented.allocated, represented.pending⟩
      exact called enabled (restart_taken _ pTimer current clocked same enabled keeps
        fun active => inside pTimer (Option.mem_def.mpr (if_pos active)))
  | stop pTimer =>
      exact called enabled (removeFromHeap_taken (system.setTimerState pTimer .Idle) pTimer
        wellFormed.managed (inside pTimer rfl))
  | delete pTimer =>
      exact called enabled (delete_taken system pTimer wellFormed enabled
        fun busy => inside pTimer (Option.mem_def.mpr (if_neg busy)))
  | timerTask current =>
      exact timerTaskTurn_taken { system with clock := current } current wellFormed.managed
  | deliver position current =>
      have queued := List.getElem?_eq_getElem enabled
      have resolved := wellFormed.resolved _ (List.getElem_mem enabled)
      have keep := keeps _ queued
      obtain ⟨outcome, processed⟩ := processACallback_taken (system.receive position current)
        (system.messages[position]).timer current
        ⟨wellFormed.pool, wellFormed.managed, wellFormed.silent,
          fun other member => wellFormed.resolved other (List.mem_of_mem_eraseIdx member)⟩
        (fun rearms => by
          have live : (system.messages[position]).timer ∈ system.pool.outstanding := by
            by_contra dead
            have callback := rearms.1
            rw [receive_timers, wellFormed.silent _ dead] at callback
            exact Bool.false_ne_true callback
          exact represented.room wellFormed le_rfl live (keep.1 rearms))
        fun retires busy => inside _ (Option.bind_eq_some_iff.mpr
          ⟨_, queued, if_pos ⟨retires, busy⟩⟩)
      rw [← resolved] at processed
      exact ⟨outcome.2, Option.bind_eq_some_iff.mpr ⟨_, queued, by rw [processed]; rfl⟩⟩

private theorem initial_represented (pShm : UInt64) : (initial (timerPool pShm)).Represented where
  bounded := Nat.zero_le _
  distinct := Multiset.nodup_zero
  allocated _ member := absurd member (Multiset.notMem_zero _)
  pending _ member := absurd member (Multiset.notMem_zero _)

/-- Every step that keeps the entries distinct keeps the timers represented. -/
theorem Transition.represented (transition : Transition (timerPool pShm) system action next)
    (wellFormed : system.WellFormed pShm) (represented : system.Represented)
    (keeps : system.KeepsDistinct action) : next.Represented :=
  (transition.wellFormed wellFormed).represented fun pTimer =>
    transition.fits (represented.fits pTimer) keeps

/-- In every run of enabled steps, no step goes outside the heap's array and the
entries of the heap are always distinct, allocated and not done, exactly when every
step keeps the entries distinct and searches inside the array. -/
theorem represented_iff {actions : List Action}
    (enabled : Along (step (timerPool pShm)) (Enabled (timerPool pShm))
      (initial (timerPool pShm)) actions) :
    (∃ final, exec (step (timerPool pShm)) (initial (timerPool pShm)) actions = some final) ∧
        Always (step (timerPool pShm)) Represented (initial (timerPool pShm)) actions ↔
      Along (step (timerPool pShm))
        (fun state action => state.KeepsDistinct action ∧ state.SearchesInside action)
        (initial (timerPool pShm)) actions := by
  have start := And.intro (initial_wellFormed pShm) (initial_represented pShm)
  have exactly : ∀ final,
      exec (step (timerPool pShm)) (initial (timerPool pShm)) actions = some final →
      (Always (step (timerPool pShm)) Represented (initial (timerPool pShm)) actions ↔
        Along (step (timerPool pShm))
          (fun state action => state.KeepsDistinct action ∧ state.SearchesInside action)
          (initial (timerPool pShm)) actions) := by
    intro final executed
    refine always_iff_along _ (fun state => state.WellFormed pShm ∧ state.Represented)
      (fun _ holds => holds.2) ?_ start enabled executed
    rintro state action next ⟨wellFormed, represented⟩ _ taken
    have transition := step_transition wellFormed taken
    refine ⟨fun admitted => ⟨transition.wellFormed wellFormed, ?_⟩, fun kept => ⟨?_, ?_⟩⟩
    · exact transition.represented wellFormed represented admitted.1
    · exact transition.keepsDistinct represented kept
    · exact transition.searchesInside
  constructor
  · rintro ⟨⟨final, executed⟩, always⟩
    exact (exactly final executed).mp always
  · intro along
    have taken : ∀ (state : TimerSystem) (action : Action),
        state.WellFormed pShm ∧ state.Represented →
        state.Enabled (timerPool pShm) action ∧
          (state.KeepsDistinct action ∧ state.SearchesInside action) →
        ∃ next, state.step (timerPool pShm) action = some next ∧
          (next.WellFormed pShm ∧ next.Represented) := by
      rintro state action ⟨wellFormed, represented⟩ ⟨able, keeps, inside⟩
      obtain ⟨next, stepped⟩ := step_taken wellFormed represented able keeps inside
      have transition := step_transition wellFormed stepped
      exact ⟨next, stepped, transition.wellFormed wellFormed,
        transition.represented wellFormed represented keeps⟩
    obtain ⟨final, executed, _⟩ := exec_progress taken start (enabled.and along)
    exact ⟨⟨final, executed⟩, (exactly final executed).mpr along⟩

/-- A timer is restarted in the heap, another is delivered and deleted. -/
theorem represented_restart :
    (∃ final, exec (step (timerPool 0)) (initial (timerPool 0))
      [.new none, .new none,
        .schedule (timerAt 0) (.scheduleOneShotAtTimeout (some 0) 5 0) 0 0,
        .schedule (timerAt 1) (.schedulePeriodicAtTimeout (some 1) 9 0) 0 0,
        .restart (timerAt 1) 2, .timerTask 6, .deliver 0 6] = some final) ∧
      Always (step (timerPool 0)) Represented (initial (timerPool 0))
        [.new none, .new none,
          .schedule (timerAt 0) (.scheduleOneShotAtTimeout (some 0) 5 0) 0 0,
          .schedule (timerAt 1) (.schedulePeriodicAtTimeout (some 1) 9 0) 0 0,
          .restart (timerAt 1) 2, .timerTask 6, .deliver 0 6] :=
  (represented_iff (by decide +kernel)).mpr (by decide +kernel)

/-- A timer that is cancelled and then scheduled again is in the heap twice. -/
theorem cancelled_timer_duplicated : ∃ final,
    exec (step (timerPool 0)) (initial (timerPool 0))
      [.new none, .schedule (timerAt 0) (.scheduleOneShotAtTimeout (some 0) 5 0) 0 0,
        .cancel (timerAt 0),
        .schedule (timerAt 0) (.scheduleOneShotAtTimeout (some 1) 5 0) 0 0] = some final ∧
      final.minHeap.heap 0 = some (timerAt 0) ∧ final.minHeap.heap 1 = some (timerAt 0) ∧
      ¬ final.Represented := by
  have ran : (exec (step (timerPool 0)) (initial (timerPool 0))
      [.new none, .schedule (timerAt 0) (.scheduleOneShotAtTimeout (some 0) 5 0) 0 0,
        .cancel (timerAt 0),
        .schedule (timerAt 0) (.scheduleOneShotAtTimeout (some 1) 5 0) 0 0]).map (fun final =>
          (final.minHeap.heap 0, final.minHeap.heap 1, final.occurrences (timerAt 0))) =
        some (some (timerAt 0), some (timerAt 0), 2) := by
    decide +kernel
  obtain ⟨final, executed, evaluated⟩ := Option.map_eq_some_iff.mp ran
  simp only [Prod.mk.injEq] at evaluated
  obtain ⟨first, second, twice⟩ := evaluated
  refine ⟨final, executed, first, second, fun represented => ?_⟩
  have once := (represented.fits (timerAt 0)).once
  omega

end TimerSystem

end TimerAndCallback
