import TimerAndCallback.Run.CallbackStep
import TimerAndCallback.Run.WellFormed
import TimerAndCallback.Foundation.Ownership

/-! # A callback belongs to one timer

When clients hand each callback to at most one timer that takes it, the timers own the
callbacks: no step triggers or deletes a callback that is not allocated, and a callback
that was taken is allocated as long as its timer holds it and no longer.
-/

namespace TimerAndCallback

namespace TimerSystem

open Execution

variable {pTimerPool : MemoryPool} {pShm : UInt64} {system next : TimerSystem} {action : Action}

/-- `Timer::getCallback`. -/
def getCallback (system : TimerSystem) (pTimer : UInt64) : Option Nat := (system.timers pTimer).pCb

private theorem getCallback_update (system : TimerSystem) (pTimer : UInt64) (timer : Timer)
    (written : next.timers = Function.update system.timers pTimer timer) :
    next.getCallback = Function.update system.getCallback pTimer timer.pCb := by
  funext other
  unfold getCallback
  rw [written]
  rcases eq_or_ne other pTimer with rfl | apart
  · rw [Function.update_self, Function.update_self]
  · rw [Function.update_of_ne apart, Function.update_of_ne apart]

private theorem getCallback_kept (system : TimerSystem) (pTimer : UInt64) (timer : Timer)
    (written : next.timers = Function.update system.timers pTimer timer)
    (same : timer.pCb = system.getCallback pTimer) : next.getCallback = system.getCallback := by
  rw [getCallback_update system pTimer timer written, same, Function.update_eq_self]

/-- The callback that a step gives to a timer. -/
def accepted (system : TimerSystem) : Action → Option Nat
  | .schedule pTimer request _ _ =>
      if system.getCallback pTimer = none then request.arguments.pCb else none
  | _ => none

/-- The callback that a step deletes. -/
def released (pTimerPool : MemoryPool) (system : TimerSystem) : Action → Option Nat
  | .cancel pTimer | .delete pTimer => system.getCallback pTimer
  | .deliver position _ =>
      match system.messages[position]? with
      | none => none
      | some envelope =>
          let pTimer := getTimerAtIndex pTimerPool envelope.message.shmIndex
          if (system.timers pTimer).Retires then system.getCallback pTimer else none
  | _ => none

/-- What a step does to the callbacks of the timers. -/
inductive CallbackChange (pTimerPool : MemoryPool) (system : TimerSystem) (action : Action)
    (after : UInt64 → Option Nat) : Prop
  | kept (same : after = system.getCallback) (given : system.accepted action = none)
      (remains : system.released pTimerPool action = none)
  | took (pTimer : UInt64) (pCb : Nat) (room : system.getCallback pTimer = none)
      (written : after = Function.update system.getCallback pTimer (some pCb))
      (given : system.accepted action = some pCb)
      (remains : system.released pTimerPool action = none)
  | dropped (pTimer : UInt64) (pCb : Nat) (held : system.getCallback pTimer = some pCb)
      (written : after = Function.update system.getCallback pTimer none)
      (given : system.accepted action = none)
      (freed : system.released pTimerPool action = some pCb)

/-- A step that clears the callback of a timer, whether there is one or not. -/
theorem CallbackChange.cleared {pTimer : UInt64} {after : UInt64 → Option Nat}
    (written : after = Function.update system.getCallback pTimer none)
    (given : system.accepted action = none)
    (freed : system.released pTimerPool action = system.getCallback pTimer) :
    CallbackChange pTimerPool system action after := by
  cases held : system.getCallback pTimer with
  | none =>
      rw [← held, Function.update_eq_self] at written
      exact .kept written given (freed.trans held)
  | some pCb => exact .dropped pTimer pCb held written given (freed.trans held)

/-- A timer without a callback takes the callback it is scheduled with. -/
theorem armed_pCb_of_none {pTimer : UInt64} {arguments : ScheduleArguments}
    {current rand : UInt64} {timer : Timer}
    (armed : (system.timers pTimer).arm arguments current rand = some timer)
    (held : system.getCallback pTimer = none) : timer.pCb = arguments.pCb :=
  (Timer.arm_armed armed).pCb.trans (if_pos (Option.isNone_iff_eq_none.mpr held))

/-- A timer that has a callback keeps it when it is scheduled. -/
theorem armed_pCb_of_ne_none {pTimer : UInt64} {arguments : ScheduleArguments}
    {current rand : UInt64} {timer : Timer}
    (armed : (system.timers pTimer).arm arguments current rand = some timer)
    (held : system.getCallback pTimer ≠ none) : timer.pCb = system.getCallback pTimer :=
  (Timer.arm_armed armed).pCb.trans (if_neg fun free => held (Option.isNone_iff_eq_none.mp free))

/-- The callback that a delivery deletes, by the timer of the message. -/
theorem WellFormed.released_deliver (wellFormed : system.WellFormed pShm) {position : Nat}
    {envelope : Envelope} (queued : system.messages[position]? = some envelope)
    (current : UInt64) :
    system.released (timerPool pShm) (.deliver position current) =
      if (system.timers envelope.timer).Retires then system.getCallback envelope.timer
      else none := by
  have resolved := wellFormed.resolved envelope (List.mem_of_getElem? queued)
  simp only [released, queued, resolved]

/-- Every step leaves the callbacks alone, gives one to a timer without one or drops one. -/
theorem Transition.callbackChange (wellFormed : system.WellFormed pShm)
    (transition : Transition (timerPool pShm) system action next) :
    CallbackChange (timerPool pShm) system action next.getCallback := by
  cases transition with
  | created tasks pTimer pool handed fresh =>
      refine .kept (getCallback_kept system pTimer _ rfl ?_) rfl rfl
      cases tasks with
      | none => exact (wellFormed.silent pTimer fresh).symm
      | some tasks => rfl
  | scheduled pTimer request current rand timer heap live armed =>
      by_cases held : system.getCallback pTimer = none
      · have taken := armed_pCb_of_none armed held
        have given : system.accepted (.schedule pTimer request current rand) =
            request.arguments.pCb := if_pos held
        cases passed : request.arguments.pCb with
        | none =>
            have same := taken.trans (passed.trans held.symm)
            exact .kept (getCallback_kept system pTimer timer rfl same) (given.trans passed) rfl
        | some pCb =>
            refine .took pTimer pCb held ?_ (given.trans passed) rfl
            exact (getCallback_update system pTimer timer rfl).trans
              (congrArg _ (taken.trans passed))
      · have same := armed_pCb_of_ne_none armed held
        exact .kept (getCallback_kept system pTimer timer rfl same) (if_neg held) rfl
  | cancelled pTimer =>
      exact .cleared (getCallback_update system pTimer
        { system.timers pTimer with pCb := none, state := .Idle } rfl) rfl rfl
  | restarted pTimer current heap =>
      refine .kept (getCallback_kept system pTimer
        ((system.timers pTimer).requeued _ current) rfl rfl) rfl rfl
  | stopped pTimer =>
      exact .kept (getCallback_kept system pTimer
        { system.timers pTimer with state := .Idle } rfl rfl) rfl rfl
  | deleted pTimer =>
      exact .cleared (getCallback_update system pTimer
        { system.timers pTimer with pCb := none } rfl) rfl rfl
  | rested => exact .kept rfl rfl rfl
  | fired current top =>
      exact .kept (getCallback_kept system top (system.timers top).expired rfl rfl) rfl rfl
  | revived current top =>
      exact .kept (getCallback_kept system top
        ((system.timers top).requeued _ current) rfl rfl) rfl rfl
  | ignored position current envelope queued stays remains =>
      refine .kept rfl rfl ?_
      rw [wellFormed.released_deliver queued, if_neg remains]
  | rearmed position current envelope heap queued live rearms =>
      refine .kept (getCallback_kept system envelope.timer
        ((system.timers envelope.timer).requeued _ current) rfl rfl) rfl ?_
      rw [wellFormed.released_deliver queued, if_neg rearms.not_retires]
  | retired position current envelope heap queued live retires =>
      refine .cleared (getCallback_update system envelope.timer
        { system.timers envelope.timer with pCb := none } rfl) rfl ?_
      rw [wellFormed.released_deliver queued, if_pos retires]

end TimerSystem

/-- The pool after `delete pCb`, where it returns. -/
def returned (pCallbackPool : MemoryPool) (callbacks : MemoryPool.PoolRun) (pCb : Option Nat) :
    MemoryPool.PoolRun :=
  (deleteCallback pCallbackPool callbacks pCb).getD callbacks

private theorem deleteCallback_eq {pCallbackPool : MemoryPool} {callbacks : MemoryPool.PoolRun}
    {pCb : Option Nat}
    (returns : ∀ object ∈ pCb, (deleteCallback pCallbackPool callbacks (some object)).isSome) :
    deleteCallback pCallbackPool callbacks pCb = some (returned pCallbackPool callbacks pCb) := by
  cases pCb with
  | none => rfl
  | some object =>
      obtain ⟨left, deleted⟩ := Option.isSome_iff_exists.mp (returns object rfl)
      rw [returned, deleted, Option.getD_some]

namespace CallbackSystem

open TimerSystem Execution Ownership

variable {pTimerPool pCallbackPool : MemoryPool} {pShm pCallbackShm : UInt64}
variable {system next : CallbackSystem} {action : CallbackAction}

/-- Every callback that a timer has is allocated, and its pool takes it back. -/
def Allocated (pCallbackPool : MemoryPool) (system : CallbackSystem) : Prop :=
  ∀ pTimer, ∀ pCb ∈ system.shared.getCallback pTimer,
    (deleteCallback pCallbackPool system.callbacks (some pCb)).isSome

/-- The system after a step of the shared state that deletes and gives these callbacks. -/
def after (pCallbackPool : MemoryPool) (system : CallbackSystem) (freed given : Option Nat)
    (shared : TimerSystem) : CallbackSystem where
  shared := shared
  callbacks := returned pCallbackPool system.callbacks freed
  loose := given.elim system.loose system.loose.erase

private theorem Allocated.delete_eq (allocated : system.Allocated pCallbackPool) (pTimer : UInt64) :
    system.delete pTimerPool pCallbackPool pTimer =
      (system.shared.delete pTimerPool pTimer).map
        (system.after pCallbackPool (system.shared.getCallback pTimer) none) := by
  have removed : deleteCallback pCallbackPool system.callbacks (system.shared.timers pTimer).pCb =
      some (returned pCallbackPool system.callbacks (system.shared.getCallback pTimer)) :=
    deleteCallback_eq (allocated pTimer)
  unfold delete destroy TimerSystem.delete
  cases system.shared.destroy pTimer with
  | none => rfl
  | some shared =>
      simp only [Option.bind_eq_bind, Option.bind_some, removed]
      rfl

/-- The system whose history says that the callback of a timer was triggered. -/
def marked (system : CallbackSystem) (pTimer : UInt64) : CallbackSystem :=
  { system with
    shared := system.shared.setLedger pTimer (system.shared.ledger pTimer).triggered }

/-- A callback that is allocated can be triggered. -/
theorem Allocated.triggered_eq (allocated : system.Allocated pCallbackPool) {pTimer : UInt64}
    {pCb : Nat} (held : system.shared.getCallback pTimer = some pCb) :
    system.triggered pTimer pCb = some (system.marked pTimer) :=
  if_pos (by
    obtain ⟨callbacks, deleted⟩ := Option.isSome_iff_exists.mp (allocated pTimer pCb held)
    exact (Option.ite_none_right_eq_some.mp deleted).1)

/-- A step on the shared state, taken with the callbacks beside it, and its result. -/
theorem bind_ok_map (one : Option TimerSystem) (beside : TimerSystem → CallbackSystem) :
    (one.map beside).bind (fun system => some (Result.OK, system)) =
      (one.bind fun shared => some (Result.OK, shared)).map (Prod.map id beside) := by
  cases one <;> rfl

private theorem Allocated.processACallback_eq (allocated : system.Allocated pCallbackPool)
    (pTimer current : UInt64) :
    system.processACallback pTimerPool pCallbackPool pTimer current =
      (system.shared.processACallback pTimerPool recordTriggered pTimer current).map
        (Prod.map id (system.after pCallbackPool
          (if (system.shared.timers pTimer).Retires then system.shared.getCallback pTimer
            else none) none)) := by
  have still : (system.marked pTimer).Allocated pCallbackPool := allocated
  have recorded : recordTriggered system.shared pTimer = some (system.marked pTimer).shared := rfl
  have deleted : (system.marked pTimer).delete pTimerPool pCallbackPool pTimer =
      ((system.marked pTimer).shared.delete pTimerPool pTimer).map
        (system.after pCallbackPool (system.shared.timers pTimer).pCb none) :=
    still.delete_eq pTimer
  unfold processACallback TimerSystem.processACallback
  dsimp only
  cases held : (system.shared.timers pTimer).pCb with
  | none =>
      rw [if_neg (fun retires => by rw [Timer.Retires, held] at retires; cases retires.1)]
      cases (system.shared.timers pTimer).type <;> rfl
  | some pCb =>
      have triggered := allocated.triggered_eq held
      have callback : (system.shared.timers pTimer).pCb.isSome := by rw [held]; rfl
      rw [held] at deleted
      cases type : (system.shared.timers pTimer).type with
      | OneShot =>
          have retires : (system.shared.timers pTimer).Retires := ⟨callback, Or.inl type⟩
          simp only [triggered, recorded, deleted, if_pos retires, getCallback, held,
            Option.bind_eq_bind, Option.bind_some, Option.isSome_some, ↓reduceIte, bind_ok_map]
      | Periodic =>
          by_cases again : (system.shared.timers pTimer).FiresAgain
          · have rearms : (system.shared.timers pTimer).Rearms := ⟨callback, type, again⟩
            rw [if_neg rearms.not_retires]
            unfold Timer.FiresAgain at again
            simp only [triggered, recorded, Option.bind_eq_bind, Option.bind_some,
              Option.isSome_some, again, ↓reduceIte, changeFiringTime, bind_ok_map]
            rfl
          · have retires : (system.shared.timers pTimer).Retires :=
              ⟨callback, Or.inr ⟨type, again⟩⟩
            unfold Timer.FiresAgain at again
            simp only [triggered, recorded, deleted, if_pos retires, getCallback, held,
              Option.bind_eq_bind, Option.bind_some, Option.isSome_some, again, ↓reduceIte,
              bind_ok_map]
      | Invalid =>
          have stays : ¬ (system.shared.timers pTimer).Retires := by
            rintro ⟨_, oneShot | ⟨periodic, _⟩⟩
            · exact TimerType.noConfusion (type.symm.trans oneShot)
            · exact TimerType.noConfusion (type.symm.trans periodic)
          rw [if_neg stays]
          rfl

/-- While the callbacks of the timers are allocated, a step frees the one that it releases. -/
theorem Allocated.step_eq (allocated : system.Allocated pCallbackPool) (action : Action) :
    system.step pTimerPool pCallbackPool (.timer action) =
      (system.shared.step pTimerPool action).map
        (system.after pCallbackPool (system.shared.released pTimerPool action)
          (system.shared.accepted action)) := by
  cases action with
  | new | restart | stop | timerTask => rfl
  | schedule pTimer request current rand =>
      change (if _ then _ else _) = Option.map _ (if _ then _ else _)
      split_ifs
      · unfold schedule after accepted getCallback
        dsimp only
        cases (system.shared.timers pTimer).pCb <;> cases request.arguments.pCb <;> rfl
      · rfl
  | cancel pTimer =>
      change (if _ then _ else _) = Option.map _ (if _ then _ else _)
      split_ifs
      · unfold cancel
        rw [deleteCallback_eq]
        · rfl
        · exact allocated pTimer
      · rfl
  | delete pTimer =>
      change (if _ then _ else _) = Option.map _ (if _ then _ else _)
      split_ifs
      · exact allocated.delete_eq pTimer
      · rfl
  | deliver position current =>
      simp only [step, TimerSystem.step, released]
      cases system.shared.messages[position]? with
      | none => rfl
      | some envelope =>
          simp only [Option.bind_some]
          rw [Allocated.processACallback_eq]
          · rw [Option.map_map, Option.map_map]
            rfl
          · exact allocated

/-- The names of the allocated callbacks. -/
def live (system : CallbackSystem) : Finset Nat := system.callbacks.outstanding.image UInt64.toNat

/-- The live callbacks are the outstanding objects of the callback pool. -/
theorem mem_live {object : UInt64} :
    object.toNat ∈ system.live ↔ object ∈ system.callbacks.outstanding := by
  refine ⟨fun member => ?_, Finset.mem_image_of_mem _⟩
  obtain ⟨other, member, same⟩ := Finset.mem_image.mp member
  exact UInt64.toNat_inj.mp same ▸ member

/-- A name in use is that of one object. -/
theorem ofNat_of_mem_live {pCb : Nat} (member : pCb ∈ system.live) :
    (UInt64.ofNat pCb).toNat = pCb ∧ UInt64.ofNat pCb ∈ system.callbacks.outstanding := by
  obtain ⟨object, outstanding, rfl⟩ := Finset.mem_image.mp member
  rw [UInt64.ofNat_toNat]
  exact ⟨rfl, outstanding⟩

/-- The shared state is well formed, so is the pool of callbacks, and the timers own the
callbacks that they were given. -/
structure Sound (pShm pCallbackShm : UInt64) (system : CallbackSystem) : Prop where
  wellFormed : system.shared.WellFormed pShm
  pool : system.callbacks.Invariant (testCallbackPool pCallbackShm)
  owned : Owned system.shared.getCallback system.live system.loose

/-- The free list of the callbacks is mapped. -/
theorem testCallbackPool_serviceable (pShm : UInt64) : (testCallbackPool pShm).Serviceable :=
  MemoryPool.serviceable_of_fits pShm (by decide) (by decide)

/-- The constructor of the pool leaves the area that a run begins with. -/
theorem testCallbackPool_createArea (pShm : UInt64) :
    (testCallbackPool pShm).createArea SharedManagementArea.zeroFilled =
      some (MemoryPool.createRun (testCallbackPool pShm)).area :=
  (testCallbackPool_serviceable pShm).createArea_eq

/-- A timer of a sound system holds an allocated callback or none. -/
theorem Sound.allocated (sound : system.Sound pShm pCallbackShm) :
    system.Allocated (testCallbackPool pCallbackShm) := by
  intro pTimer pCb held
  have outstanding := (ofNat_of_mem_live (sound.owned.live_of_holds held)).2
  have returns : MemoryPool.ReturnsOutstanding system.callbacks
      (.removeFromPool (UInt64.ofNat pCb)) := outstanding
  exact Option.isSome_iff_exists.mpr
    (sound.pool.call_returns (testCallbackPool_serviceable pCallbackShm) returns)

/-- The system starts sound. -/
theorem initial_sound (pShm pCallbackShm : UInt64) :
    (initial (timerPool pShm) (testCallbackPool pCallbackShm)).Sound pShm pCallbackShm where
  wellFormed := initial_wellFormed pShm
  pool := MemoryPool.createRun_invariant _
  owned := Owned.empty

/-- Allocating a callback keeps the system sound. -/
theorem Sound.newCallback (sound : system.Sound pShm pCallbackShm)
    (ran : system.newCallback (testCallbackPool pCallbackShm) = some next) :
    next.Sound pShm pCallbackShm := by
  unfold CallbackSystem.newCallback at ran
  cases handed : (testCallbackPool pCallbackShm).getFromPool system.callbacks.area with
  | none => simp only [handed, reduceCtorEq] at ran
  | some outcome =>
      cases sound.pool.sound.getFromPool handed with
      | refused => simp only [handed, reduceCtorEq] at ran
      | granted index area bound unused =>
          have called : (testCallbackPool pCallbackShm).callPool system.callbacks .getFromPool =
              some ⟨area, insert ((testCallbackPool pCallbackShm).getMemoryLocationFromIndex
                (UInt64.ofNat index)) system.callbacks.outstanding⟩ := by
            simp only [MemoryPool.callPool, handed, Option.map_some]
          simp only [handed, Option.some.injEq] at ran
          subst ran
          refine ⟨sound.wellFormed, sound.pool.getFromPool
            (testCallbackPool_serviceable pCallbackShm).toAddressable called, ?_⟩
          unfold live
          rw [Finset.image_insert]
          exact sound.owned.create (fun member => unused (mem_live.mp member))

/-- A callback that is taken was in the hands of a client. -/
theorem Hands.accepted {action : Action} {pCb : Nat} (handed : system.Hands (.timer action))
    (given : system.shared.accepted action = some pCb) : pCb ∈ system.loose := by
  cases action with
  | schedule pTimer request current rand =>
      change (if _ then _ else _) = some pCb at given
      split_ifs at given
      exact handed pCb given
  | _ => cases given

/-- A deleted callback is no longer live. -/
theorem live_after {pCb : Nat} (member : pCb ∈ system.live)
    (returns : (deleteCallback pCallbackPool system.callbacks (some pCb)).isSome)
    (given : Option Nat) (shared : TimerSystem) :
    (system.after pCallbackPool (some pCb) given shared).live = system.live.erase pCb := by
  have named := (ofNat_of_mem_live member).1
  obtain ⟨callbacks, deleted⟩ := Option.isSome_iff_exists.mp returns
  have removed := (Option.ite_none_right_eq_some.mp deleted).2
  obtain ⟨area, _, rfl⟩ := Option.map_eq_some_iff.mp removed
  simp only [live, after, returned, deleted, Option.getD_some]
  rw [Finset.image_erase fun _ _ => UInt64.toNat_inj.mp, named]

/-- A step of the timers keeps the system sound. -/
theorem Sound.timer (sound : system.Sound pShm pCallbackShm) {action : Action}
    (handed : system.Hands (.timer action))
    (ran : system.step (timerPool pShm) (testCallbackPool pCallbackShm) (.timer action) =
      some next) : next.Sound pShm pCallbackShm := by
  rw [sound.allocated.step_eq] at ran
  obtain ⟨shared, taken, rfl⟩ := Option.map_eq_some_iff.mp ran
  have wellFormed := sound.wellFormed.step taken
  cases (step_transition sound.wellFormed taken).callbackChange sound.wellFormed with
  | kept same given remains =>
      rw [given, remains]
      exact ⟨wellFormed, sound.pool, same.symm ▸ sound.owned⟩
  | took pTimer pCb room written given remains =>
      rw [given, remains]
      refine ⟨wellFormed, sound.pool, ?_⟩
      exact written.symm ▸ sound.owned.take room (handed.accepted given)
  | dropped pTimer pCb held written given freed =>
      rw [given, freed]
      have member := sound.owned.live_of_holds held
      have returns := sound.allocated pTimer pCb held
      have called : deleteCallback (testCallbackPool pCallbackShm) system.callbacks (some pCb) =
          some (returned (testCallbackPool pCallbackShm) system.callbacks (some pCb)) :=
        deleteCallback_eq fun object same => Option.some.inj same ▸ returns
      refine ⟨wellFormed, sound.pool.removeFromPool
        (testCallbackPool_serviceable pCallbackShm).toAddressable called, ?_⟩
      rw [live_after member returns]
      exact written.symm ▸ sound.owned.release held

/-- Every step keeps the system sound. -/
theorem Sound.step (sound : system.Sound pShm pCallbackShm) (handed : system.Hands action)
    (ran : system.step (timerPool pShm) (testCallbackPool pCallbackShm) action = some next) :
    next.Sound pShm pCallbackShm := by
  cases action with
  | newCallback => exact sound.newCallback ran
  | timer action => exact sound.timer handed ran

/-- Every run whose clients hand over loose callbacks only stays sound. -/
theorem exec_sound {actions : List CallbackAction}
    (handed : Along (step (timerPool pShm) (testCallbackPool pCallbackShm)) Hands
      (initial (timerPool pShm) (testCallbackPool pCallbackShm)) actions)
    (reached : exec (step (timerPool pShm) (testCallbackPool pCallbackShm))
      (initial (timerPool pShm) (testCallbackPool pCallbackShm)) actions = some system) :
    system.Sound pShm pCallbackShm :=
  exec_invariant (fun _ _ _ sound handed ran => sound.step handed ran)
    (initial_sound pShm pCallbackShm) handed reached

/-- A timer that holds a callback is allocated. -/
theorem Sound.allocated_timer (sound : system.Sound pShm pCallbackShm) {pTimer : UInt64}
    {pCb : Nat} (held : system.shared.getCallback pTimer = some pCb) :
    pTimer ∈ system.shared.pool.outstanding := by
  by_contra dead
  have silent := sound.wellFormed.silent pTimer dead
  rw [getCallback, silent] at held
  cases held

private theorem card_live : system.live.card = system.callbacks.outstanding.card :=
  Finset.card_image_of_injective _ fun _ _ => UInt64.toNat_inj.mp

/-- An exhausted pool is filled by the callbacks not taken and those of the timers. -/
theorem Sound.exhausted (sound : system.Sound pShm pCallbackShm)
    (refused : system.newCallback (testCallbackPool pCallbackShm) = none) :
    MAX_NUMBER_OF_TIMERS ≤ system.loose.card + system.shared.pool.outstanding.card := by
  have full : system.callbacks.outstanding.card = MAX_NUMBER_OF_TIMERS := by
    by_contra left
    obtain ⟨object, area, handed, _⟩ :=
      (sound.pool.correct (testCallbackPool_serviceable pCallbackShm)).handedOut left
    simp only [CallbackSystem.newCallback, handed, reduceCtorEq] at refused
  rw [← full, ← card_live]
  refine sound.owned.card_live_le _ fun pTimer dead => ?_
  exact sound.wellFormed.silent pTimer dead

/-- Clients hand each callback to at most one timer that takes it. Then no step is ever
refused because of a callback: none is deleted twice, and none is triggered or deleted
after its life. -/
theorem callbacks_never_misused (pShm pCallbackShm : UInt64) (actions : List CallbackAction)
    (system : CallbackSystem)
    (handed : Along (step (timerPool pShm) (testCallbackPool pCallbackShm)) Hands
      (initial (timerPool pShm) (testCallbackPool pCallbackShm)) actions)
    (reached : exec (step (timerPool pShm) (testCallbackPool pCallbackShm))
      (initial (timerPool pShm) (testCallbackPool pCallbackShm)) actions = some system)
    (action : Action) :
    (system.step (timerPool pShm) (testCallbackPool pCallbackShm) (.timer action)).map
      CallbackSystem.shared = system.shared.step (timerPool pShm) action := by
  have sound := exec_sound handed reached
  rw [sound.allocated.step_eq, Option.map_map]
  exact Option.map_id'

/-- A timer keeps its first callback when it is scheduled with a second one. -/
theorem callbacks_never_misused_one : ∃ system,
    exec (step (timerPool 0) (testCallbackPool 0)) (initial (timerPool 0) (testCallbackPool 0))
      [.newCallback, .newCallback, .timer (.new (some (.Test, .Test))),
        .timer (.schedule (timerAt 0) (.scheduleOneShotAtTimeout (some 8204) 5 0) 0 0),
        .timer (.stop (timerAt 0)),
        .timer (.schedule (timerAt 0) (.scheduleOneShotAtTimeout (some 8220) 5 0) 0 0)] =
      some system ∧
    (system.step (timerPool 0) (testCallbackPool 0) (.timer (.cancel (timerAt 0)))).map
      CallbackSystem.shared = system.shared.step (timerPool 0) (.cancel (timerAt 0)) := by
  have ran : (exec (step (timerPool 0) (testCallbackPool 0))
      (initial (timerPool 0) (testCallbackPool 0))
      [.newCallback, .newCallback, .timer (.new (some (.Test, .Test))),
        .timer (.schedule (timerAt 0) (.scheduleOneShotAtTimeout (some 8204) 5 0) 0 0),
        .timer (.stop (timerAt 0)),
        .timer (.schedule (timerAt 0) (.scheduleOneShotAtTimeout (some 8220) 5 0) 0
          0)]).isSome := by
    decide +kernel
  obtain ⟨system, reached⟩ := Option.isSome_iff_exists.mp ran
  exact ⟨system, reached, callbacks_never_misused 0 0 _ system (by decide +kernel) reached _⟩

/-- What a run leaves of the callbacks: the allocated ones are those that no timer took
and, one each, those that allocated timers hold. So their pool is exhausted only when the
callbacks not taken and the timers fill it. -/
theorem callbacks_reclaimed (pShm pCallbackShm : UInt64) (actions : List CallbackAction)
    (system : CallbackSystem)
    (handed : Along (step (timerPool pShm) (testCallbackPool pCallbackShm)) Hands
      (initial (timerPool pShm) (testCallbackPool pCallbackShm)) actions)
    (reached : exec (step (timerPool pShm) (testCallbackPool pCallbackShm))
      (initial (timerPool pShm) (testCallbackPool pCallbackShm)) actions = some system) :
    (∀ object : UInt64, object ∈ system.callbacks.outstanding ↔
      object.toNat ∈ system.loose ∨ ∃ pTimer ∈ system.shared.pool.outstanding,
        system.shared.getCallback pTimer = some object.toNat) ∧
    (∀ pTimer pCb, system.shared.getCallback pTimer = some pCb → pCb ∉ system.loose ∧
      ∀ other, system.shared.getCallback other = some pCb → other = pTimer) ∧
    (system.newCallback (testCallbackPool pCallbackShm) = none →
      MAX_NUMBER_OF_TIMERS ≤ system.loose.card + system.shared.pool.outstanding.card) := by
  have sound := exec_sound handed reached
  refine ⟨fun object => ?_, fun pTimer pCb held => ?_, sound.exhausted⟩
  · rw [← mem_live]
    constructor
    · intro member
      rcases sound.owned.covered member with unheld | ⟨pTimer, held⟩
      · exact Or.inl unheld
      · exact Or.inr ⟨pTimer, sound.allocated_timer held, held⟩
    · rintro (unheld | ⟨pTimer, _, held⟩)
      · exact sound.owned.live_of_loose unheld
      · exact sound.owned.live_of_holds held
  · exact ⟨fun unheld => sound.owned.free unheld held, fun other => sound.owned.unique held⟩

/-- The callback that was refused is what remains of two when the timer is deleted. -/
theorem callbacks_reclaimed_one : ∃ system,
    exec (step (timerPool 0) (testCallbackPool 0)) (initial (timerPool 0) (testCallbackPool 0))
      [.newCallback, .newCallback, .timer (.new (some (.Test, .Test))),
        .timer (.schedule (timerAt 0) (.scheduleOneShotAtTimeout (some 8204) 5 0) 0 0),
        .timer (.stop (timerAt 0)),
        .timer (.schedule (timerAt 0) (.scheduleOneShotAtTimeout (some 8220) 5 0) 0 0),
        .timer (.delete (timerAt 0))] = some system ∧
    ((∀ object : UInt64, object ∈ system.callbacks.outstanding ↔
      object.toNat ∈ system.loose ∨ ∃ pTimer ∈ system.shared.pool.outstanding,
        system.shared.getCallback pTimer = some object.toNat) ∧
    (∀ pTimer pCb, system.shared.getCallback pTimer = some pCb → pCb ∉ system.loose ∧
      ∀ other, system.shared.getCallback other = some pCb → other = pTimer) ∧
    (system.newCallback (testCallbackPool 0) = none →
      MAX_NUMBER_OF_TIMERS ≤ system.loose.card + system.shared.pool.outstanding.card)) := by
  have ran : (exec (step (timerPool 0) (testCallbackPool 0))
      (initial (timerPool 0) (testCallbackPool 0))
      [.newCallback, .newCallback, .timer (.new (some (.Test, .Test))),
        .timer (.schedule (timerAt 0) (.scheduleOneShotAtTimeout (some 8204) 5 0) 0 0),
        .timer (.stop (timerAt 0)),
        .timer (.schedule (timerAt 0) (.scheduleOneShotAtTimeout (some 8220) 5 0) 0 0),
        .timer (.delete (timerAt 0))]).isSome := by
    decide +kernel
  obtain ⟨system, reached⟩ := Option.isSome_iff_exists.mp ran
  exact ⟨system, reached, callbacks_reclaimed 0 0 _ system (by decide +kernel) reached⟩

end CallbackSystem

end TimerAndCallback
