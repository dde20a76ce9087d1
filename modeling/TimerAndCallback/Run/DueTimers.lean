import TimerAndCallback.Run.PlainClient
import TimerAndCallback.Run.QueuedStep
import TimerAndCallback.Platform.TimerPriority

/-! # Turns of the timer task at one time

From a heap of distinct active timers, as many turns as there are timers, all at one
time, leave nothing due on top. They fire the timers they take out once each, and those
were due. The order of the heap decides only which due timers stay behind: none, when the
heap is in order and no removal skips a lone child.
-/

namespace TimerAndCallback

namespace TimerSystem

open TimerMinHeap Execution HeapOrder

variable {pShm : UInt64} {system next final : TimerSystem} {current : UInt64}

/-- The timers in the heap are active and there once. -/
structure AllActive (system : TimerSystem) : Prop where
  distinct : system.minHeap.contents.Nodup
  active : ∀ pTimer, some pTimer ∈ system.minHeap.contents →
    (system.timers pTimer).state = .Active

/-- Nothing is due on top. -/
def Settled (system : TimerSystem) (current : UInt64) : Prop :=
  ∀ top, ¬ system.DueOnTop top current

/-- The message of a firing. -/
def firing (pTimerPool : MemoryPool) (system : TimerSystem) (current pTimer : UInt64) : Envelope :=
  system.envelope pTimer ⟨.TimerTask, 0, getIndex pTimerPool pTimer⟩ current

/-- These timers, and no others, have left the heap since, and fired once each. -/
structure Expired (pTimerPool : MemoryPool) (current : UInt64) (system : TimerSystem)
    (fired : List UInt64) (final : TimerSystem) : Prop where
  contents : system.minHeap.contents = fired.map some + final.minHeap.contents
  messages : final.messages = system.messages ++ fired.map (system.firing pTimerPool current)
  due : ∀ pTimer ∈ fired, (system.whenToFire pTimer).toNat ≤ current.toNat
  timers : ∀ pTimer, final.timers pTimer =
    if pTimer ∈ fired then (system.timers pTimer).expired else system.timers pTimer

/-- The system after the timer on top fired and left this heap. -/
def fireTop (pTimerPool : MemoryPool) (system : TimerSystem) (top : UInt64)
    (heap : TimerMinHeap UInt64) (current : UInt64) : TimerSystem :=
  ({ system with minHeap := heap, clock := current }.setTimer top
    (system.timers top).expired).send top ⟨.TimerTask, 0, getIndex pTimerPool top⟩ current

private theorem settled_of_empty (empty : system.minHeap.numberOfTimersBeingManaged = 0) :
    system.Settled current :=
  fun _ onTop => absurd empty (Nat.ne_of_gt onTop.positive)

/-- Counting a firing leaves the firing times alone. -/
theorem whenToFire_setTimer (system : TimerSystem) (top : UInt64) (timer : Timer)
    (same : timer.whenToFire = system.whenToFire top) :
    (system.setTimer top timer).whenToFire = system.whenToFire := by
  funext pTimer
  unfold whenToFire
  rcases eq_or_ne pTimer top with rfl | apart
  · rw [setTimer_timers_self]
    exact same
  · rw [setTimer_timers, Function.update_of_ne apart]

private theorem fireTop_whenToFire (pTimerPool : MemoryPool) (top : UInt64)
    (heap : TimerMinHeap UInt64) :
    (system.fireTop pTimerPool top heap current).whenToFire = system.whenToFire :=
  whenToFire_setTimer { system with minHeap := heap, clock := current } top
    (system.timers top).expired rfl

/-- A turn fires an active timer that is due on top. -/
theorem timerTask_fires {top : UInt64} (wellFormed : system.WellFormed pShm)
    (onTop : system.DueOnTop top current) (active : (system.timers top).state = .Active) :
    ∃ result heap, system.minHeap.removeFromHeap MAX_NUMBER_OF_TIMERS system.whenToFire top =
        some (result, heap) ∧
      system.step (timerPool pShm) (.timerTask current) =
        some (system.fireTop (timerPool pShm) top heap current) ∧
      heap.numberOfTimersBeingManaged + 1 = system.minHeap.numberOfTimersBeingManaged ∧
      system.minHeap.contents = some top ::ₘ heap.contents := by
  have managed := wellFormed.managed
  obtain ⟨⟨result, heap⟩, removed⟩ := Option.isSome_iff_exists.mp
    ((removeFromHeap_isSome system.whenToFire managed.count (by decide) (by decide)
      managed.filled).mpr fun empty => absurd empty (Nat.ne_of_gt onTop.positive))
  have removal :=
    removeFromHeap_removal managed.count (by decide) (by decide) managed.filled removed
  obtain ⟨count, contents⟩ := removal.of_top onTop.positive onTop.holds
  refine ⟨result, heap, removed, ?_, count, contents⟩
  let fired : Timer := { system.timers top with
    numberOfTimesFired := (system.timers top).numberOfTimesFired + 1 }
  have found : ({ system with clock := current }.setTimer top fired).removeFromHeap top =
      some ({ system with minHeap := heap, clock := current }.setTimer top fired) := by
    have keys := whenToFire_setTimer { system with clock := current } top fired rfl
    unfold removeFromHeap
    rw [keys]
    exact congrArg (Option.map _) removed
  change timerTaskTurn (timerPool pShm) { system with clock := current } current = _
  unfold timerTaskTurn
  rw [if_neg (Nat.ne_of_gt onTop.positive)]
  refine Option.bind_eq_some_iff.mpr ⟨top, onTop.holds, ?_⟩
  dsimp only
  have due : uint64LEQ (system.timers top).whenToFire current := uint64LEQ_iff.mpr onTop.due
  rw [if_pos due]
  split
  next =>
    refine Option.bind_eq_some_iff.mpr ⟨_, found, ?_⟩
    simp only [fireTop, setTimerState, setTimer, Function.update_idem, Function.update_self, fired,
      Timer.expired]
  next idle => exact TimerState.noConfusion (active.symm.trans idle)
  next done => exact TimerState.noConfusion (active.symm.trans done)

/-- A turn with nothing due on top only reads the clock. -/
theorem Settled.rests (settled : system.Settled current) (wellFormed : system.WellFormed pShm) :
    system.step (timerPool pShm) (.timerTask current) = some { system with clock := current } := by
  obtain ⟨next, turned⟩ :=
    timerTaskTurn_taken { system with clock := current } current wellFormed.managed
  cases timerTaskTurn_transition wellFormed turned with
  | rested => exact turned
  | fired _ top _ onTop => exact absurd onTop (settled top)
  | revived _ top _ onTop => exact absurd onTop (settled top)

/-- A settled system stays as it is, whatever the number of turns. -/
theorem Settled.rest (settled : system.Settled current) (wellFormed : system.WellFormed pShm)
    (turns : Nat) :
    ∃ clock, exec (step (timerPool pShm)) system (List.replicate turns (.timerTask current)) =
      some { system with clock := clock } := by
  induction turns generalizing system with
  | zero => exact ⟨system.clock, rfl⟩
  | succ turns ih =>
      have rested := settled.rests wellFormed
      have still : ({ system with clock := current } : TimerSystem).Settled current :=
        fun top onTop => settled top ⟨onTop.positive, onTop.holds, onTop.due⟩
      obtain ⟨clock, ran⟩ := ih still (wellFormed.step rested)
      exact ⟨clock, exec_cons_eq_some.mpr ⟨_, rested, ran⟩⟩

/-- No timer has expired. -/
theorem Expired.nothing (pTimerPool : MemoryPool) (system : TimerSystem) (clock : UInt64) :
    Expired pTimerPool current system [] { system with clock := clock } where
  contents := (zero_add _).symm
  messages := (List.append_nil _).symm
  due _ member := absurd member List.not_mem_nil
  timers _ := rfl

private theorem AllActive.top_not_mem {top : UInt64} {heap : TimerMinHeap UInt64}
    (allActive : system.AllActive)
    (contents : system.minHeap.contents = some top ::ₘ heap.contents) :
    some top ∉ heap.contents := by
  have distinct := allActive.distinct
  rw [contents, Multiset.nodup_cons] at distinct
  exact distinct.1

/-- The timers that remain when the one on top has fired are active and distinct. -/
theorem AllActive.fireTop {top : UInt64} {heap : TimerMinHeap UInt64} (allActive : system.AllActive)
    (contents : system.minHeap.contents = some top ::ₘ heap.contents) (pTimerPool : MemoryPool) :
    (system.fireTop pTimerPool top heap current).AllActive where
  distinct := by
    have distinct := allActive.distinct
    rw [contents, Multiset.nodup_cons] at distinct
    exact distinct.2
  active pTimer member := by
    have apart : pTimer ≠ top := by
      rintro rfl
      exact allActive.top_not_mem contents member
    have inside : some pTimer ∈ system.minHeap.contents := by
      rw [contents]
      exact Multiset.mem_cons_of_mem member
    simp only [TimerSystem.fireTop, send_timers, setTimer_timers]
    rw [Function.update_of_ne apart]
    exact allActive.active pTimer inside

/-- The timer on top leaves the other objects as they are. -/
theorem fireTop_timers_of_ne {top pTimer : UInt64} (apart : pTimer ≠ top)
    (pTimerPool : MemoryPool) (heap : TimerMinHeap UInt64) :
    (system.fireTop pTimerPool top heap current).timers pTimer = system.timers pTimer :=
  Function.update_of_ne apart _ _

private theorem fireTop_firing_of_ne {top pTimer : UInt64} (apart : pTimer ≠ top)
    (pTimerPool : MemoryPool) (heap : TimerMinHeap UInt64) :
    (system.fireTop pTimerPool top heap current).firing pTimerPool current pTimer =
      system.firing pTimerPool current pTimer := by
  have ledger : (system.fireTop pTimerPool top heap current).ledger pTimer =
      system.ledger pTimer := Function.update_of_ne apart _ _
  simp only [firing, envelope, fireTop_timers_of_ne apart, ledger]

private theorem fireTop_messages {top : UInt64} (pTimerPool : MemoryPool)
    (heap : TimerMinHeap UInt64) :
    (system.fireTop pTimerPool top heap current).messages =
      system.messages ++ [system.firing pTimerPool current top] := by
  simp only [fireTop, send_messages, setTimer_timers_self, setTimer_messages, firing, envelope,
    Timer.expired, setTimer_ledger]

/-- The top expires first, and the others after it. -/
theorem Expired.cons {top : UInt64} {heap : TimerMinHeap UInt64} {fired : List UInt64}
    {pTimerPool : MemoryPool} (allActive : system.AllActive) (onTop : system.DueOnTop top current)
    (contents : system.minHeap.contents = some top ::ₘ heap.contents)
    (later : Expired pTimerPool current (system.fireTop pTimerPool top heap current) fired final) :
    Expired pTimerPool current system (top :: fired) final := by
  have remains : heap.contents = fired.map some + final.minHeap.contents := later.contents
  have apart : ∀ pTimer ∈ fired, pTimer ≠ top := by
    rintro pTimer member rfl
    refine allActive.top_not_mem contents ?_
    rw [remains]
    exact Multiset.mem_add.mpr (Or.inl (Multiset.mem_coe.mpr (List.mem_map_of_mem member)))
  refine ⟨?_, ?_, fun pTimer member => ?_, fun pTimer => ?_⟩
  · rw [contents, remains, List.map_cons, ← Multiset.cons_coe, Multiset.cons_add]
  · have same : fired.map
        ((system.fireTop pTimerPool top heap current).firing pTimerPool current) =
          fired.map (system.firing pTimerPool current) :=
      List.map_congr_left fun pTimer member => fireTop_firing_of_ne (apart pTimer member) _ _
    rw [later.messages, same, fireTop_messages, List.append_assoc]
    rfl
  · rcases List.mem_cons.mp member with rfl | earlier
    · exact onTop.due
    · have due := later.due pTimer earlier
      unfold whenToFire at due
      rwa [fireTop_timers_of_ne (apart pTimer earlier)] at due
  · rw [later.timers pTimer]
    rcases eq_or_ne pTimer top with rfl | different
    · have absent : pTimer ∉ fired := fun member => apart pTimer member rfl
      rw [if_neg absent, if_pos List.mem_cons_self]
      exact Function.update_self _ _ _
    · rw [fireTop_timers_of_ne different]
      simp only [List.mem_cons, different, false_or]

/-- A turn that fires takes the timer on top out without skipping a lone child. -/
def ComparesLoneChild (system : TimerSystem) : Action → Prop
  | .timerTask current => ∀ top ∈ system.minHeap.heap 0, system.DueOnTop top current →
      ¬ system.minHeap.SkipsLoneChild system.whenToFire
  | _ => True

instance (system : TimerSystem) (action : Action) : Decidable (system.ComparesLoneChild action) :=
  match action with
  | .timerTask _ => Option.decidableForallMem _
  | .new .. | .schedule .. | .cancel .. | .restart .. | .stop .. | .delete ..
  | .deliver .. => isTrue trivial

/-- The heap is in order by the firing times of its timers. -/
def InOrder (system : TimerSystem) : Prop := system.minHeap.PriorityQueue system.whenToFire

instance (system : TimerSystem) : Decidable system.InOrder :=
  decidable_of_iff
    (system.minHeap.numberOfTimersBeingManaged ≤ MAX_NUMBER_OF_TIMERS ∧
      (∀ index < system.minHeap.numberOfTimersBeingManaged,
        (system.minHeap.heap index).isSome) ∧
      ∀ index < system.minHeap.numberOfTimersBeingManaged, 0 < index →
        system.minHeap.keyAt system.whenToFire (parent index) ≤
          system.minHeap.keyAt system.whenToFire index)
    ⟨fun ⟨room, filled, ordered⟩ => ⟨room, filled, fun index positive bound =>
        ordered index bound positive⟩,
      fun inOrder => ⟨inOrder.room, inOrder.filled, fun index bound positive =>
        inOrder.ordered index positive bound⟩⟩

/-- Firing the top keeps the heap in order when the removal does. -/
theorem InOrder.fireTop {top : UInt64} {heap : TimerMinHeap UInt64} {result : Result}
    (inOrder : system.InOrder) (onTop : system.DueOnTop top current)
    (compared : system.ComparesLoneChild (.timerTask current))
    (removed : system.minHeap.removeFromHeap MAX_NUMBER_OF_TIMERS system.whenToFire top =
      some (result, heap)) (pTimerPool : MemoryPool) :
    (system.fireTop pTimerPool top heap current).InOrder := by
  obtain ⟨other, after, holds, called, _, _, queue⟩ :=
    PriorityQueue.removeTop inOrder onTop.positive (compared top onTop.holds onTop)
  cases onTop.holds.symm.trans holds
  have same : after = heap := by
    rw [callHeap, if_neg (Nat.ne_of_gt onTop.positive), onTop.holds, Option.bind_some,
      removed] at called
    exact (Option.some.inj called).symm
  unfold InOrder
  rw [fireTop_whenToFire, ← same]
  exact queue

/-- The timer on top of a heap in order is due first. -/
theorem InOrder.le {top pTimer : UInt64} (inOrder : system.InOrder)
    (holds : system.minHeap.heap 0 = some top) (member : some pTimer ∈ system.minHeap.contents) :
    (system.whenToFire top).toNat ≤ (system.whenToFire pTimer).toNat := by
  obtain ⟨index, bound, stored⟩ := mem_contents.mp member
  have earliest := inOrder.topIsEarliest.earliest index bound
  rwa [keyAt_of_eq_some holds, keyAt_of_eq_some stored] at earliest

/-- As many turns at one time as there are timers leave nothing due on top. They fire in
order, and leave the heap in order, if it was and no turn skips a lone child. -/
theorem AllActive.turns {turns : Nat} (allActive : system.AllActive)
    (wellFormed : system.WellFormed pShm)
    (enough : system.minHeap.numberOfTimersBeingManaged ≤ turns) :
    ∃ fired final, exec (step (timerPool pShm)) system
        (List.replicate turns (.timerTask current)) = some final ∧
      Expired (timerPool pShm) current system fired final ∧ final.Settled current ∧
      (system.InOrder → Along (step (timerPool pShm)) ComparesLoneChild system
          (List.replicate turns (.timerTask current)) →
        final.InOrder ∧ fired.Pairwise fun earlier later =>
          (system.whenToFire earlier).toNat ≤ (system.whenToFire later).toNat) := by
  induction turns generalizing system with
  | zero =>
      exact ⟨[], system, rfl, .nothing _ system system.clock,
        settled_of_empty (Nat.le_zero.mp enough),
        fun inOrder _ => ⟨inOrder, List.Pairwise.nil⟩⟩
  | succ turns ih =>
      by_cases settled : system.Settled current
      · obtain ⟨clock, ran⟩ := settled.rest wellFormed (turns + 1)
        exact ⟨[], _, ran, .nothing _ system clock,
          fun top onTop => settled top ⟨onTop.positive, onTop.holds, onTop.due⟩,
          fun inOrder _ => ⟨inOrder, List.Pairwise.nil⟩⟩
      · obtain ⟨top, onTop⟩ := not_forall_not.mp settled
        obtain ⟨result, heap, removed, fires, count, contents⟩ :=
          timerTask_fires wellFormed onTop (allActive.active top onTop.mem)
        have fewer : heap.numberOfTimersBeingManaged ≤ turns := by omega
        obtain ⟨fired, final, ran, expired, quiet, sorted⟩ :=
          ih (allActive.fireTop contents (timerPool pShm)) (wellFormed.step fires) fewer
        refine ⟨top :: fired, final, exec_cons_eq_some.mpr ⟨_, fires, ran⟩,
          expired.cons allActive onTop contents, quiet, fun inOrder compared => ?_⟩
        obtain ⟨here, rest⟩ := along_cons.mp compared
        obtain ⟨ordered, later⟩ :=
          sorted (inOrder.fireTop onTop here removed _) (rest _ fires)
        rw [fireTop_whenToFire] at later
        refine ⟨ordered, List.Pairwise.cons (fun pTimer member => ?_) later⟩
        have remains : heap.contents = fired.map some + final.minHeap.contents := expired.contents
        refine inOrder.le onTop.holds ?_
        rw [contents, remains]
        exact Multiset.mem_cons_of_mem
          (Multiset.mem_add.mpr (Or.inl (Multiset.mem_coe.mpr (List.mem_map_of_mem member))))

/-- Expiring leaves the firing times. -/
theorem Expired.whenToFire {pTimerPool : MemoryPool} {fired : List UInt64}
    (expired : Expired pTimerPool current system fired final) :
    final.whenToFire = system.whenToFire := by
  funext pTimer
  unfold TimerSystem.whenToFire
  rw [expired.timers pTimer]
  split_ifs <;> rfl

/-- When all timers are due, none of them stays behind. -/
theorem Expired.all {pTimerPool : MemoryPool} {fired : List UInt64}
    (expired : Expired pTimerPool current system fired final) (settled : final.Settled current)
    (wellFormed : final.WellFormed pShm)
    (due : ∀ pTimer, some pTimer ∈ system.minHeap.contents →
      (system.whenToFire pTimer).toNat ≤ current.toNat) :
    final.minHeap.numberOfTimersBeingManaged = 0 := by
  by_contra some
  have positive := Nat.pos_of_ne_zero some
  obtain ⟨top, holds⟩ := Option.isSome_iff_exists.mp (wellFormed.managed.filled 0 positive)
  refine settled top ⟨positive, holds, ?_⟩
  rw [expired.whenToFire]
  refine due top ?_
  rw [expired.contents]
  exact Multiset.mem_add.mpr (Or.inr (mem_contents.mpr ⟨0, positive, holds⟩))

/-- Of a heap that is in order at the end, exactly the due timers have left. -/
theorem Expired.mem_iff {pTimerPool : MemoryPool} {fired : List UInt64} {pTimer : UInt64}
    (expired : Expired pTimerPool current system fired final) (settled : final.Settled current)
    (inOrder : final.InOrder) (member : some pTimer ∈ system.minHeap.contents) :
    pTimer ∈ fired ↔ (system.whenToFire pTimer).toNat ≤ current.toNat := by
  refine ⟨expired.due pTimer, fun due => ?_⟩
  rw [expired.contents] at member
  rcases Multiset.mem_add.mp member with left | stays
  · obtain ⟨other, listed, same⟩ := List.mem_map.mp (Multiset.mem_coe.mp left)
    exact Option.some.inj same ▸ listed
  · obtain ⟨index, bound, _⟩ := mem_contents.mp stays
    have positive : 0 < final.minHeap.numberOfTimersBeingManaged := by omega
    obtain ⟨top, holds⟩ := Option.isSome_iff_exists.mp (inOrder.filled 0 positive)
    have earlier := inOrder.le holds stays
    rw [expired.whenToFire] at earlier
    refine absurd ⟨positive, holds, ?_⟩ (settled top)
    rw [expired.whenToFire]
    exact earlier.trans due

/-- Under plain clients every timer in the heap is active and there once. -/
theorem PlainClients.allActive (plainClients : system.PlainClients pShm) : system.AllActive where
  distinct := plainClients.represented.distinct
  active pTimer member := by
    have present := occurrences_pos_iff.mpr member
    exact ((plainClients.situations pTimer).waiting_of_occurrences present).2.1

/-- Every plain run leads to a state of plain clients. -/
theorem exec_plainClients {actions : List Action}
    (plain : Along (step (timerPool pShm)) (PlainStep (timerPool pShm))
      (initial (timerPool pShm)) actions)
    (reached : exec (step (timerPool pShm)) (initial (timerPool pShm)) actions = some system) :
    system.PlainClients pShm :=
  exec_invariant (fun _ _ _ plainClients admitted taken =>
      PlainClients.transition plainClients (step_transition plainClients.wellFormed taken) admitted)
    (initial_plainClients pShm) plain reached

/-- After any run of plain clients, as many turns at one time as there are timers in the
heap fire timers that are due, each of them once, until none that is due is on top. When
all of them are due, all of them fire. -/
theorem plainTimers_fire (pShm : UInt64) (actions : List Action) (system : TimerSystem)
    (current : UInt64)
    (plain : Along (step (timerPool pShm)) (PlainStep (timerPool pShm))
      (initial (timerPool pShm)) actions)
    (reached : exec (step (timerPool pShm)) (initial (timerPool pShm)) actions = some system) :
    ∃ fired final, exec (step (timerPool pShm)) system (List.replicate
        system.minHeap.numberOfTimersBeingManaged (.timerTask current)) = some final ∧
      Expired (timerPool pShm) current system fired final ∧ final.Settled current ∧
      ((∀ pTimer, some pTimer ∈ system.minHeap.contents →
          (system.whenToFire pTimer).toNat ≤ current.toNat) →
        final.minHeap.numberOfTimersBeingManaged = 0) := by
  have clients := exec_plainClients plain reached
  obtain ⟨fired, final, ran, expired, settled, _⟩ :=
    clients.allActive.turns clients.wellFormed le_rfl
  have wellFormed : final.WellFormed pShm := exec_invariant_of_step
    (fun _ _ _ holds taken => WellFormed.step holds taken) clients.wellFormed ran
  exact ⟨fired, final, ran, expired, settled, expired.all settled wellFormed⟩

/-- A one-shot and a periodic timer, both due. -/
theorem plainTimers_fire_two : ∃ system,
    exec (step (timerPool 0)) (initial (timerPool 0))
      [.new none, .new none,
        .schedule (timerAt 0) (.scheduleOneShotAtTimeout (some 0) 5 0) 0 0,
        .schedule (timerAt 1) (.schedulePeriodicAtTimeout (some 1) 7 3) 0 0] = some system ∧
    ∃ fired final, exec (step (timerPool 0)) system (List.replicate
        system.minHeap.numberOfTimersBeingManaged (.timerTask 9)) = some final ∧
      Expired (timerPool 0) 9 system fired final ∧ final.Settled 9 ∧
      ((∀ pTimer, some pTimer ∈ system.minHeap.contents →
          (system.whenToFire pTimer).toNat ≤ (9 : UInt64).toNat) →
        final.minHeap.numberOfTimersBeingManaged = 0) := by
  have ran : (exec (step (timerPool 0)) (initial (timerPool 0))
      [.new none, .new none,
        .schedule (timerAt 0) (.scheduleOneShotAtTimeout (some 0) 5 0) 0 0,
        .schedule (timerAt 1) (.schedulePeriodicAtTimeout (some 1) 7 3) 0 0]).isSome := by
    decide +kernel
  obtain ⟨system, reached⟩ := Option.isSome_iff_exists.mp ran
  exact ⟨system, reached, plainTimers_fire 0 _ system 9 (by decide +kernel) reached⟩

/-- From any reachable state whose heap is in order and holds distinct active timers, as
many turns at one time as there are timers fire exactly those that are due, in the order
of their firing times, unless a turn skips a lone child. -/
theorem dueTimers_fire_inOrder (pShm : UInt64) (system : TimerSystem) (current : UInt64)
    (reached : Reached pShm system) (allActive : system.AllActive) (inOrder : system.InOrder)
    (compared : Along (step (timerPool pShm)) ComparesLoneChild system (List.replicate
      system.minHeap.numberOfTimersBeingManaged (.timerTask current))) :
    ∃ fired final, exec (step (timerPool pShm)) system (List.replicate
        system.minHeap.numberOfTimersBeingManaged (.timerTask current)) = some final ∧
      Expired (timerPool pShm) current system fired final ∧
      (fired.Pairwise fun earlier later =>
        (system.whenToFire earlier).toNat ≤ (system.whenToFire later).toNat) ∧
      ∀ pTimer, some pTimer ∈ system.minHeap.contents →
        (pTimer ∈ fired ↔ (system.whenToFire pTimer).toNat ≤ current.toNat) := by
  obtain ⟨fired, final, ran, expired, settled, sorted⟩ :=
    allActive.turns reached.wellFormed le_rfl
  obtain ⟨ordered, pairwise⟩ := sorted inOrder compared
  exact ⟨fired, final, ran, expired, pairwise, fun _ => expired.mem_iff settled ordered⟩

/-- Three timers, two of them due, the last of which was scheduled first. -/
theorem dueTimers_fire_inOrder_three : ∃ system, Reached 0 system ∧
    ∃ fired final, exec (step (timerPool 0)) system (List.replicate
        system.minHeap.numberOfTimersBeingManaged (.timerTask 6)) = some final ∧
      Expired (timerPool 0) 6 system fired final ∧
      (fired.Pairwise fun earlier later =>
        (system.whenToFire earlier).toNat ≤ (system.whenToFire later).toNat) ∧
      ∀ pTimer, some pTimer ∈ system.minHeap.contents →
        (pTimer ∈ fired ↔ (system.whenToFire pTimer).toNat ≤ (6 : UInt64).toNat) := by
  let actions : List Action := [.new none, .new none, .new none,
    .schedule (timerAt 0) (.scheduleOneShotAtTimeout (some 0) 5 0) 0 0,
    .schedule (timerAt 1) (.scheduleOneShotAtTimeout (some 1) 9 0) 0 0,
    .schedule (timerAt 2) (.schedulePeriodicAtTimeout (some 2) 3 0) 0 0]
  have plain : Along (step (timerPool 0)) (PlainStep (timerPool 0)) (initial (timerPool 0))
      actions := by
    decide +kernel
  have checked : (exec (step (timerPool 0)) (initial (timerPool 0)) actions).map
      (fun system => decide (system.InOrder ∧ Along (step (timerPool 0)) ComparesLoneChild system
        (List.replicate system.minHeap.numberOfTimersBeingManaged (.timerTask 6)))) =
      some true := by
    decide +kernel
  obtain ⟨system, reached, holds⟩ := Option.map_eq_some_iff.mp checked
  obtain ⟨inOrder, compared⟩ := of_decide_eq_true holds
  have allActive := (exec_plainClients plain reached).allActive
  exact ⟨system, ⟨actions, reached⟩,
    dueTimers_fire_inOrder 0 system 6 ⟨actions, reached⟩ allActive inOrder compared⟩

end TimerSystem

end TimerAndCallback
