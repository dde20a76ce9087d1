import TimerAndCallback.Foundation.Execution

/-! # A service of alarms

What a timer service is for. An alarm is armed with a delay. It fires when it is due, and
rings when its owner answers that; the next delay starts then. It rings as often as was
asked, and its name is free again after the last ring. The service may be late, but not
early.
-/

namespace AlarmService

open Execution

universe u

variable {Name : Type u}

/-- When an alarm is due, the delay after a ring, and how often it rings again after the
next time, if that is limited. -/
structure Alarm where
  due : Nat
  period : Nat
  more : Option Nat

inductive Status
  | free
  | idle
  | waiting (alarm : Alarm)
  | fired (alarm : Alarm)

/-- `rung` is how often the alarm of a name rang since the name was handed out. -/
structure Service (Name : Type u) where
  now : Nat
  status : Name → Status
  rung : Name → Nat

inductive Event (Name : Type u)
  | allocate (name : Name)
  | arm (name : Name) (now delay period : Nat) (more : Option Nat)
  | fire (name : Name) (now : Nat)
  | ring (name : Name) (now : Nat)
  deriving DecidableEq

/-- No name is in use. -/
def start : Service Name := ⟨0, fun _ => .free, fun _ => 0⟩

/-- What a ring leaves of an alarm. -/
def Alarm.rung (alarm : Alarm) (now : Nat) : Status :=
  match alarm.more with
  | some 0 => .free
  | some (more + 1) => .waiting ⟨now + alarm.period, alarm.period, some more⟩
  | none => .waiting ⟨now + alarm.period, alarm.period, none⟩

def Service.put [DecidableEq Name] (service : Service Name) (name : Name) (now : Nat)
    (status : Status) (rung : Nat) : Service Name :=
  ⟨now, Function.update service.status name status, Function.update service.rung name rung⟩

/-- What the service allows. Time does not go back. -/
def step [DecidableEq Name] (service : Service Name) : Event Name → Option (Service Name)
  | .allocate name =>
      match service.status name with
      | .free => some (service.put name service.now .idle 0)
      | _ => none
  | .arm name now delay period more =>
      match service.status name with
      | .idle =>
          if service.now ≤ now then
            some (service.put name now (.waiting ⟨now + delay, period, more⟩) (service.rung name))
          else none
      | _ => none
  | .fire name now =>
      match service.status name with
      | .waiting alarm =>
          if service.now ≤ now ∧ alarm.due ≤ now then
            some (service.put name now (.fired alarm) (service.rung name))
          else none
      | _ => none
  | .ring name now =>
      match service.status name with
      | .fired alarm =>
          if service.now ≤ now then
            some (service.put name now (alarm.rung now) (service.rung name + 1))
          else none
      | _ => none

section Rings

variable [DecidableEq Name] {service next final : Service Name} {name other : Name}
variable {event : Event Name}

@[simp] theorem put_status_self (now : Nat) (status : Status) (rung : Nat) :
    (service.put name now status rung).status name = status := Function.update_self _ _ _

/-- Writing one name leaves the status of the others. -/
theorem put_status_of_ne (apart : other ≠ name) (now : Nat) (status : Status) (rung : Nat) :
    (service.put name now status rung).status other = service.status other :=
  Function.update_of_ne apart _ _

@[simp] theorem put_rung_self (now : Nat) (status : Status) (rung : Nat) :
    (service.put name now status rung).rung name = rung := Function.update_self _ _ _

/-- Writing one name leaves the rings of the others. -/
theorem put_rung_of_ne (apart : other ≠ name) (now : Nat) (status : Status) (rung : Nat) :
    (service.put name now status rung).rung other = service.rung other :=
  Function.update_of_ne apart _ _

@[simp] theorem put_now (now : Nat) (status : Status) (rung : Nat) :
    (service.put name now status rung).now = now := rfl

/-- Every way the service can move. -/
inductive Taken (service : Service Name) : Event Name → Service Name → Prop
  | allocate (name : Name) (free : service.status name = .free) :
      Taken service (.allocate name) (service.put name service.now .idle 0)
  | arm (name : Name) (now delay period : Nat) (more : Option Nat)
      (idle : service.status name = .idle) (later : service.now ≤ now) :
      Taken service (.arm name now delay period more)
        (service.put name now (.waiting ⟨now + delay, period, more⟩) (service.rung name))
  | fire (name : Name) (now : Nat) (alarm : Alarm) (waiting : service.status name = .waiting alarm)
      (later : service.now ≤ now) (due : alarm.due ≤ now) :
      Taken service (.fire name now) (service.put name now (.fired alarm) (service.rung name))
  | ring (name : Name) (now : Nat) (alarm : Alarm) (fired : service.status name = .fired alarm)
      (later : service.now ≤ now) :
      Taken service (.ring name now)
        (service.put name now (alarm.rung now) (service.rung name + 1))

/-- The steps of the service are those that may be taken. -/
theorem step_eq_some : step service event = some next ↔ Taken service event next := by
  constructor
  · intro moved
    cases event with
    | allocate name =>
        cases here : service.status name <;> simp only [step, here, reduceCtorEq] at moved
        cases moved
        exact .allocate name here
    | arm name now delay period more =>
        cases here : service.status name <;>
          simp only [step, here, reduceCtorEq, Option.ite_none_right_eq_some] at moved
        obtain ⟨later, result⟩ := moved
        cases result
        exact .arm name now delay period more here later
    | fire name now =>
        cases here : service.status name <;>
          simp only [step, here, reduceCtorEq, Option.ite_none_right_eq_some] at moved
        obtain ⟨⟨later, due⟩, result⟩ := moved
        cases result
        exact .fire name now _ here later due
    | ring name now =>
        cases here : service.status name <;>
          simp only [step, here, reduceCtorEq, Option.ite_none_right_eq_some] at moved
        obtain ⟨later, result⟩ := moved
        cases result
        exact .ring name now _ here later
  · intro taken
    cases taken with
    | allocate name free => simp only [step, free]
    | arm name now delay period more idle later => simp only [step, idle, if_pos later]
    | fire name now alarm waiting later due =>
        simp only [step, waiting, later, due, and_self, if_true]
    | ring name now alarm fired later => simp only [step, fired, if_pos later]

/-- The event is a ring of this alarm. -/
def Rings (name : Name) : Event Name → Bool
  | .ring other _ => decide (other = name)
  | _ => false

/-- How far an alarm is that was first due at `first`. -/
inductive Progress (first period : Nat) (more : Option Nat) (rung now : Nat) : Status → Prop
  | finished (limit : Nat) (limited : more = some limit) (done : rung = limit + 1) :
      Progress first period more rung now .free
  | waiting (alarm : Alarm) (due : first + rung * period ≤ alarm.due)
      (same : alarm.period = period) (left : more = alarm.more.map (· + rung)) :
      Progress first period more rung now (.waiting alarm)
  | fired (alarm : Alarm) (due : first + rung * period ≤ alarm.due) (reached : alarm.due ≤ now)
      (same : alarm.period = period) (left : more = alarm.more.map (· + rung)) :
      Progress first period more rung now (.fired alarm)

variable {first period rung : Nat} {more : Option Nat}

/-- Progress stays as time passes. -/
theorem Progress.later {now later : Nat} {status : Status}
    (progress : Progress first period more rung now status) (after : now ≤ later) :
    Progress first period more rung later status := by
  cases progress with
  | finished limit limited done => exact .finished limit limited done
  | waiting alarm due same left => exact .waiting alarm due same left
  | fired alarm due reached same left => exact .fired alarm due (reached.trans after) same left

/-- A ring counts, and comes no sooner than it may. -/
theorem Progress.ring {now later : Nat} {alarm : Alarm}
    (progress : Progress first period more rung now (.fired alarm)) (after : now ≤ later) :
    first + rung * period ≤ later ∧ (∀ limit, more = some limit → rung ≤ limit) ∧
      Progress first period more (rung + 1) later (alarm.rung later) := by
  cases progress with
  | fired alarm due reached same left =>
      have spent : first + rung * period ≤ later := (due.trans reached).trans after
      have next : first + (rung + 1) * period ≤ later + alarm.period := by
        rw [same, Nat.succ_mul, ← Nat.add_assoc]
        exact Nat.add_le_add_right spent period
      refine ⟨spent, fun limit limited => ?_, ?_⟩
      · obtain ⟨rest, _, rfl⟩ := Option.map_eq_some_iff.mp (left.symm.trans limited)
        exact Nat.le_add_left _ _
      · unfold Alarm.rung
        cases remaining : alarm.more with
        | none =>
            rw [remaining] at left
            exact .waiting _ next same left
        | some rest =>
            rw [remaining] at left
            cases rest with
            | zero => exact .finished rung (by rw [left, Option.map_some, Nat.zero_add]) rfl
            | succ rest =>
                refine .waiting _ next same (left.trans ?_)
                simp only [Option.map_some, Option.some.injEq]
                omega

/-- Time passes for the other alarms. -/
theorem Progress.frame {now count : Nat} {status : Status} (apart : name ≠ other)
    (progress : Progress first period more rung service.now (service.status name))
    (later : service.now ≤ now) :
    Progress first period more rung (service.put other now status count).now
      ((service.put other now status count).status name) := by
  rw [put_status_of_ne apart, put_now]
  exact progress.later later

/-- A move of the service, which does not hand out the name anew. -/
theorem Progress.step (progress : Progress first period more rung service.now (service.status name))
    (taken : Taken service event next) (kept : event ≠ .allocate name) :
    Progress first period more (rung + if Rings name event then 1 else 0) next.now
      (next.status name) := by
  cases taken with
  | allocate other free =>
      have apart : name ≠ other := fun same => kept (same ▸ rfl)
      exact progress.frame apart le_rfl
  | arm other now delay period more idle later =>
      have apart : name ≠ other := by
        rintro rfl
        rw [idle] at progress
        cases progress
      exact progress.frame apart later
  | fire other now alarm waiting later due =>
      by_cases same : name = other
      · subst same
        rw [waiting] at progress
        rw [put_status_self, put_now]
        cases progress with
        | waiting alarm first same left => exact .fired alarm first due same left
      · exact progress.frame same later
  | ring other now alarm fired later =>
      by_cases same : name = other
      · subst same
        rw [fired] at progress
        rw [put_status_self, put_now, Rings, decide_eq_true rfl, if_pos rfl]
        exact (progress.ring later).2.2
      · rw [Rings, decide_eq_false (Ne.symm same), if_neg Bool.false_ne_true]
        exact progress.frame same later

/-- Along a run the service keeps to the schedule and counts every ring. -/
theorem Progress.exec {events : List (Event Name)}
    (progress : Progress first period more rung service.now (service.status name))
    (kept : .allocate name ∉ events)
    (ran : Execution.exec AlarmService.step service events = some final) :
    Progress first period more (rung + events.countP (Rings name)) final.now
      (final.status name) := by
  induction events generalizing service rung with
  | nil =>
      cases ran
      exact progress
  | cons event events ih =>
      obtain ⟨next, moved, rest⟩ := exec_cons_eq_some.mp ran
      obtain ⟨here, there⟩ := not_or.mp (mt List.mem_cons.mpr kept)
      have after := ih (progress.step (step_eq_some.mp moved) (Ne.symm here)) there rest
      rw [List.countP_cons, Nat.add_comm (events.countP _), ← Nat.add_assoc]
      exact after

/-- Where an alarm stands after it was armed. -/
theorem progress_of_armed {front middle : List (Event Name)} {now delay : Nat}
    (ran : exec step service (front ++ .arm name now delay period more :: middle) = some final)
    (kept : .allocate name ∉ middle) :
    Progress (now + delay) period more (middle.countP (Rings name)) final.now
      (final.status name) := by
  obtain ⟨before, _, rest⟩ := exec_append_eq_some.mp ran
  obtain ⟨armed, moved, rest⟩ := exec_cons_eq_some.mp rest
  cases step_eq_some.mp moved with
  | arm _ _ _ _ _ idle later =>
      have begun : Progress (now + delay) period more 0
          (before.put name now (.waiting ⟨now + delay, period, more⟩) (before.rung name)).now
          ((before.put name now (.waiting ⟨now + delay, period, more⟩) (before.rung name)).status
            name) := by
        rw [put_status_self]
        refine .waiting _ ?_ rfl Option.map_id'.symm
        rw [Nat.zero_mul, Nat.add_zero]
      have after := begun.exec kept rest
      rwa [Nat.zero_add] at after

/-- No ring of an alarm comes before its delay and a period for each earlier ring have
passed, and it does not ring more often than was asked. -/
theorem ring_spaced {front middle rest : List (Event Name)} {now delay late : Nat}
    (ran : exec step service
      (front ++ .arm name now delay period more :: (middle ++ .ring name late :: rest)) =
        some final)
    (kept : .allocate name ∉ middle) :
    now + delay + middle.countP (Rings name) * period ≤ late ∧
      ∀ limit, more = some limit → middle.countP (Rings name) ≤ limit := by
  rw [← List.cons_append, ← List.append_assoc] at ran
  obtain ⟨before, reached, rest⟩ := exec_append_eq_some.mp ran
  obtain ⟨after, moved, _⟩ := exec_cons_eq_some.mp rest
  have progress := progress_of_armed reached kept
  cases step_eq_some.mp moved with
  | ring _ _ alarm fired later =>
      rw [fired] at progress
      exact ⟨(progress.ring later).1, (progress.ring later).2.1⟩

/-- A name is handed out anew only when its alarm has rung as often as was asked. -/
theorem reallocated_done {front middle rest : List (Event Name)} {now delay : Nat}
    (ran : exec step service
      (front ++ .arm name now delay period more :: (middle ++ .allocate name :: rest)) =
        some final)
    (kept : .allocate name ∉ middle) :
    ∃ limit, more = some limit ∧ middle.countP (Rings name) = limit + 1 := by
  rw [← List.cons_append, ← List.append_assoc] at ran
  obtain ⟨before, reached, rest⟩ := exec_append_eq_some.mp ran
  obtain ⟨after, moved, _⟩ := exec_cons_eq_some.mp rest
  have progress := progress_of_armed reached kept
  cases step_eq_some.mp moved with
  | allocate _ free =>
      rw [free] at progress
      cases progress with
      | finished limit limited done => exact ⟨limit, limited, done⟩

end Rings

end AlarmService
