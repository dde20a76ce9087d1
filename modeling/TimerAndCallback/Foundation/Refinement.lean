import TimerAndCallback.Foundation.Execution

/-! # Forward simulation

A step of a concrete system is matched by finitely many steps of an abstract one, or
by none. Executions are then matched too. Where the matching steps are what the concrete
step shows, the abstract system allows all that an execution shows.
-/

namespace Execution

universe u v w x

variable {Concrete : Type u} {Label : Type v} {Abstract : Type w} {Event : Type x}
variable {step : Concrete → Label → Option Concrete} {spec : Abstract → Event → Option Abstract}
variable {admits : Concrete → Label → Prop} {allows : Abstract → Event → Prop}
variable {related : Concrete → Abstract → Prop}

/-- From related states, an admitted concrete step is matched by an execution of
allowed abstract steps that ends in a related state. -/
def Simulates (step : Concrete → Label → Option Concrete)
    (spec : Abstract → Event → Option Abstract) (admits : Concrete → Label → Prop)
    (allows : Abstract → Event → Prop) (related : Concrete → Abstract → Prop) : Prop :=
  ∀ concrete label next abstract, related concrete abstract → admits concrete label →
    step concrete label = some next →
      ∃ events after, Along spec allows abstract events ∧
        exec spec abstract events = some after ∧ related next after

/-- An admitted execution is matched from any related state. -/
theorem Simulates.exec (simulates : Simulates step spec admits allows related)
    {concrete final : Concrete} {abstract : Abstract} {labels : List Label}
    (start : related concrete abstract) (along : Along step admits concrete labels)
    (reached : Execution.exec step concrete labels = some final) :
    ∃ events after, Along spec allows abstract events ∧
      Execution.exec spec abstract events = some after ∧ related final after := by
  induction labels generalizing concrete abstract with
  | nil => exact ⟨[], abstract, trivial, rfl, Option.some.inj reached ▸ start⟩
  | cons label labels ih =>
      obtain ⟨admitted, rest⟩ := along_cons.mp along
      obtain ⟨next, taken, remaining⟩ := exec_cons_eq_some.mp reached
      obtain ⟨events, middle, allowed, matched, here⟩ :=
        simulates concrete label next abstract start admitted taken
      obtain ⟨more, after, later, continued, settled⟩ := ih here (rest next taken) remaining
      refine ⟨events ++ more, after, along_append.mpr ⟨allowed, fun other same => ?_⟩,
        exec_append_eq_some.mpr ⟨middle, matched, continued⟩, settled⟩
      cases matched.symm.trans same
      exact later

/-- A step that is matched by one allowed abstract step. -/
theorem matched_by_one {next : Concrete} {abstract after : Abstract} {event : Event}
    (allowed : allows abstract event) (taken : spec abstract event = some after)
    (settled : related next after) :
    ∃ events after, Along spec allows abstract events ∧
      Execution.exec spec abstract events = some after ∧ related next after :=
  ⟨[event], after, along_cons.mpr ⟨allowed, fun _ _ => trivial⟩,
    (exec_singleton _ _).trans taken, settled⟩

/-- A step that the abstract system does not see. -/
theorem matched_by_none {next : Concrete} {abstract : Abstract} (settled : related next abstract) :
    ∃ events after, Along spec allows abstract events ∧
      Execution.exec spec abstract events = some after ∧ related next after :=
  ⟨[], abstract, trivial, rfl, settled⟩

/-- What an execution shows, when each of its steps shows some events. -/
def trace (step : Concrete → Label → Option Concrete) (shows : Concrete → Label → List Event) :
    Concrete → List Label → List Event
  | _, [] => []
  | state, label :: labels =>
      shows state label ++
        match step state label with
        | none => []
        | some next => trace step shows next labels

/-- If the abstract system allows what each step shows, it allows what an execution
shows. -/
theorem exec_trace {shows : Concrete → Label → List Event}
    (allowed : ∀ concrete label next abstract, related concrete abstract →
      admits concrete label → step concrete label = some next →
        ∃ after, Execution.exec spec abstract (shows concrete label) = some after ∧
          related next after)
    {concrete final : Concrete} {abstract : Abstract} {labels : List Label}
    (start : related concrete abstract) (along : Along step admits concrete labels)
    (reached : Execution.exec step concrete labels = some final) :
    ∃ after, Execution.exec spec abstract (trace step shows concrete labels) = some after ∧
      related final after := by
  induction labels generalizing concrete abstract with
  | nil => exact ⟨abstract, rfl, Option.some.inj reached ▸ start⟩
  | cons label labels ih =>
      obtain ⟨admitted, rest⟩ := along_cons.mp along
      obtain ⟨next, taken, remaining⟩ := exec_cons_eq_some.mp reached
      obtain ⟨middle, seen, here⟩ := allowed concrete label next abstract start admitted taken
      obtain ⟨after, later, settled⟩ := ih here (rest next taken) remaining
      refine ⟨after, ?_, settled⟩
      rw [trace, taken]
      exact exec_append_eq_some.mpr ⟨middle, seen, later⟩

end Execution
