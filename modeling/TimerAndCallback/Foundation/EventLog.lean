import Mathlib

/-! # Computations that log events

A computation answers a value or fails, and leaves the events it gave rise to behind,
in order. What holds of every event, and how many there are of a kind, is put together
along the computation: one rule for each way of building it.
-/

universe u v

/-- A computation that may fail, with the events of its run. -/
structure Logged (Event : Type u) (Value : Type v) where
  outcome : Option Value
  events : List Event

namespace Logged

variable {Event : Type u} {Value Result : Type v}

/-- What follows a computation runs when that has answered. -/
def andThen (computation : Logged Event Value) (next : Value → Logged Event Result) :
    Logged Event Result :=
  match computation.outcome with
  | none => ⟨none, computation.events⟩
  | some value => ⟨(next value).outcome, computation.events ++ (next value).events⟩

instance : Monad (Logged Event) where
  pure value := ⟨some value, []⟩
  bind := andThen

/-- Leave events behind, and nothing else. -/
def emit (events : List Event) : Logged Event Unit := ⟨some (), events⟩

@[simp] theorem outcome_pure (value : Value) :
    (pure value : Logged Event Value).outcome = some value := rfl

@[simp] theorem outcome_emit (events : List Event) : (emit events).outcome = some () := rfl

@[simp] theorem outcome_bind (computation : Logged Event Value)
    (next : Value → Logged Event Result) :
    (computation >>= next).outcome =
      computation.outcome.bind fun value => (next value).outcome := by
  change (computation.andThen next).outcome = _
  unfold andThen
  cases computation.outcome <;> rfl

/-- The events of a sequence are those of its first part, followed by those of its
second part if there is one. -/
theorem mem_events_bind {computation : Logged Event Value} {next : Value → Logged Event Result}
    {event : Event} (member : event ∈ (computation >>= next).events) :
    event ∈ computation.events ∨
      ∃ value, computation.outcome = some value ∧ event ∈ (next value).events := by
  change event ∈ (computation.andThen next).events at member
  unfold andThen at member
  cases answered : computation.outcome with
  | none =>
      rw [answered] at member
      exact Or.inl member
  | some value =>
      rw [answered] at member
      exact (List.mem_append.mp member).imp_right fun later => ⟨value, rfl, later⟩

/-- Every event of the run is allowed. -/
def Only (allowed : Event → Prop) (computation : Logged Event Value) : Prop :=
  ∀ event ∈ computation.events, allowed event

variable {allowed : Event → Prop}

/-- A computation that does nothing logs nothing. -/
theorem only_pure (value : Value) : Only allowed (pure value : Logged Event Value) :=
  fun _ member => absurd member List.not_mem_nil

/-- Allowed events may be logged. -/
theorem only_emit {events : List Event} (all : ∀ event ∈ events, allowed event) :
    Only allowed (emit events) := all

/-- Two computations in a row log allowed events when both do. -/
theorem Only.bind {computation : Logged Event Value} {next : Value → Logged Event Result}
    (here : computation.Only allowed)
    (after : ∀ value, computation.outcome = some value → (next value).Only allowed) :
    (computation >>= next).Only allowed := by
  intro event member
  rcases mem_events_bind member with front | ⟨value, answered, back⟩
  · exact here event front
  · exact after value answered event back

/-- More events may be allowed. -/
theorem Only.mono {weaker : Event → Prop} {computation : Logged Event Value}
    (only : computation.Only allowed) (implied : ∀ event, allowed event → weaker event) :
    computation.Only weaker :=
  fun event member => implied event (only event member)

variable {counted : Event → Bool}

/-- Every event of the run is allowed, and at most `bound` of them are counted. -/
structure Footprint (allowed : Event → Prop) (counted : Event → Bool) (bound : Nat)
    (computation : Logged Event Value) : Prop where
  only : computation.Only allowed
  atMost : computation.events.countP counted ≤ bound

/-- A computation that does nothing has no footprint. -/
theorem footprint_pure (value : Value) :
    Footprint allowed counted 0 (pure value : Logged Event Value) := ⟨only_pure value, le_rfl⟩

/-- Events that may not be counted add nothing. -/
theorem Only.footprint {computation : Logged Event Value}
    (only : computation.Only fun event => allowed event ∧ counted event = false) :
    computation.Footprint allowed counted 0 where
  only event member := (only event member).1
  atMost := by
    refine Nat.le_of_eq (List.countP_eq_zero.mpr fun event member => ?_)
    rw [(only event member).2]
    exact Bool.false_ne_true

/-- A footprint stays within a larger bound. -/
theorem Footprint.mono {fewer bound : Nat} {computation : Logged Event Value}
    (footprint : computation.Footprint allowed counted fewer) (le : fewer ≤ bound) :
    computation.Footprint allowed counted bound :=
  ⟨footprint.only, footprint.atMost.trans le⟩

/-- A choice is within the bound of both its branches. -/
theorem Footprint.ite {condition : Prop} [Decidable condition] {bound : Nat}
    {first second : Logged Event Value}
    (holds : condition → first.Footprint allowed counted bound)
    (fails : ¬ condition → second.Footprint allowed counted bound) :
    (if condition then first else second).Footprint allowed counted bound := by
  by_cases decided : condition
  · rw [if_pos decided]
    exact holds decided
  · rw [if_neg decided]
    exact fails decided

/-- The bounds of two computations in a row add up. -/
theorem Footprint.bind {front back : Nat} {computation : Logged Event Value}
    {next : Value → Logged Event Result}
    (here : computation.Footprint allowed counted front)
    (after : ∀ value, computation.outcome = some value →
      (next value).Footprint allowed counted back) :
    (computation >>= next).Footprint allowed counted (front + back) where
  only := here.only.bind fun value answered => (after value answered).only
  atMost := by
    change (computation.andThen next).events.countP counted ≤ front + back
    unfold andThen
    cases answered : computation.outcome with
    | none => exact here.atMost.trans (Nat.le_add_right _ _)
    | some value =>
        rw [List.countP_append]
        exact Nat.add_le_add here.atMost (after value answered).atMost

/-- A first part that counts nothing leaves the bound to the second. -/
theorem Footprint.bind_free {bound : Nat} {computation : Logged Event Value}
    {next : Value → Logged Event Result}
    (here : computation.Footprint allowed counted 0)
    (after : ∀ value, computation.outcome = some value →
      (next value).Footprint allowed counted bound) :
    (computation >>= next).Footprint allowed counted bound :=
  (here.bind after).mono (Nat.zero_add bound).le

end Logged
