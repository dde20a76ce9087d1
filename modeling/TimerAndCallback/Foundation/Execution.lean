import Mathlib

/-! # Finite executions of a partial labelled step

A step function answers `none` where the system cannot take the label: the label
is not enabled there, or the step reads or writes memory it must not. A state is
reached by a list of labels when every step along the list is taken.
-/

namespace Execution

universe u v

variable {State : Type u} {Label : Type v}

/-- Take the labels in order; `none` as soon as one of them is not taken. -/
def exec (step : State → Label → Option State) : State → List Label → Option State
  | state, [] => some state
  | state, label :: labels => (step state label).bind fun next => exec step next labels

/-- Every label taken along the execution is admitted at the state it is taken in. -/
def Along (step : State → Label → Option State) (admits : State → Label → Prop) :
    State → List Label → Prop
  | _, [] => True
  | state, label :: labels =>
      admits state label ∧
        match step state label with
        | none => True
        | some next => Along step admits next labels

instance Along.instDecidable (step : State → Label → Option State)
    (admits : State → Label → Prop) [∀ state label, Decidable (admits state label)] :
    ∀ state labels, Decidable (Along step admits state labels)
  | _, [] => isTrue trivial
  | state, label :: labels =>
      have : Decidable (match step state label with
          | none => True
          | some next => Along step admits next labels) :=
        match step state label with
        | none => isTrue trivial
        | some next => Along.instDecidable step admits next labels
      inferInstanceAs (Decidable (_ ∧ _))

variable {step : State → Label → Option State} {admits : State → Label → Prop}

@[simp] theorem exec_nil (state : State) : exec step state [] = some state := rfl

/-- A run of a longer sequence takes its first step first. -/
theorem exec_cons (state : State) (label : Label) (labels : List Label) :
    exec step state (label :: labels) =
      (step state label).bind fun next => exec step next labels := rfl

@[simp] theorem exec_singleton (state : State) (label : Label) :
    exec step state [label] = step state label := Option.bind_fun_some _

/-- An execution that takes a nonempty list takes its head and then its tail. -/
theorem exec_cons_eq_some {state final : State} {label : Label} {labels : List Label} :
    exec step state (label :: labels) = some final ↔
      ∃ next, step state label = some next ∧ exec step next labels = some final := by
  rw [exec_cons, Option.bind_eq_some_iff]

/-- A run of two sequences is the second from where the first ends. -/
theorem exec_append (state : State) (first second : List Label) :
    exec step state (first ++ second) =
      (exec step state first).bind fun middle => exec step middle second := by
  induction first generalizing state with
  | nil => rfl
  | cons label labels ih =>
      rw [List.cons_append, exec_cons, exec_cons, Option.bind_assoc]
      exact congrArg (Option.bind (step state label)) (funext fun next => ih next)

/-- A run of two sequences passes through a middle state. -/
theorem exec_append_eq_some {state final : State} {first second : List Label} :
    exec step state (first ++ second) = some final ↔
      ∃ middle, exec step state first = some middle ∧ exec step middle second = some final := by
  rw [exec_append, Option.bind_eq_some_iff]

/-- The head label is admitted, and so is the tail from wherever the head leads. -/
theorem along_cons {state : State} {label : Label} {labels : List Label} :
    Along step admits state (label :: labels) ↔
      admits state label ∧ ∀ next, step state label = some next →
        Along step admits next labels := by
  cases taken : step state label with
  | none => simp only [Along, taken, reduceCtorEq, false_implies, implies_true]
  | some next => simp only [Along, taken, Option.some.injEq, forall_eq']

/-- A condition holds along two sequences when it holds along the first, and along the second from
where the first ends. -/
theorem along_append {state : State} {first second : List Label} :
    Along step admits state (first ++ second) ↔
      Along step admits state first ∧ ∀ middle, exec step state first = some middle →
        Along step admits middle second := by
  induction first generalizing state with
  | nil => simp only [List.nil_append, exec_nil, Option.some.injEq, forall_eq', Along, true_and]
  | cons label labels ih =>
      simp only [List.cons_append, along_cons, ih, exec_cons_eq_some]
      constructor
      · rintro ⟨admitted, rest⟩
        refine ⟨⟨admitted, fun next taken => (rest next taken).1⟩, ?_⟩
        rintro middle ⟨next, taken, reached⟩
        exact (rest next taken).2 middle reached
      · rintro ⟨⟨admitted, front⟩, back⟩
        exact ⟨admitted, fun next taken =>
          ⟨front next taken, fun middle reached => back middle ⟨next, taken, reached⟩⟩⟩

/-- Labels that every state admits are admitted along every execution. -/
theorem along_of_forall {state : State} {labels : List Label}
    (all : ∀ label ∈ labels, ∀ state, admits state label) : Along step admits state labels := by
  induction labels generalizing state with
  | nil => trivial
  | cons label labels ih =>
      refine along_cons.mpr ⟨all label List.mem_cons_self state, fun next _ => ih ?_⟩
      intro other member
      exact all other (List.mem_cons_of_mem label member)

/-- Two admission conditions along one execution. -/
theorem Along.and {others : State → Label → Prop} {state : State} {labels : List Label}
    (first : Along step admits state labels) (second : Along step others state labels) :
    Along step (fun state label => admits state label ∧ others state label) state labels := by
  induction labels generalizing state with
  | nil => trivial
  | cons label labels ih =>
      obtain ⟨here, rest⟩ := along_cons.mp first
      obtain ⟨there, others⟩ := along_cons.mp second
      exact along_cons.mpr ⟨⟨here, there⟩, fun next taken =>
        ih (rest next taken) (others next taken)⟩

/-- The invariant rule: what the start satisfies and every admitted step keeps
holds wherever an admitted execution ends. -/
theorem exec_invariant {invariant : State → Prop}
    (kept : ∀ state label next, invariant state → admits state label →
      step state label = some next → invariant next)
    {start final : State} {labels : List Label} (initial : invariant start)
    (along : Along step admits start labels) (reached : exec step start labels = some final) :
    invariant final := by
  induction labels generalizing start with
  | nil => exact Option.some.inj reached ▸ initial
  | cons label labels ih =>
      obtain ⟨admitted, rest⟩ := along_cons.mp along
      obtain ⟨next, taken, remaining⟩ := exec_cons_eq_some.mp reached
      exact ih (kept start label next initial admitted taken) (rest next taken) remaining

/-- The invariant rule without an admission condition. -/
theorem exec_invariant_of_step {invariant : State → Prop}
    (kept : ∀ state label next, invariant state → step state label = some next → invariant next)
    {start final : State} {labels : List Label} (initial : invariant start)
    (reached : exec step start labels = some final) : invariant final := by
  have everywhere : Along step (fun _ _ => True) start labels := by
    clear initial reached
    induction labels generalizing start with
    | nil => trivial
    | cons label labels ih => exact along_cons.mpr ⟨trivial, fun next _ => ih⟩
  exact exec_invariant (fun state label next holds _ taken => kept state label next holds taken)
    initial everywhere reached

/-- The invariant rule for a property of a state and of the labels that led to it. -/
theorem exec_history {invariant : List Label → State → Prop} {start final : State}
    {labels : List Label} (initial : invariant [] start)
    (kept : ∀ past state label next, exec step start past = some state → invariant past state →
      step state label = some next → invariant (past ++ [label]) next)
    (reached : exec step start labels = some final) : invariant labels final := by
  induction labels using List.reverseRecOn generalizing final with
  | nil => exact Option.some.inj reached ▸ initial
  | append_singleton past label ih =>
      obtain ⟨state, before, taken⟩ := exec_append_eq_some.mp reached
      rw [exec_singleton] at taken
      exact kept past state label final before (ih before) taken

/-- The progress rule: where every admitted step is taken and keeps the invariant, the
execution reaches its end. -/
theorem exec_progress {invariant : State → Prop}
    (taken : ∀ state label, invariant state → admits state label →
      ∃ next, step state label = some next ∧ invariant next)
    {start : State} {labels : List Label} (initial : invariant start)
    (along : Along step admits start labels) :
    ∃ final, exec step start labels = some final ∧ invariant final := by
  induction labels generalizing start with
  | nil => exact ⟨start, rfl, initial⟩
  | cons label labels ih =>
      obtain ⟨admitted, rest⟩ := along_cons.mp along
      obtain ⟨next, stepped, kept⟩ := taken start label initial admitted
      obtain ⟨final, reached, settled⟩ := ih kept (rest next stepped)
      exact ⟨final, exec_cons_eq_some.mpr ⟨next, stepped, reached⟩, settled⟩

/-- `holds` in every state reached along the execution, its start included. -/
def Always (step : State → Label → Option State) (holds : State → Prop) (start : State)
    (labels : List Label) : Prop :=
  ∀ first middle, first <+: labels → exec step start first = some middle → holds middle

private theorem always_nil {holds : State → Prop} {start : State} :
    Always step holds start [] ↔ holds start := by
  constructor
  · intro always
    exact always [] start List.nil_prefix rfl
  · intro initial first middle front reached
    rw [List.prefix_nil.mp front, exec_nil, Option.some.injEq] at reached
    exact reached ▸ initial

private theorem always_cons {holds : State → Prop} {start : State} {label : Label}
    {labels : List Label} :
    Always step holds start (label :: labels) ↔
      holds start ∧ ∀ next, step start label = some next → Always step holds next labels := by
  constructor
  · intro always
    refine ⟨always [] start List.nil_prefix rfl, fun next taken first middle front reached => ?_⟩
    exact always (label :: first) middle (List.cons_prefix_cons.mpr ⟨rfl, front⟩)
      (exec_cons_eq_some.mpr ⟨next, taken, reached⟩)
  · rintro ⟨initial, rest⟩ first middle front reached
    cases first with
    | nil => exact Option.some.inj reached ▸ initial
    | cons head tail =>
        obtain ⟨rfl, inner⟩ := List.cons_prefix_cons.mp front
        obtain ⟨next, taken, remaining⟩ := exec_cons_eq_some.mp reached
        exact rest next taken tail middle inner remaining

/-- The invariant rule for every state reached. -/
theorem Always.of_along (invariant : State → Prop) {property : State → Prop}
    (implied : ∀ state, invariant state → property state)
    (kept : ∀ state label next, invariant state → admits state label →
      step state label = some next → invariant next)
    {start : State} {labels : List Label} (initial : invariant start)
    (along : Along step admits start labels) : Always step property start labels := by
  rintro first middle ⟨rest, rfl⟩ reached
  exact implied middle (exec_invariant kept initial (along_append.mp along).1 reached)

/-- What the invariant says of every admitted label holds along the execution. -/
theorem Along.of_invariant (invariant : State → Prop) {others : State → Label → Prop}
    (implied : ∀ state label, invariant state → admits state label → others state label)
    (kept : ∀ state label next, invariant state → admits state label →
      step state label = some next → invariant next)
    {start : State} {labels : List Label} (initial : invariant start)
    (along : Along step admits start labels) : Along step others start labels := by
  induction labels generalizing start with
  | nil => trivial
  | cons label labels ih =>
      obtain ⟨admitted, rest⟩ := along_cons.mp along
      refine along_cons.mpr ⟨implied start label initial admitted, fun next taken => ?_⟩
      exact ih (kept start label next initial admitted taken) (rest next taken)

/-- The exactness rule. Where the invariant holds, an admitted step keeps it, and a
step that is not admitted leads to a state without the property. Then the property
holds throughout an execution exactly when every step of it is admitted. -/
theorem always_iff_along (allowed : State → Label → Prop) (invariant : State → Prop)
    {property : State → Prop}
    (implied : ∀ state, invariant state → property state)
    (exact : ∀ state label next, invariant state → allowed state label →
      step state label = some next →
      (admits state label → invariant next) ∧ (property next → admits state label))
    {start final : State} {labels : List Label} (initial : invariant start)
    (within : Along step allowed start labels) (reached : exec step start labels = some final) :
    Always step property start labels ↔ Along step admits start labels := by
  induction labels generalizing start with
  | nil => exact iff_of_true (always_nil.mpr (implied start initial)) trivial
  | cons label labels ih =>
      obtain ⟨permitted, rest⟩ := along_cons.mp within
      obtain ⟨next, taken, remaining⟩ := exec_cons_eq_some.mp reached
      obtain ⟨keeps, forces⟩ := exact start label next initial permitted taken
      rw [always_cons, along_cons]
      constructor
      · rintro ⟨_, always⟩
        have admitted := forces (always next taken [] next List.nil_prefix rfl)
        refine ⟨admitted, fun other same => ?_⟩
        cases taken.symm.trans same
        exact (ih (keeps admitted) (rest next taken) remaining).mp (always next taken)
      · rintro ⟨admitted, along⟩
        refine ⟨implied start initial, fun other same => ?_⟩
        cases taken.symm.trans same
        exact (ih (keeps admitted) (rest next taken) remaining).mpr (along next taken)

section Related

variable {related : State → State → Prop}

/-- Relatedness after a change on one side. -/
theorem rel_map {one : Option State} {change : State → State}
    (changed : ∀ state ∈ one, related state (change state)) :
    Option.Rel related one (one.map change) := by
  cases one with
  | none => exact .none
  | some state => exact .some (changed state rfl)

private theorem rel_bind {one other : Option State} {next : State → Option State}
    (start : Option.Rel related one other)
    (kept : ∀ one other, related one other → Option.Rel related (next one) (next other)) :
    Option.Rel related (one.bind next) (other.bind next) := by
  cases start with
  | none => exact .none
  | some both => exact kept _ _ both

/-- Related outcomes stay related under a weaker relation. -/
theorem rel_mono {weaker : State → State → Prop} {one other : Option State}
    (implied : ∀ one other, related one other → weaker one other)
    (both : Option.Rel related one other) : Option.Rel weaker one other := by
  cases both with
  | none => exact .none
  | some both => exact .some (implied _ _ both)

/-- The rule for two executions of the same labels: where every label takes related
states to related states, or neither of them anywhere, they stay related. -/
theorem exec_rel {labels : List Label}
    (kept : ∀ label ∈ labels, ∀ one other, related one other →
      Option.Rel related (step one label) (step other label))
    {one other : State} (start : related one other) :
    Option.Rel related (exec step one labels) (exec step other labels) := by
  induction labels generalizing one other with
  | nil => exact .some start
  | cons label labels ih =>
      have here := kept label List.mem_cons_self one other start
      apply rel_bind here
      intro next after both
      exact ih (fun later member => kept later (List.mem_cons_of_mem label member)) both

end Related

/-- A state is reachable from `start` when some list of labels leads to it. -/
def Reachable (step : State → Label → Option State) (start final : State) : Prop :=
  ∃ labels, exec step start labels = some final

/-- What holds at the start and is kept by every step holds in every reachable state. -/
theorem Reachable.invariant {invariant : State → Prop}
    (kept : ∀ state label next, invariant state → step state label = some next → invariant next)
    {start final : State} (initial : invariant start) (reached : Reachable step start final) :
    invariant final := by
  obtain ⟨labels, executed⟩ := reached
  exact exec_invariant_of_step kept initial executed

end Execution
