import TimerAndCallback.Foundation.Execution

/-! # Outcomes of executions on an abstraction

An abstraction that leaves details of the states out cannot say what a step leads to.
It can list what the step may lead to, `none` for a step that is not taken. Where the
lists cover the steps, the lists of the executions cover the executions, and what all
the outcomes agree on holds of what really happens.
-/

namespace Outcomes

variable {Abstract State Label : Type*}

/-- Go on from every outcome that is a state. -/
def andThen {Other : Type*} (outcomes : List (Option Abstract))
    (next : Abstract → List (Option Other)) : List (Option Other) :=
  outcomes.flatMap fun outcome => outcome.elim [none] next

/-- What an execution may lead to. -/
def exec (choices : Abstract → Label → List (Option Abstract)) :
    Abstract → List Label → List (Option Abstract)
  | start, [] => [some start]
  | start, label :: labels => andThen (choices start label) fun next => exec choices next labels

/-- One of the outcomes describes the result. -/
def Covers (describes : Abstract → State → Prop) (outcomes : List (Option Abstract))
    (result : Option State) : Prop :=
  ∃ outcome ∈ outcomes, Option.Rel describes outcome result

variable {describes : Abstract → State → Prop} {outcomes : List (Option Abstract)}
  {result : Option State}

/-- A listed outcome that describes the state found covers it. -/
theorem Covers.of_eq {abstract : Abstract} {state : State} (described : describes abstract state)
    (listed : some abstract ∈ outcomes) (found : result = some state) :
    Covers describes outcomes result :=
  ⟨some abstract, listed, found ▸ .some described⟩

/-- A state that is found is described by an outcome of its list. -/
theorem Covers.described {state : State} (covered : Covers describes outcomes result)
    (found : result = some state) :
    ∃ abstract, some abstract ∈ outcomes ∧ describes abstract state := by
  obtain ⟨outcome, listed, both⟩ := covered
  subst found
  cases both with
  | some described => exact ⟨_, listed, described⟩

/-- A step that is not taken is covered by `none`. -/
theorem covers_none (listed : none ∈ outcomes) (absent : result = none) :
    Covers describes outcomes result :=
  ⟨none, listed, absent ▸ .none⟩

/-- Outcomes can be viewed in a coarser way. -/
theorem Covers.map_outcomes {Other : Type*} {related : Other → State → Prop}
    {view : Abstract → Other} (covered : Covers describes outcomes result)
    (kept : ∀ abstract state, describes abstract state → related (view abstract) state) :
    Covers related (outcomes.map (Option.map view)) result := by
  obtain ⟨outcome, listed, both⟩ := covered
  refine ⟨outcome.map view, List.mem_map_of_mem listed, ?_⟩
  cases both with
  | none => exact .none
  | some described => exact .some (kept _ _ described)

/-- A step that is taken wherever it may start has the outcomes of its start. -/
theorem Covers.bind_taken {Final : Type*} {related : Abstract → Final → Prop}
    {step : State → Option Final} (covered : Covers describes outcomes result)
    (taken : ∀ abstract state, describes abstract state →
      ∃ final, step state = some final ∧ related abstract final) :
    Covers related outcomes (result.bind step) := by
  obtain ⟨outcome, listed, both⟩ := covered
  refine ⟨outcome, listed, ?_⟩
  cases both with
  | none => exact .none
  | some described =>
      obtain ⟨final, ran, left⟩ := taken _ _ described
      rw [Option.bind_some, ran]
      exact .some left

/-- A change that the abstraction does not see keeps the cover. -/
theorem Covers.map_result {Final : Type*} {related : Abstract → Final → Prop}
    {change : State → Final} (covered : Covers describes outcomes result)
    (kept : ∀ abstract state, describes abstract state → related abstract (change state)) :
    Covers related outcomes (result.map change) := by
  rw [Option.map_eq_bind]
  exact covered.bind_taken fun abstract state described =>
    ⟨change state, rfl, kept abstract state described⟩

/-- Outcomes cover under every weaker description. -/
theorem Covers.mono {related : Abstract → State → Prop}
    (covered : Covers describes outcomes result)
    (kept : ∀ abstract state, describes abstract state → related abstract state) :
    Covers related outcomes result := by
  rw [← Option.bind_fun_some result]
  exact covered.bind_taken fun abstract state described =>
    ⟨state, rfl, kept abstract state described⟩

/-- Outcomes that cover two steps cover the one after the other. -/
theorem Covers.andThen {Other Final : Type*} {related : Other → Final → Prop}
    {next : Abstract → List (Option Other)} {step : State → Option Final}
    (covered : Covers describes outcomes result)
    (kept : ∀ abstract state, describes abstract state →
      Covers related (next abstract) (step state)) :
    Covers related (Outcomes.andThen outcomes next) (result.bind step) := by
  obtain ⟨outcome, listed, related⟩ := covered
  cases related with
  | none => exact ⟨none, List.mem_flatMap.mpr ⟨none, listed, List.mem_singleton.mpr rfl⟩, .none⟩
  | @some abstract state described =>
      obtain ⟨later, among, final⟩ := kept abstract state described
      exact ⟨later, List.mem_flatMap.mpr ⟨some abstract, listed, among⟩, final⟩

/-- Outcomes that cover every step cover every execution. -/
theorem covers_exec {choices : Abstract → Label → List (Option Abstract)}
    {step : State → Label → Option State}
    (kept : ∀ abstract state label, describes abstract state →
      Covers describes (choices abstract label) (step state label))
    {abstract : Abstract} {state : State} (start : describes abstract state)
    (labels : List Label) :
    Covers describes (exec choices abstract labels) (Execution.exec step state labels) := by
  induction labels generalizing abstract state with
  | nil => exact .of_eq start (List.mem_singleton.mpr rfl) rfl
  | cons label labels ih =>
      exact (kept abstract state label start).andThen fun _ _ described => ih described

/-- There is one outcome. -/
def Single (good : Abstract → Prop) (outcomes : List (Option Abstract)) : Prop :=
  ∃ outcome, outcomes = [outcome] ∧ ∀ next ∈ outcome, good next

/-- The one outcome is a good one. -/
theorem single_some {good : Abstract → Prop} {abstract : Abstract} (holds : good abstract) :
    Single good [some abstract] :=
  ⟨some abstract, rfl, fun _ same => Option.some.inj same ▸ holds⟩

/-- The one outcome is that no step is taken. -/
theorem single_none {good : Abstract → Prop} : Single good [none] :=
  ⟨none, rfl, fun _ absent => absurd absent (Option.not_mem_none _)⟩

/-- A single outcome stays single in another view. -/
theorem Single.map {Other : Type*} {good : Abstract → Prop} {well : Other → Prop}
    {view : Abstract → Other} (single : Single good outcomes)
    (kept : ∀ abstract, good abstract → well (view abstract)) :
    Single well (outcomes.map (Option.map view)) := by
  obtain ⟨outcome, rfl, holds⟩ := single
  cases outcome with
  | none => exact single_none
  | some abstract => exact single_some (kept abstract (holds abstract rfl))

/-- Going on from a single outcome in a single way leaves a single outcome. -/
theorem Single.andThen {Other : Type*} {good : Abstract → Prop} {well : Other → Prop}
    {next : Abstract → List (Option Other)} (single : Single good outcomes)
    (kept : ∀ abstract, good abstract → Single well (next abstract)) :
    Single well (Outcomes.andThen outcomes next) := by
  obtain ⟨outcome, rfl, holds⟩ := single
  unfold Outcomes.andThen
  rw [List.flatMap_singleton]
  cases outcome with
  | none => exact single_none
  | some abstract => exact kept abstract (holds abstract rfl)

/-- One outcome is every outcome. -/
theorem Single.all_of_mem {good : Abstract → Prop} (single : Single good outcomes)
    {settled : Option Abstract → Prop} (found : ∃ outcome ∈ outcomes, settled outcome) :
    ∀ outcome ∈ outcomes, settled outcome := by
  obtain ⟨only, rfl, _⟩ := single
  obtain ⟨outcome, listed, here⟩ := found
  intro other also
  rw [List.mem_singleton] at listed also
  rw [also, ← listed]
  exact here

/-- What all the outcomes agree on is decided. What holds of the result holds of one
of the outcomes. -/
theorem Covers.decides (covered : Covers describes outcomes result)
    {settled : Option Abstract → Prop} {holds : Option State → Prop}
    (agree : ∀ outcome result, Option.Rel describes outcome result →
      (holds result ↔ settled outcome)) :
    ((∀ outcome ∈ outcomes, settled outcome) → holds result) ∧
      (holds result → ∃ outcome ∈ outcomes, settled outcome) := by
  obtain ⟨outcome, listed, related⟩ := covered
  have decided := agree outcome result related
  exact ⟨fun all => decided.mpr (all outcome listed),
    fun here => ⟨outcome, listed, decided.mp here⟩⟩

end Outcomes
