import TimerAndCallback.Foundation.Refinement

/-! # Calls under two nested semaphores

Tasks run their calls one instruction at a time, in any interleaving. The outer semaphore
guards one part of the shared state, the inner semaphore another. A call holds the outer
semaphore throughout and may take the inner one once, for one act on the inner part that
may read the outer part; or it only takes the inner one. Every interleaving is matched by
one in which the calls run whole, one after another. A call takes effect when it acts on
the inner part, or passes the point where it would.
-/

namespace NestedSections

open Execution

universe u v w x

variable {Task : Type u} {Call : Type v} {Outer : Type w} {Inner : Type x}

/-- An instruction of a task. `branch` takes the inner semaphore around its act, if the
outer part says that it is needed. -/
inductive Instruction (Outer : Type w) (Inner : Type x)
  | waitOuter
  | postOuter
  | waitInner
  | postInner
  | outer (change : Outer → Option Outer)
  | inner (act : Outer → Inner → Option Inner)
  | branch (needed : Outer → Bool) (act : Outer → Inner → Option Inner)

/-- What a call does between taking and releasing the outer semaphore. The statements
after its act cannot fail. -/
structure Section (Outer : Type w) (Inner : Type x) where
  before : List (Outer → Option Outer)
  needed : Outer → Bool
  act : Outer → Inner → Option Inner
  after : List (Outer → Outer)

/-- A call takes the outer semaphore, or only the inner one for one act. -/
inductive Body (Outer : Type w) (Inner : Type x)
  | nested (lines : Section Outer Inner)
  | plain (act : Inner → Option Inner)

/-- Statements that may fail, one after another. -/
def perform : List (Outer → Option Outer) → Outer → Option Outer
  | [], outer => some outer
  | change :: changes, outer => (change outer).bind (perform changes)

/-- Statements that cannot fail, one after another. -/
def settle : List (Outer → Outer) → Outer → Outer
  | [], outer => outer
  | change :: changes, outer => settle changes (change outer)

private theorem perform_snoc (changes : List (Outer → Option Outer)) (change : Outer → Option Outer)
    (outer : Outer) :
    perform (changes ++ [change]) outer = (perform changes outer).bind change := by
  induction changes generalizing outer with
  | nil => exact Option.bind_fun_some _
  | cons first later ih =>
      simp only [List.cons_append, perform, Option.bind_assoc]
      exact congrArg (Option.bind (first outer)) (funext ih)

private theorem perform_append (first second : List (Outer → Option Outer)) (outer : Outer) :
    perform (first ++ second) outer = (perform first outer).bind (perform second) := by
  induction first generalizing outer with
  | nil => rfl
  | cons change changes ih =>
      simp only [List.cons_append, perform, Option.bind_assoc]
      exact congrArg (Option.bind (change outer)) (funext ih)

/-- The call as one operation. -/
def Body.run : Body Outer Inner → Outer → Inner → Option (Outer × Inner)
  | nested lines, outer, inner =>
      (perform lines.before outer).bind fun middle =>
        (if lines.needed middle then lines.act middle inner else some inner).map fun inner =>
          (settle lines.after middle, inner)
  | plain act, outer, inner => (act inner).map fun inner => (outer, inner)

/-- The statements after the act, and the release of the outer semaphore. -/
def leave (after : List (Outer → Outer)) : List (Instruction Outer Inner) :=
  after.map (fun change => .outer fun outer => some (change outer)) ++ [.postOuter]

/-- The instructions of a call. -/
def Body.code : Body Outer Inner → List (Instruction Outer Inner)
  | nested lines =>
      .waitOuter :: (lines.before.map .outer ++ .branch lines.needed lines.act :: leave lines.after)
  | plain act => [.waitInner, .inner fun _ => act, .postInner]

/-- The instructions of a list of calls. -/
def compile (body : Call → Body Outer Inner) (calls : List Call) :
    List (Instruction Outer Inner) :=
  calls.flatMap fun call => (body call).code

/-- The two parts of the shared state, the values of the semaphores, and what each task
has left to run. -/
structure Config (Task : Type u) (Outer : Type w) (Inner : Type x) where
  outer : Outer
  inner : Inner
  outerValue : Nat
  innerValue : Nat
  code : Task → List (Instruction Outer Inner)

/-- The shared state, and the calls that each task has left to make. -/
structure Serial (Task : Type u) (Call : Type v) (Outer : Type w) (Inner : Type x) where
  outer : Outer
  inner : Inner
  calls : Task → List Call

/-- Both semaphores are free, and every task is before its first call. -/
def start (body : Call → Body Outer Inner) (outer : Outer) (inner : Inner)
    (calls : Task → List Call) : Config Task Outer Inner :=
  ⟨outer, inner, 1, 1, fun task => compile body (calls task)⟩

/-- The task has this left to run. -/
def Config.goto [DecidableEq Task] (config : Config Task Outer Inner) (task : Task)
    (rest : List (Instruction Outer Inner)) : Config Task Outer Inner :=
  { config with code := Function.update config.code task rest }

/-- A task runs this instruction and has the rest left. It is blocked at a semaphore of
value zero. -/
def Config.execute [DecidableEq Task] (config : Config Task Outer Inner) (task : Task)
    (rest : List (Instruction Outer Inner)) :
    Instruction Outer Inner → Option (Config Task Outer Inner)
  | .waitOuter =>
      if config.outerValue = 0 then none
      else some { config.goto task rest with outerValue := config.outerValue - 1 }
  | .postOuter => some { config.goto task rest with outerValue := config.outerValue + 1 }
  | .waitInner =>
      if config.innerValue = 0 then none
      else some { config.goto task rest with innerValue := config.innerValue - 1 }
  | .postInner => some { config.goto task rest with innerValue := config.innerValue + 1 }
  | .outer change =>
      (change config.outer).map fun outer => { config.goto task rest with outer := outer }
  | .inner act =>
      (act config.outer config.inner).map fun inner => { config.goto task rest with inner := inner }
  | .branch needed act =>
      some (config.goto task
        (if needed config.outer then .waitInner :: .inner act :: .postInner :: rest else rest))

/-- A task runs its next instruction. -/
def step [DecidableEq Task] (config : Config Task Outer Inner) (task : Task) :
    Option (Config Task Outer Inner) :=
  match config.code task with
  | [] => none
  | instruction :: rest => config.execute task rest instruction

/-- The task has made a call with this outcome. -/
def Serial.made [DecidableEq Task] (serial : Serial Task Call Outer Inner) (task : Task)
    (later : List Call) (outcome : Outer × Inner) : Serial Task Call Outer Inner :=
  ⟨outcome.1, outcome.2, Function.update serial.calls task later⟩

/-- A task makes its next call, whole. -/
def serve [DecidableEq Task] (run : Call → Outer → Inner → Option (Outer × Inner))
    (serial : Serial Task Call Outer Inner) (task : Task) :
    Option (Serial Task Call Outer Inner) :=
  match serial.calls task with
  | [] => none
  | call :: later =>
      (run call serial.outer serial.inner).map (serial.made task later)

/-- Where a task is. -/
inductive Phase (body : Call → Body Outer Inner) (config : Config Task Outer Inner)
    (serial : Serial Task Call Outer Inner) (outerHolder innerHolder : Option Task)
    (task : Task) : Prop
  | between (noOuter : outerHolder ≠ some task) (noInner : innerHolder ≠ some task)
      (code : config.code task = compile body (serial.calls task))
  | before (call : Call) (lines : Section Outer Inner) (later : List Call)
      (past rest : List (Outer → Option Outer)) (holds : outerHolder = some task)
      (noInner : innerHolder ≠ some task) (calls : serial.calls task = call :: later)
      (kind : body call = .nested lines) (split : lines.before = past ++ rest)
      (outer : perform past serial.outer = some config.outer)
      (code : config.code task = rest.map .outer ++
        .branch lines.needed lines.act :: (leave lines.after ++ compile body later))
  | entering (call : Call) (lines : Section Outer Inner) (later : List Call)
      (holds : outerHolder = some task) (noInner : innerHolder ≠ some task)
      (calls : serial.calls task = call :: later) (kind : body call = .nested lines)
      (outer : perform lines.before serial.outer = some config.outer)
      (needed : lines.needed config.outer = true)
      (code : config.code task = .waitInner :: .inner lines.act :: .postInner ::
        (leave lines.after ++ compile body later))
  | entered (call : Call) (lines : Section Outer Inner) (later : List Call)
      (holds : outerHolder = some task) (holdsInner : innerHolder = some task)
      (calls : serial.calls task = call :: later) (kind : body call = .nested lines)
      (outer : perform lines.before serial.outer = some config.outer)
      (needed : lines.needed config.outer = true)
      (code : config.code task = .inner lines.act :: .postInner ::
        (leave lines.after ++ compile body later))
  | acted (after : List (Outer → Outer)) (holds : outerHolder = some task)
      (holdsInner : innerHolder = some task) (outer : serial.outer = settle after config.outer)
      (code : config.code task =
        .postInner :: (leave after ++ compile body (serial.calls task)))
  | leaving (after : List (Outer → Outer)) (holds : outerHolder = some task)
      (noInner : innerHolder ≠ some task) (outer : serial.outer = settle after config.outer)
      (code : config.code task = leave after ++ compile body (serial.calls task))
  | plainEntered (call : Call) (act : Inner → Option Inner) (later : List Call)
      (noOuter : outerHolder ≠ some task) (holdsInner : innerHolder = some task)
      (calls : serial.calls task = call :: later) (kind : body call = .plain act)
      (code : config.code task = .inner (fun _ => act) :: .postInner :: compile body later)
  | plainActed (noOuter : outerHolder ≠ some task) (holdsInner : innerHolder = some task)
      (code : config.code task = .postInner :: compile body (serial.calls task))

/-- The value of a semaphore that is free or held. -/
def valueOf (holder : Option Task) : Nat := if holder.isNone then 1 else 0

/-- Each semaphore is free or held by one task; every task is where its instructions say;
and the shared states agree, but for the outer part while the outer semaphore is held. -/
structure Matches (body : Call → Body Outer Inner) (outerHolder innerHolder : Option Task)
    (config : Config Task Outer Inner) (serial : Serial Task Call Outer Inner) : Prop where
  inner : config.inner = serial.inner
  outer : outerHolder = none → config.outer = serial.outer
  outerValue : config.outerValue = valueOf outerHolder
  innerValue : config.innerValue = valueOf innerHolder
  phases : ∀ task, Phase body config serial outerHolder innerHolder task

variable {body : Call → Body Outer Inner} {config next : Config Task Outer Inner}
variable {serial after : Serial Task Call Outer Inner}
variable {outerHolder innerHolder outerNext innerNext : Option Task} {task : Task}

/-- A semaphore that is not zero is free. -/
theorem eq_none_of_valueOf {holder : Option Task} (room : valueOf holder ≠ 0) : holder = none := by
  cases holder with
  | none => rfl
  | some task => exact absurd rfl room

/-- A task stays where it is while another one runs. -/
theorem Phase.frame (phase : Phase body config serial outerHolder innerHolder task)
    (code : next.code task = config.code task) (calls : after.calls task = serial.calls task)
    (holds : outerNext = some task ↔ outerHolder = some task)
    (holdsInner : innerNext = some task ↔ innerHolder = some task)
    (outer : outerHolder = some task → next.outer = config.outer ∧ after.outer = serial.outer) :
    Phase body next after outerNext innerNext task := by
  cases phase with
  | between noOuter noInner here =>
      exact .between (mt holds.mp noOuter) (mt holdsInner.mp noInner) (by rw [code, calls, here])
  | before call lines later past rest held noInner made kind split ran here =>
      obtain ⟨same, still⟩ := outer held
      exact .before call lines later past rest (holds.mpr held) (mt holdsInner.mp noInner)
        (calls.trans made) kind split (by rw [same, still, ran]) (code.trans here)
  | entering call lines later held noInner made kind ran needed here =>
      obtain ⟨same, still⟩ := outer held
      exact .entering call lines later (holds.mpr held) (mt holdsInner.mp noInner)
        (calls.trans made) kind (by rw [same, still, ran]) (by rw [same, needed])
        (code.trans here)
  | entered call lines later held heldInner made kind ran needed here =>
      obtain ⟨same, still⟩ := outer held
      exact .entered call lines later (holds.mpr held) (holdsInner.mpr heldInner)
        (calls.trans made) kind (by rw [same, still, ran]) (by rw [same, needed])
        (code.trans here)
  | acted changes held heldInner settled here =>
      obtain ⟨same, still⟩ := outer held
      exact .acted changes (holds.mpr held) (holdsInner.mpr heldInner)
        (by rw [same, still, settled]) (by rw [code, calls, here])
  | leaving changes held noInner settled here =>
      obtain ⟨same, still⟩ := outer held
      exact .leaving changes (holds.mpr held) (mt holdsInner.mp noInner)
        (by rw [same, still, settled]) (by rw [code, calls, here])
  | plainEntered call act later noOuter heldInner made kind here =>
      exact .plainEntered call act later (mt holds.mp noOuter) (holdsInner.mpr heldInner)
        (calls.trans made) kind (code.trans here)
  | plainActed noOuter heldInner here =>
      exact .plainActed (mt holds.mp noOuter) (holdsInner.mpr heldInner)
        (by rw [code, calls, here])

/-- What is left to show when one task has moved. -/
structure Moved (body : Call → Body Outer Inner) (outerHolder innerHolder outerNext
    innerNext : Option Task) (config next : Config Task Outer Inner)
    (serial after : Serial Task Call Outer Inner) (task : Task) : Prop where
  inner : next.inner = after.inner
  outer : outerNext = none → next.outer = after.outer
  outerValue : next.outerValue = valueOf outerNext
  innerValue : next.innerValue = valueOf innerNext
  phase : Phase body next after outerNext innerNext task
  code : ∀ other, other ≠ task → next.code other = config.code other
  calls : ∀ other, other ≠ task → after.calls other = serial.calls other
  holds : ∀ other, other ≠ task → (outerNext = some other ↔ outerHolder = some other)
  holdsInner : ∀ other, other ≠ task → (innerNext = some other ↔ innerHolder = some other)
  kept : outerHolder = some task ∨ next.outer = config.outer ∧ after.outer = serial.outer

/-- A step that moves both levels alike keeps them matched. -/
theorem Matches.moved (same : Matches body outerHolder innerHolder config serial)
    (moved : Moved body outerHolder innerHolder outerNext innerNext config next serial after task) :
    Matches body outerNext innerNext next after where
  inner := moved.inner
  outer := moved.outer
  outerValue := moved.outerValue
  innerValue := moved.innerValue
  phases other := by
    by_cases apart : other = task
    · exact apart ▸ moved.phase
    · refine (same.phases other).frame (moved.code other apart) (moved.calls other apart)
        (moved.holds other apart) (moved.holdsInner other apart) fun held => ?_
      rcases moved.kept with mine | kept
      · exact absurd (Option.some.inj (held.symm.trans mine)) apart
      · exact kept

private theorem holder_taken {other : Task} (apart : other ≠ task) :
    some task = some other ↔ (none : Option Task) = some other :=
  iff_of_false (fun mine => apart (Option.some.inj mine).symm) nofun

private theorem compile_nested {call : Call} {lines : Section Outer Inner}
    (kind : body call = .nested lines) (later : List Call) :
    compile body (call :: later) = .waitOuter :: (lines.before.map .outer ++
      .branch lines.needed lines.act :: (leave lines.after ++ compile body later)) := by
  unfold compile
  rw [List.flatMap_cons, kind]
  simp only [Body.code, List.cons_append, List.append_assoc]

private theorem compile_plain {call : Call} {act : Inner → Option Inner}
    (kind : body call = .plain act) (later : List Call) :
    compile body (call :: later) =
      .waitInner :: .inner (fun _ => act) :: .postInner :: compile body later := by
  unfold compile
  rw [List.flatMap_cons, kind]
  rfl

/-- Some matching of the holders. -/
def Related (body : Call → Body Outer Inner) (config : Config Task Outer Inner)
    (serial : Serial Task Call Outer Inner) : Prop :=
  ∃ outerHolder innerHolder, Matches body outerHolder innerHolder config serial

/-- A binary semaphore is at most one. -/
theorem valueOf_le_one (holder : Option Task) : valueOf holder ≤ 1 := by
  cases holder with
  | none => exact le_rfl
  | some task => exact zero_le_one

private theorem compile_eq_nil {calls : List Call} (code : compile body calls = []) :
    calls = [] := by
  cases calls with
  | nil => rfl
  | cons call later =>
      cases kind : body call with
      | nested lines =>
          rw [compile_nested kind] at code
          cases code
      | plain act =>
          rw [compile_plain kind] at code
          cases code

/-- A task with nothing left to run holds no semaphore, and has made its calls. -/
theorem Phase.finished (phase : Phase body config serial outerHolder innerHolder task)
    (code : config.code task = []) : outerHolder ≠ some task ∧ serial.calls task = [] := by
  cases phase with
  | between noOuter _ here => exact ⟨noOuter, compile_eq_nil (here.symm.trans code)⟩
  | before _ _ _ _ rest _ _ _ _ _ _ here =>
      rw [here] at code
      exact absurd code (List.append_ne_nil_of_right_ne_nil _ (List.cons_ne_nil _ _))
  | leaving changes _ _ _ here =>
      rw [here] at code
      cases changes <;> cases code
  | entering _ _ _ _ _ _ _ _ _ here | entered _ _ _ _ _ _ _ _ _ here | acted _ _ _ _ here
  | plainEntered _ _ _ _ _ _ _ here | plainActed _ _ here =>
      rw [here] at code
      cases code

/-- When every task is done, the shared states agree. -/
theorem Matches.finished (same : Matches body outerHolder innerHolder config serial)
    (code : ∀ task, config.code task = []) :
    config.outer = serial.outer ∧ ∀ task, serial.calls task = [] := by
  refine ⟨same.outer ?_, fun task => ((same.phases task).finished (code task)).2⟩
  cases outerHolder with
  | none => rfl
  | some task => exact absurd rfl ((same.phases task).finished (code task)).1

variable [DecidableEq Task]

private theorem step_cons {instruction : Instruction Outer Inner}
    {rest : List (Instruction Outer Inner)} (code : config.code task = instruction :: rest) :
    step config task = config.execute task rest instruction := by
  unfold step
  rw [code]

private theorem serve_eq {run : Call → Outer → Inner → Option (Outer × Inner)} {call : Call}
    {later : List Call} {outer : Outer} {inner : Inner}
    (calls : serial.calls task = call :: later)
    (ran : run call serial.outer serial.inner = some (outer, inner)) :
    serve run serial task = some (serial.made task later (outer, inner)) := by
  unfold serve
  rw [calls]
  exact Option.map_eq_some_iff.mpr ⟨(outer, inner), ran, rfl⟩

private theorem made_calls_self (serial : Serial Task Call Outer Inner) (later : List Call)
    (outcome : Outer × Inner) : (serial.made task later outcome).calls task = later :=
  Function.update_self _ _ _

private theorem made_calls_of_ne (serial : Serial Task Call Outer Inner) (later : List Call)
    (outcome : Outer × Inner) {other : Task} (apart : other ≠ task) :
    (serial.made task later outcome).calls other = serial.calls other :=
  Function.update_of_ne apart _ _

section Steps

variable {run : Call → Outer → Inner → Option (Outer × Inner)}

/-- The whole calls follow a step with one step, or with none. -/
def Follows (body : Call → Body Outer Inner) (run : Call → Outer → Inner → Option (Outer × Inner))
    (serial : Serial Task Call Outer Inner) (next : Config Task Outer Inner) : Prop :=
  ∃ events after, Along (serve run) (fun _ _ => True) serial events ∧
    exec (serve run) serial events = some after ∧ Related body next after

/-- A step that no call answers to, with the serial state as it was. -/
theorem Follows.none (outerNext innerNext : Option Task) (task : Task)
    (same : Matches body outerHolder innerHolder config serial)
    (moved : Moved body outerHolder innerHolder outerNext innerNext config next serial serial
      task) : Follows body run serial next :=
  matched_by_none ⟨outerNext, innerNext, same.moved moved⟩

/-- A step at which one call is served. -/
theorem Follows.one (outerNext innerNext : Option Task)
    (same : Matches body outerHolder innerHolder config serial)
    (served : serve run serial task = some after)
    (moved : Moved body outerHolder innerHolder outerNext innerNext config next serial after
      task) : Follows body run serial next :=
  matched_by_one trivial served ⟨outerNext, innerNext, same.moved moved⟩

private theorem goto_code_self (config : Config Task Outer Inner) (task : Task)
    (rest : List (Instruction Outer Inner)) : (config.goto task rest).code task = rest :=
  Function.update_self _ _ _

private theorem goto_code_of_ne (config : Config Task Outer Inner) {other : Task}
    (rest : List (Instruction Outer Inner)) (apart : other ≠ task) :
    (config.goto task rest).code other = config.code other :=
  Function.update_of_ne apart _ _

/-- A task before its next call takes one of the semaphores. -/
theorem Matches.enter (same : Matches body outerHolder innerHolder config serial)
    (noOuter : outerHolder ≠ some task) (noInner : innerHolder ≠ some task)
    (code : config.code task = compile body (serial.calls task))
    (taken : step config task = some next) : Follows body run serial next := by
  cases calls : serial.calls task with
  | nil =>
      unfold step at taken
      rw [code, calls] at taken
      cases taken
  | cons call later =>
      rw [calls] at code
      cases kind : body call with
      | nested lines =>
          rw [compile_nested kind] at code
          rw [step_cons code] at taken
          obtain ⟨room, result⟩ := Option.ite_none_left_eq_some.mp taken
          cases result
          rw [same.outerValue] at room
          cases eq_none_of_valueOf room
          exact .none (some task) innerHolder task same
            { inner := same.inner
              outer := nofun
              outerValue := congrArg (· - 1) same.outerValue
              innerValue := same.innerValue
              phase := .before call lines later [] lines.before rfl noInner calls kind rfl
                (congrArg some (same.outer rfl).symm) (goto_code_self config task _)
              code := fun other => goto_code_of_ne config _
              calls := fun _ _ => rfl
              holds := fun other => holder_taken
              holdsInner := fun _ _ => Iff.rfl
              kept := Or.inr ⟨rfl, rfl⟩ }
      | plain act =>
          rw [compile_plain kind] at code
          rw [step_cons code] at taken
          obtain ⟨room, result⟩ := Option.ite_none_left_eq_some.mp taken
          cases result
          rw [same.innerValue] at room
          cases eq_none_of_valueOf room
          exact .none outerHolder (some task) task same
            { inner := same.inner
              outer := same.outer
              outerValue := same.outerValue
              innerValue := congrArg (· - 1) same.innerValue
              phase := .plainEntered call act later noOuter rfl calls kind
                (goto_code_self config task _)
              code := fun other => goto_code_of_ne config _
              calls := fun _ _ => rfl
              holds := fun _ _ => Iff.rfl
              holdsInner := fun other => holder_taken
              kept := Or.inr ⟨rfl, rfl⟩ }

/-- The holder of the outer semaphore runs a statement before its act, or comes to it. -/
theorem Matches.advance {call : Call} {lines : Section Outer Inner} {later : List Call}
    {past rest : List (Outer → Option Outer)}
    (whole : ∀ call outer inner, (body call).run outer inner = run call outer inner)
    (same : Matches body outerHolder innerHolder config serial) (holds : outerHolder = some task)
    (noInner : innerHolder ≠ some task) (calls : serial.calls task = call :: later)
    (kind : body call = .nested lines) (split : lines.before = past ++ rest)
    (outer : perform past serial.outer = some config.outer)
    (code : config.code task = rest.map .outer ++
      .branch lines.needed lines.act :: (leave lines.after ++ compile body later))
    (taken : step config task = some next) : Follows body run serial next := by
  subst holds
  cases rest with
  | cons change rest =>
      rw [step_cons code] at taken
      obtain ⟨changed, ran, rfl⟩ := Option.map_eq_some_iff.mp taken
      exact .none (some task) innerHolder task same
        { inner := same.inner
          outer := nofun
          outerValue := same.outerValue
          innerValue := same.innerValue
          phase := .before call lines later (past ++ [change]) rest rfl noInner calls kind
            (by rw [split, List.append_assoc]; rfl) (by rw [perform_snoc, outer]; exact ran)
            (goto_code_self config task _)
          code := fun other => goto_code_of_ne config _
          calls := fun _ _ => rfl
          holds := fun _ _ => Iff.rfl
          holdsInner := fun _ _ => Iff.rfl
          kept := Or.inl rfl }
  | nil =>
      rw [List.append_nil] at split
      rw [← split] at outer
      rw [step_cons code] at taken
      cases taken
      cases needed : lines.needed config.outer with
      | true =>
          exact .none (some task) innerHolder task same
            { inner := same.inner
              outer := nofun
              outerValue := same.outerValue
              innerValue := same.innerValue
              phase := .entering call lines later rfl noInner calls kind outer needed
                (goto_code_self config task _)
              code := fun other => goto_code_of_ne config _
              calls := fun _ _ => rfl
              holds := fun _ _ => Iff.rfl
              holdsInner := fun _ _ => Iff.rfl
              kept := Or.inl rfl }
      | false =>
          have ran : run call serial.outer serial.inner =
              some (settle lines.after config.outer, serial.inner) := by
            rw [← whole, kind, Body.run, outer, Option.bind_some, needed]
            rfl
          exact .one (some task) innerHolder same (serve_eq calls ran)
            { inner := same.inner
              outer := nofun
              outerValue := same.outerValue
              innerValue := same.innerValue
              phase := .leaving lines.after rfl noInner rfl
                (by rw [goto_code_self, made_calls_self]; rfl)
              code := fun other => goto_code_of_ne config _
              calls := fun other => made_calls_of_ne serial later _
              holds := fun _ _ => Iff.rfl
              holdsInner := fun _ _ => Iff.rfl
              kept := Or.inl rfl }

/-- The holder of the outer semaphore takes the inner one. -/
theorem Matches.nest {call : Call} {lines : Section Outer Inner} {later : List Call}
    (same : Matches body outerHolder innerHolder config serial) (holds : outerHolder = some task)
    (calls : serial.calls task = call :: later) (kind : body call = .nested lines)
    (outer : perform lines.before serial.outer = some config.outer)
    (needed : lines.needed config.outer = true)
    (code : config.code task = .waitInner :: .inner lines.act :: .postInner ::
      (leave lines.after ++ compile body later))
    (taken : step config task = some next) : Follows body run serial next := by
  rw [step_cons code] at taken
  obtain ⟨room, result⟩ := Option.ite_none_left_eq_some.mp taken
  cases result
  rw [same.innerValue] at room
  cases eq_none_of_valueOf room
  exact .none outerHolder (some task) task same
    { inner := same.inner
      outer := same.outer
      outerValue := same.outerValue
      innerValue := congrArg (· - 1) same.innerValue
      phase := .entered call lines later holds rfl calls kind outer needed
        (goto_code_self config task _)
      code := fun other => goto_code_of_ne config _
      calls := fun _ _ => rfl
      holds := fun _ _ => Iff.rfl
      holdsInner := fun other => holder_taken
      kept := Or.inl holds }

/-- The holder of both semaphores acts, and its call takes effect. -/
theorem Matches.act {call : Call} {lines : Section Outer Inner} {later : List Call}
    (whole : ∀ call outer inner, (body call).run outer inner = run call outer inner)
    (same : Matches body outerHolder innerHolder config serial) (holds : outerHolder = some task)
    (holdsInner : innerHolder = some task) (calls : serial.calls task = call :: later)
    (kind : body call = .nested lines)
    (outer : perform lines.before serial.outer = some config.outer)
    (needed : lines.needed config.outer = true)
    (code : config.code task = .inner lines.act :: .postInner ::
      (leave lines.after ++ compile body later))
    (taken : step config task = some next) : Follows body run serial next := by
  subst holds
  rw [step_cons code] at taken
  obtain ⟨inner, acted, rfl⟩ := Option.map_eq_some_iff.mp taken
  have ran : run call serial.outer serial.inner =
      some (settle lines.after config.outer, inner) := by
    rw [← whole, kind, Body.run, outer, Option.bind_some, needed, ← same.inner, if_pos rfl, acted]
    rfl
  exact .one (some task) innerHolder same (serve_eq calls ran)
    { inner := rfl
      outer := nofun
      outerValue := same.outerValue
      innerValue := same.innerValue
      phase := .acted lines.after rfl holdsInner rfl
        (by rw [goto_code_self, made_calls_self])
      code := fun other => goto_code_of_ne config _
      calls := fun other => made_calls_of_ne serial later _
      holds := fun _ _ => Iff.rfl
      holdsInner := fun _ _ => Iff.rfl
      kept := Or.inl rfl }

/-- A task that holds the inner semaphore posts it. -/
theorem Matches.postInner {rest : List (Instruction Outer Inner)}
    (same : Matches body outerHolder innerHolder config serial)
    (holdsInner : innerHolder = some task) (code : config.code task = .postInner :: rest)
    (phase : ∀ next : Config Task Outer Inner, next.outer = config.outer → next.code task = rest →
      Phase body next serial outerHolder none task)
    (taken : step config task = some next) : Follows body run serial next := by
  subst holdsInner
  rw [step_cons code] at taken
  cases taken
  exact .none outerHolder none task same
    { inner := same.inner
      outer := same.outer
      outerValue := same.outerValue
      innerValue := congrArg (· + 1) same.innerValue
      phase := phase _ rfl (goto_code_self config task _)
      code := fun other => goto_code_of_ne config _
      calls := fun _ _ => rfl
      holds := fun _ _ => Iff.rfl
      holdsInner := fun other apart => (holder_taken apart).symm
      kept := Or.inr ⟨rfl, rfl⟩ }

/-- The holder of the outer semaphore, its act behind it, runs a statement or posts. -/
theorem Matches.leave {changes : List (Outer → Outer)}
    (same : Matches body outerHolder innerHolder config serial) (holds : outerHolder = some task)
    (noInner : innerHolder ≠ some task) (outer : serial.outer = settle changes config.outer)
    (code : config.code task =
      NestedSections.leave changes ++ compile body (serial.calls task))
    (taken : step config task = some next) : Follows body run serial next := by
  subst holds
  cases changes with
  | cons change changes =>
      rw [step_cons code] at taken
      cases taken
      exact .none (some task) innerHolder task same
        { inner := same.inner
          outer := nofun
          outerValue := same.outerValue
          innerValue := same.innerValue
          phase := .leaving changes rfl noInner outer (goto_code_self config task _)
          code := fun other => goto_code_of_ne config _
          calls := fun _ _ => rfl
          holds := fun _ _ => Iff.rfl
          holdsInner := fun _ _ => Iff.rfl
          kept := Or.inl rfl }
  | nil =>
      rw [step_cons code] at taken
      cases taken
      exact .none none innerHolder task same
        { inner := same.inner
          outer := fun _ => outer.symm
          outerValue := congrArg (· + 1) same.outerValue
          innerValue := same.innerValue
          phase := .between nofun noInner (goto_code_self config task _)
          code := fun other => goto_code_of_ne config _
          calls := fun _ _ => rfl
          holds := fun other apart => (holder_taken apart).symm
          holdsInner := fun _ _ => Iff.rfl
          kept := Or.inl rfl }

/-- A task that only takes the inner semaphore acts, and its call takes effect. -/
theorem Matches.actPlain {call : Call} {act : Inner → Option Inner} {later : List Call}
    (whole : ∀ call outer inner, (body call).run outer inner = run call outer inner)
    (same : Matches body outerHolder innerHolder config serial)
    (noOuter : outerHolder ≠ some task) (holdsInner : innerHolder = some task)
    (calls : serial.calls task = call :: later) (kind : body call = .plain act)
    (code : config.code task = .inner (fun _ => act) :: .postInner :: compile body later)
    (taken : step config task = some next) : Follows body run serial next := by
  rw [step_cons code] at taken
  obtain ⟨inner, acted, rfl⟩ := Option.map_eq_some_iff.mp taken
  have ran : run call serial.outer serial.inner = some (serial.outer, inner) := by
    rw [← whole, kind, Body.run, ← same.inner]
    exact congrArg (Option.map _) acted
  exact .one outerHolder innerHolder same (serve_eq calls ran)
    { inner := rfl
      outer := same.outer
      outerValue := same.outerValue
      innerValue := same.innerValue
      phase := .plainActed noOuter holdsInner
        (by rw [goto_code_self, made_calls_self])
      code := fun other => goto_code_of_ne config _
      calls := fun other => made_calls_of_ne serial later _
      holds := fun _ _ => Iff.rfl
      holdsInner := fun _ _ => Iff.rfl
      kept := Or.inr ⟨rfl, rfl⟩ }

/-- Every step is one that the whole calls follow. -/
theorem simulates
    (whole : ∀ call outer inner, (body call).run outer inner = run call outer inner) :
    Simulates (step : Config Task Outer Inner → Task → Option (Config Task Outer Inner))
      (serve run) (fun _ _ => True) (fun _ _ => True) (Related body) := by
  rintro config task next serial ⟨outerHolder, innerHolder, same⟩ _ taken
  cases same.phases task with
  | between noOuter noInner code => exact same.enter noOuter noInner code taken
  | before call lines later past rest holds noInner calls kind split outer code =>
      exact same.advance whole holds noInner calls kind split outer code taken
  | entering call lines later holds noInner calls kind outer needed code =>
      exact same.nest holds calls kind outer needed code taken
  | entered call lines later holds holdsInner calls kind outer needed code =>
      exact same.act whole holds holdsInner calls kind outer needed code taken
  | acted changes holds holdsInner outer code =>
      exact same.postInner holdsInner code
        (fun next kept rest => .leaving changes holds nofun (kept.symm ▸ outer) rest) taken
  | leaving changes holds noInner outer code => exact same.leave holds noInner outer code taken
  | plainEntered call act later noOuter holdsInner calls kind code =>
      exact same.actPlain whole noOuter holdsInner calls kind code taken
  | plainActed noOuter holdsInner code =>
      exact same.postInner holdsInner code (fun next _ rest => .between noOuter nofun rest) taken

/-- Some task can run an instruction, or the next call of some task fails, as a whole. -/
def Runs (run : Call → Outer → Inner → Option (Outer × Inner))
    (config : Config Task Outer Inner) (serial : Serial Task Call Outer Inner) : Prop :=
  (∃ task next, step config task = some next) ∨
    ∃ task, serial.calls task ≠ [] ∧ serve run serial task = none

private theorem Runs.of_step {instruction : Instruction Outer Inner}
    {rest : List (Instruction Outer Inner)} (code : config.code task = instruction :: rest)
    (taken : config.execute task rest instruction = some next) : Runs run config serial :=
  Or.inl ⟨task, next, (step_cons code).trans taken⟩

private theorem Runs.of_fails {call : Call} {later : List Call}
    (calls : serial.calls task = call :: later)
    (fails : run call serial.outer serial.inner = none) :
    Runs run config serial := by
  refine Or.inr ⟨task, ?_, ?_⟩
  · rw [calls]
    exact List.cons_ne_nil _ _
  · unfold serve
    rw [calls]
    exact Option.map_eq_none_iff.mpr fails

/-- The holder of the inner semaphore can run, or its call fails. -/
theorem Matches.runs_inner
    (whole : ∀ call outer inner, (body call).run outer inner = run call outer inner)
    (same : Matches body outerHolder innerHolder config serial)
    (holdsInner : innerHolder = some task) : Runs run config serial := by
  cases same.phases task with
  | between _ noInner | before _ _ _ _ _ _ noInner | entering _ _ _ _ noInner
  | leaving _ _ noInner => exact absurd holdsInner noInner
  | acted _ _ _ _ code | plainActed _ _ code => exact .of_step code rfl
  | entered call lines later _ _ calls kind outer needed code =>
      cases acted : lines.act config.outer config.inner with
      | some inner => exact .of_step code (Option.map_eq_some_iff.mpr ⟨inner, acted, rfl⟩)
      | none =>
          refine .of_fails calls ?_
          rw [← whole, kind, Body.run, outer, Option.bind_some, needed, ← same.inner, if_pos rfl,
            acted]
          rfl
  | plainEntered call act later _ _ calls kind code =>
      cases acted : act config.inner with
      | some inner => exact .of_step code (Option.map_eq_some_iff.mpr ⟨inner, acted, rfl⟩)
      | none =>
          refine .of_fails calls ?_
          rw [← whole, kind, Body.run, ← same.inner, acted]
          rfl

/-- While the inner semaphore is free, the holder of the outer one can run, or its call
fails. -/
theorem Matches.runs_outer
    (whole : ∀ call outer inner, (body call).run outer inner = run call outer inner)
    (same : Matches body outerHolder none config serial)
    (holds : outerHolder = some task) : Runs run config serial := by
  cases same.phases task with
  | between noOuter | plainEntered _ _ _ noOuter | plainActed noOuter => exact absurd holds noOuter
  | entered _ _ _ _ holdsInner | acted _ _ holdsInner => cases holdsInner
  | entering call lines later _ _ calls kind outer needed code =>
      have free : config.innerValue ≠ 0 := by
        rw [same.innerValue]
        exact one_ne_zero
      exact .of_step code (if_neg free)
  | leaving changes _ _ outer code =>
      cases changes with
      | nil => exact .of_step code rfl
      | cons change changes => exact .of_step code rfl
  | before call lines later past rest _ _ calls kind split outer code =>
      cases rest with
      | nil => exact .of_step code rfl
      | cons change rest =>
          cases changed : change config.outer with
          | some after => exact .of_step code (Option.map_eq_some_iff.mpr ⟨after, changed, rfl⟩)
          | none =>
              refine .of_fails calls ?_
              rw [← whole, kind, Body.run, split, perform_append, outer, Option.bind_some, perform,
                changed]
              rfl

/-- While both semaphores are free, a task that is not done can take one. -/
theorem Matches.runs_free (same : Matches body none none config serial)
    (unfinished : config.code task ≠ []) : Runs run config serial := by
  cases same.phases task with
  | before _ _ _ _ _ holds | entering _ _ _ holds | entered _ _ _ holds | acted _ holds
  | leaving _ holds => cases holds
  | plainEntered _ _ _ _ holdsInner | plainActed _ holdsInner => cases holdsInner
  | between _ _ code =>
      cases calls : serial.calls task with
      | nil =>
          rw [code, calls] at unfinished
          exact absurd rfl unfinished
      | cons call later =>
          rw [calls] at code
          cases kind : body call with
          | nested lines =>
              rw [compile_nested kind] at code
              have free : config.outerValue ≠ 0 := by
                rw [same.outerValue]
                exact one_ne_zero
              exact .of_step code (if_neg free)
          | plain act =>
              rw [compile_plain kind] at code
              have free : config.innerValue ≠ 0 := by
                rw [same.innerValue]
                exact one_ne_zero
              exact .of_step code (if_neg free)

/-- No task is blocked for good: either all are done, or some task can run, or a call
fails. -/
theorem Matches.progress
    (whole : ∀ call outer inner, (body call).run outer inner = run call outer inner)
    (same : Matches body outerHolder innerHolder config serial) :
    (∀ task, config.code task = []) ∨ Runs run config serial := by
  cases innerHolder with
  | some task => exact Or.inr (same.runs_inner whole rfl)
  | none =>
      cases outerHolder with
      | some task => exact Or.inr (same.runs_outer whole rfl)
      | none =>
          by_cases done : ∀ task, config.code task = []
          · exact Or.inl done
          · obtain ⟨task, unfinished⟩ := not_forall.mp done
            exact Or.inr (same.runs_free unfinished)

/-- Every interleaving is matched by one of whole calls, made in some order that keeps the
order of each task's calls. -/
theorem exec_related
    (whole : ∀ call outer inner, (body call).run outer inner = run call outer inner)
    {outer : Outer} {inner : Inner} {calls : Task → List Call} {schedule : List Task}
    (ran : exec step (start body outer inner calls) schedule = some config) :
    ∃ order serial, exec (serve run) ⟨outer, inner, calls⟩ order = some serial ∧
      Related body config serial := by
  have begun : Related body (start body outer inner calls)
      (⟨outer, inner, calls⟩ : Serial Task Call Outer Inner) :=
    ⟨none, none, rfl, fun _ => rfl, rfl, rfl, fun _ => .between nofun nofun rfl⟩
  obtain ⟨order, serial, _, served, same⟩ :=
    (simulates whole).exec begun (along_of_forall fun _ _ _ => trivial) ran
  exact ⟨order, serial, served, same⟩

end Steps

end NestedSections
