import Dataflow.Run.Runner
import Dataflow.Session.Roster
import Dataflow.Workflow

/-!
# Sessions

A session is a workflow put to work: it is trained, applied and evaluated any number of times, and
keeps its fitted actors in a roster in between. Graphs are built when first needed and kept for each
mode and runner.

A training works on a staged roster that the session adopts only when the run succeeds, so a
training that fails or is cancelled leaves the former fit in place. An evaluation works on a roster
of its own that is always dropped. An application needs every stateful group to count as trained
before anything runs.

Cancelling a session stops the runs that are going on; runs started later are not affected. A run
notices a cancellation by comparing how often its session had been cancelled when it started.
-/

set_option autoImplicit false
set_option relaxedAutoImplicit false

namespace Dataflow

variable {ε σ : Type} [Inhabited σ]

/-- What sessions share: the runners, the feed and the sinks. -/
structure Runtime (ε σ : Type) where
  registry : Registry
  feed : Feed ε σ
  sinks : SinkProvider ε σ

/-- A workflow put to work. -/
structure Session (ε σ : Type) where
  /-- Tells sessions apart where they are cancelled. -/
  number : Nat
  workflow : Workflow ε σ
  runtime : Runtime ε σ
  roster : Roster ε σ := .empty
  /-- The mode of the graph last used; none before the first. -/
  phase : Option Mode := none
  graphs : List ((Mode × String) × Graph ε σ) := []

/-- A new session for a workflow. -/
def Runtime.launch {ε σ : Type} (runtime : Runtime ε σ) (number : Nat) (workflow : Workflow ε σ) :
    Session ε σ :=
  { number, workflow, runtime }

namespace Session

/-- Stops the runs of this session that are going on. -/
def cancel {ε σ : Type} (s : Session ε σ) : Action ε σ Unit :=
  modify fun w ↦ { w with environment := w.environment.cancel s.number }

/-- The graph for a mode and a runner, kept or built. -/
def graph (s : Session ε σ) (mode : Mode) (runner : String) :
    Action ε σ (Except FlowError (Graph ε σ) × Session ε σ) := do
  match s.graphs.lookup (mode, runner) with
  | some g =>
    Action.tell (.graphReused mode runner)
    return (.ok g, s)
  | none =>
    let built := s.workflow.graph s.runtime.feed s.runtime.sinks mode
    (Message.ofBuild built).forM Action.tell
    match built with
    | .error e => return (.error e, s)
    | .ok g =>
      Action.tell (.graphBuilt mode runner g.nodes.length)
      return (.ok g, { s with graphs := ((mode, runner), g) :: s.graphs })

/-- The error of an application that comes before its training: the first stateful group, in group
order, that does not count as trained. -/
def untrained? {ε σ : Type} (roster : Roster ε σ) (g : Graph ε σ) : Option FlowError :=
  (g.statefulGroups.find? fun (group, _) ↦ !roster.isTrained group).map fun (group, spec) ↦
    .notTrained s!"{spec.name} [{group.text}]"

/-- Runs a graph on a roster, whose instances the nodes are bound to. A runner that executes nothing
gets no binding. -/
def runOn {ε σ : Type} (s : Session ε σ) (g : Graph ε σ) (runner : Runner) (roster : Roster ε σ)
    (schedule : Schedule) : Action ε σ (Except (Halt FlowError) Report × Roster ε σ) := do
  let (binding, roster) ← if runner.executes then roster.bind g.nodes else pure ([], roster)
  let issued := (← get).environment.cancellations s.number
  let cancelled (env : Environment ε) : Bool := issued < env.cancellations s.number
  let result ← (runner.run g { binding, cancelled, schedule }).run
  return (result, roster)

/-- Runs a graph for its mode and keeps what the mode lets it keep. -/
def runGraph {ε σ : Type} (s : Session ε σ) (g : Graph ε σ) (mode : Mode) (runner : Runner)
    (schedule : Schedule) : Action ε σ (Except (Halt FlowError) Report × Session ε σ) := do
  match mode with
  | .train =>
    let (result, staged) ← s.runOn g runner .empty schedule
    match result with
    | .ok report =>
      if runner.executes then
        let groups := g.statefulGroups.map (·.1)
        return (.ok report, { s with roster := s.roster.commit staged groups })
      else return (.ok report, s)
    | .error h => return (.error h, s)
  | .eval =>
    let (result, _) ← s.runOn g runner .empty schedule
    return (result, s)
  | .apply =>
    match if runner.executes then untrained? s.roster g else none with
    | some e => return (.error (.error e), s)
    | none =>
      let (result, roster) ← s.runOn g runner s.roster schedule
      return (result, { s with roster })

/-- Trains, applies or evaluates on the runner of a name, or on the default runner. -/
def invoke (s : Session ε σ) (mode : Mode) (runner : Option String) (schedule : Schedule) :
    Action ε σ (Except (Halt FlowError) Report × Session ε σ) := do
  match s.runtime.registry.resolve runner with
  | .error e => return (.error (.error e), s)
  | .ok runner =>
    Action.tell (.modeInvoked mode runner.name)
    if mode = .eval ∧ s.workflow.evaluation.isNone then
      Action.tell (.modeUnavailable mode Component.evaluation.name)
      return (.error (.error (.incompleteDescriptor .evaluation)), s)
    else
      match ← s.graph mode runner.name with
      | (.error e, s) => return (.error (.error e), s)
      | (.ok g, s) => runGraph { s with phase := some mode } g mode runner schedule

/-- The persisted fit state of every group that counts as trained. The members are met in the given
order. -/
def exportState {ε σ : Type} (s : Session ε σ) (order : Roster.Order) :
    Action ε σ (Except FlowError Snapshot) := do
  match ← s.roster.exportAll order with
  | .error e => return .error e
  | .ok snapshot =>
    Action.tell (.stateExported snapshot.size)
    return .ok snapshot

/-- Loads persisted fit state for the groups of the application graph of the default runner. -/
def loadState (s : Session ε σ) (snapshot : Snapshot) :
    Action ε σ (Except FlowError Unit × Session ε σ) := do
  match ← s.graph .apply s.runtime.registry.defaultName with
  | (.error e, s) => return (.error e, s)
  | (.ok g, s) =>
    let (result, roster) ← s.roster.load snapshot g.groups
    match result with
    | .error e => return (.error e, { s with roster })
    | .ok count =>
      Action.tell (.stateLoaded count)
      return (.ok (), { s with roster })

end Session

end Dataflow
