import Dataflow.Graph.Basic

/-!
# Messages

What a run tells its operator, with the texts of the durations in it.
-/

set_option autoImplicit false
set_option relaxedAutoImplicit false

/-!
## Durations

A duration is a number of nanoseconds. Its text uses the largest unit of seconds, milliseconds,
microseconds and nanoseconds of which there is at least one, with as many decimals as are needed to
write it exactly.
-/

namespace Dataflow

/-- A span of time. -/
structure Duration where
  nanoseconds : Nat
  deriving DecidableEq, Repr

namespace Duration

/-- The whole milliseconds of a duration. -/
def milliseconds (d : Duration) : Nat :=
  d.nanoseconds / 1000000

/-- The decimals of `rest / 10 ^ places` without trailing zeros, after a point if there are any. -/
def decimals (places rest : Nat) : String :=
  let digits := Nat.toDigits 10 (Nat.pow 10 places + rest)
  let kept := ((digits.drop 1).reverse.dropWhile (· == '0')).reverse
  if kept.isEmpty then "" else String.ofList ('.' :: kept)

/-- A duration counted in a unit of `10 ^ places` nanoseconds. -/
def inUnit (d : Duration) (places : Nat) (unit : String) : String :=
  let scale := Nat.pow 10 places
  toString (d.nanoseconds / scale) ++ decimals places (d.nanoseconds % scale) ++ unit

/-- The text of a duration in its largest unit. -/
def text (d : Duration) : String :=
  if Nat.pow 10 9 ≤ d.nanoseconds then d.inUnit 9 "s"
  else if Nat.pow 10 6 ≤ d.nanoseconds then d.inUnit 6 "ms"
  else if Nat.pow 10 3 ≤ d.nanoseconds then d.inUnit 3 "µs"
  else d.inUnit 0 "ns"

end Duration

/-!
## Log messages

A message is an event worth telling an operator: a mode was invoked, a graph was built, a run
started, failed or ended. It has a text, a level and structured fields. Each message can also open a
span, a stretch of work that carries some of the fields and a name given by its user.
-/

/-- How serious a message is. -/
inductive Level
  | error
  | warn
  | info
  | debug
  deriving DecidableEq, Repr

/-- The name of a level. -/
def Level.name : Level → String
  | error => "ERROR"
  | warn => "WARN"
  | info => "INFO"
  | debug => "DEBUG"

/-- What is told. -/
inductive Message
  | modeInvoked (mode : Mode) (runner : String)
  | modeUnavailable (mode : Mode) (component : String)
  | graphBuilt (mode : Mode) (runner : String) (nodes : Nat)
  | graphReused (mode : Mode) (runner : String)
  | stateLoaded (groups : Nat)
  | stateExported (groups : Nat)
  | graphValidated (nodes edges : Nat)
  | cycleDetected (nodes : List String)
  | runStarted (runner : String) (mode : Mode) (nodes : Nat)
  | runCompleted (runner : String) (mode : Mode) (elapsed : Duration)
  | nodeFailed (runner node error : String)
  | runCancelled (runner : String) (mode : Mode)
  | sinkEmpty (runner : String) (mode : Mode)
  | tasksCompiled (tasks dependencies workers : Nat)
  deriving DecidableEq, Repr

namespace Message

/-- The text of a message as far as it does not depend on the machine: without the duration of a run
and without the number of workers. -/
def steadyText : Message → String
  | modeInvoked mode runner => s!"Invoking {mode.name} with {runner} runner"
  | modeUnavailable mode component =>
    s!"Mode {mode.name} unavailable: descriptor has no {component} component"
  | graphBuilt mode runner nodes => s!"Built {mode.name} graph for {runner} runner: {nodes} nodes"
  | graphReused mode runner => s!"Reusing cached {mode.name} graph for {runner} runner"
  | stateLoaded groups => s!"Loaded persisted state for {groups} actors"
  | stateExported groups => s!"Exported state for {groups} actors"
  | graphValidated nodes edges => s!"Graph validated: {nodes} nodes, {edges} edges"
  | cycleDetected nodes => "Cycle detected among nodes: " ++ ", ".intercalate nodes
  | runStarted runner mode nodes =>
    s!"Starting {mode.name} run with {runner} runner: {nodes} nodes"
  | runCompleted runner mode _ => s!"Completed {mode.name} run with {runner} runner"
  | nodeFailed runner node error => s!"Node {node} failed under {runner} runner: {error}"
  | runCancelled runner mode => s!"Cancelled {mode.name} run with {runner} runner"
  | sinkEmpty runner mode => s!"Sink queue empty after {mode.name} run with {runner} runner"
  | tasksCompiled tasks dependencies _ =>
    s!"Compiled task graph: {tasks} tasks, {dependencies} dependencies"

/-- The text of a message. -/
def text (message : Message) : String :=
  match message with
  | runCompleted _ _ elapsed => message.steadyText ++ " in " ++ elapsed.text
  | tasksCompiled _ _ workers => message.steadyText ++ s!", max_concurrency={workers}"
  | _ => message.steadyText

/-- How serious a message is. -/
def level : Message → Level
  | modeInvoked _ _ => .info
  | modeUnavailable _ _ => .warn
  | graphBuilt _ _ _ => .debug
  | graphReused _ _ => .debug
  | stateLoaded _ => .info
  | stateExported _ => .debug
  | graphValidated _ _ => .debug
  | cycleDetected _ => .error
  | runStarted _ _ _ => .info
  | runCompleted _ _ _ => .info
  | nodeFailed _ _ _ => .error
  | runCancelled _ _ => .warn
  | sinkEmpty _ _ => .info
  | tasksCompiled _ _ _ => .debug

/-- A count as a field. -/
def count (name : String) (n : Nat) : String × Json :=
  (name, .int n)

/-- A text as a field. -/
def label (name text : String) : String × Json :=
  (name, .text text)

/-- The fields of a message beside its text. -/
def fields : Message → List (String × Json)
  | modeInvoked mode runner => [label "mode" mode.name, label "runner" runner]
  | modeUnavailable mode component => [label "component" component, label "mode" mode.name]
  | graphBuilt mode runner nodes =>
    [label "mode" mode.name, count "node_count" nodes, label "runner" runner]
  | graphReused mode runner => [label "mode" mode.name, label "runner" runner]
  | stateLoaded groups => [count "group_count" groups]
  | stateExported groups => [count "group_count" groups]
  | graphValidated nodes edges => [count "edge_count" edges, count "node_count" nodes]
  | cycleDetected nodes =>
    [count "node_count" nodes.length, label "nodes" (", ".intercalate nodes)]
  | runStarted runner mode nodes =>
    [label "mode" mode.name, count "node_count" nodes, label "runner" runner]
  | runCompleted runner mode elapsed =>
    [count "duration_ms" elapsed.milliseconds, label "mode" mode.name, label "runner" runner]
  | nodeFailed runner node error =>
    [label "error" error, label "node" node, label "runner" runner]
  | runCancelled runner mode => [label "mode" mode.name, label "runner" runner]
  | sinkEmpty runner mode => [label "mode" mode.name, label "runner" runner]
  | tasksCompiled tasks dependencies workers =>
    [count "dependency_count" dependencies, count "max_concurrency" workers,
      count "task_count" tasks]

/-- The kind of span a message opens. -/
def spanKind : Message → String
  | modeInvoked _ _ => "dispatch"
  | modeUnavailable _ _ => "dispatch"
  | graphBuilt _ _ _ => "dispatch"
  | graphReused _ _ => "dispatch"
  | stateLoaded _ => "state"
  | stateExported _ => "state"
  | graphValidated _ _ => "graph"
  | cycleDetected _ => "graph"
  | runStarted _ _ _ => "run"
  | runCompleted _ _ _ => "run"
  | nodeFailed _ _ _ => "node"
  | runCancelled _ _ => "run"
  | sinkEmpty _ _ => "run"
  | tasksCompiled _ _ _ => "task_graph"

/-- The fields a span of this message does not carry: what was counted after a graph was built, how
long a run took, what went wrong, how many nodes a cycle has, and how many workers there are. -/
def spanOmits : Message → List String
  | graphBuilt _ _ _ => ["node_count"]
  | cycleDetected _ => ["node_count"]
  | runCompleted _ _ _ => ["duration_ms"]
  | nodeFailed _ _ _ => ["error"]
  | tasksCompiled _ _ _ => ["max_concurrency"]
  | _ => []

/-- The fields of the span a message opens, with the name its user gave it. -/
def spanFields (message : Message) (name : String) : List (String × Json) :=
  label "span_name" name :: message.fields.filter fun field ↦ !message.spanOmits.contains field.1

/-- What is told about the outcome of building a graph. -/
def ofBuild {ε σ : Type} : Except FlowError (Graph ε σ) → List Message
  | .ok g => [graphValidated g.nodes.length g.edges.length]
  | .error (.cyclicGraph nodes) => [cycleDetected nodes]
  | .error _ => []

end Message

end Dataflow
