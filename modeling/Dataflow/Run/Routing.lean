import Dataflow.Message

/-!
# Running nodes in a world

A node runs by calling the instance bound to it on what its predecessors gave.
-/

set_option autoImplicit false
set_option relaxedAutoImplicit false

/-!
## The world of a run

All actor instances live in one `World`, numbered in the order they were made. An instance keeps the
behaviour of the spec it was made from and its fit state. The world also holds the environment the
instances share and a journal of the messages told so far. Whoever uses an instance holds its number
only, so two holders of one number see each other's training.
-/

namespace Dataflow

variable {ε σ α : Type}

/-- The number of an instance. -/
abbrev InstanceId := Nat

/-- An actor with its fit state. -/
structure Instance (ε σ : Type) where
  behavior : Behavior ε σ
  fit : σ

/-- A new instance of a spec. -/
def Spec.instantiate (spec : Spec ε σ) : Instance ε σ :=
  ⟨spec.behavior, spec.behavior.fresh⟩

/-- All instances, what they share, and what was told. -/
structure World (ε σ : Type) where
  instances : Array (Instance ε σ)
  environment : Environment ε
  journal : Array Message

namespace World

/-- A world without instances. -/
def new (shared : ε) : World ε σ :=
  ⟨#[], ⟨[], shared⟩, #[]⟩

/-- Changes the fit state of an instance. -/
def setFit (w : World ε σ) (id : InstanceId) (fit : σ) : World ε σ :=
  { w with instances := w.instances.modify id fun instance_ ↦ { instance_ with fit } }

end World

/-- A computation in a world. -/
abbrev Action (ε σ α : Type) : Type :=
  StateM (World ε σ) α

namespace Action

/-- Tells a message. -/
def tell (message : Message) : Action ε σ Unit :=
  modify fun w ↦ { w with journal := w.journal.push message }

/-- Makes an instance of a spec. -/
def spawn (spec : Spec ε σ) : Action ε σ InstanceId := fun w ↦
  (w.instances.size, { w with instances := w.instances.push spec.instantiate })

/-- Applies an instance; `none` if there is no such instance. -/
def apply (id : InstanceId) (inputs : List Payload) :
    Action ε σ (Option (Except (Halt ActorError) Payload)) := fun w ↦
  match w.instances[id]? with
  | none => (none, w)
  | some actor =>
    let (result, environment) := actor.behavior.apply inputs actor.fit w.environment
    (some result, { w with environment })

/-- Trains an instance. -/
def train (id : InstanceId) (inputs : List Payload) (label : Payload) :
    Action ε σ (Option (Except (Halt ActorError) Unit)) := fun w ↦
  match w.instances[id]? with
  | none => (none, w)
  | some actor =>
    let (result, fit, environment) := actor.behavior.train inputs label actor.fit w.environment
    (some result, { w with environment }.setFit id fit)

/-- The persisted fit state of an instance. -/
def exportState (id : InstanceId) : Action ε σ (Option (Except ActorError (Option Bytes))) := fun w ↦
  (w.instances[id]?.map fun actor ↦ actor.behavior.exportState actor.fit, w)

/-- Loads persisted fit state into an instance. -/
def loadState (id : InstanceId) (bytes : Bytes) : Action ε σ (Option (Except ActorError Unit)) :=
  fun w ↦
    match w.instances[id]? with
    | none => (none, w)
    | some actor =>
      let (result, fit) := actor.behavior.loadState bytes actor.fit
      (some result, w.setFit id fit)

end Action

/-- A computation in a world that may fail or crash; what it did before stays done. -/
abbrev Flow (ε σ α : Type) : Type :=
  ExceptT (Halt FlowError) (StateM (World ε σ)) α

namespace Flow

/-- Runs a computation. -/
def run (body : Flow ε σ α) : Action ε σ (Except (Halt FlowError) α) :=
  ExceptT.run body

/-- Fails with an error. -/
def fail (e : FlowError) : Flow ε σ α :=
  throw (.error e)

/-- Tells a message. -/
def tell (message : Message) : Flow ε σ Unit :=
  ExceptT.lift (Action.tell message)

end Flow

end Dataflow

/-!
## Running one node

A node takes, at each input port, what the port bound to it has given in this run. A trainer hands
its last input to its actor as the label and gives nothing. Any other node applies its actor and
spreads the result over its output ports: with one port the result itself, with several a tuple of
that many parts.

What a run needs beside the graph is its `RunContext`: the instance bound to each node, how to tell
from the environment that the run was cancelled, and the schedule by which concurrent work finishes.
-/

namespace Dataflow

variable {ε σ : Type}

/-- The instance of each node, by node number. -/
abbrev Binding : Type :=
  List InstanceId

/-- What chance decides in a concurrent run. -/
structure Schedule where
  /-- For each turn, which of the tasks in flight finishes: its position among them, counted
  around. -/
  next : Nat → Nat
  /-- For each turn, whether the task finishes just after the runner has looked for a cancellation
  and before it looks for a finished task. Then the runner takes what the task gave, and does not
  look for a cancellation again before the next turn. -/
  missed : Nat → Bool
  /-- The tasks of which no worker has begun the work when the run ends. They are dropped. -/
  dropped : NodeId → Bool

/-- Tasks finish in the order they started, no cancellation is missed, and no task is dropped. -/
def Schedule.inOrder : Schedule :=
  { next := fun _ ↦ 0, missed := fun _ ↦ false, dropped := fun _ ↦ false }

/-- What a run needs beside the graph. -/
structure RunContext (ε : Type) where
  binding : Binding
  cancelled : Environment ε → Bool
  schedule : Schedule := .inOrder

/-- Whether the run has been cancelled and the runner sees it when a task has finished in a turn. -/
def RunContext.notices {ε : Type} (context : RunContext ε) (turn : Nat) (env : Environment ε) :
    Bool :=
  context.cancelled env && !context.schedule.missed turn

/-- What a run gives. -/
structure Report where
  mode : Mode
  runner : String
  /-- The output of the sink, if the graph was executed. -/
  output : Option Payload
  /-- The drawing of the graph, if one was made. -/
  drawing : Option String

/-- The number a run gives, as an evaluation does. -/
def Report.metric (report : Report) : Option Float :=
  report.output.bind Payload.scalar?

/-- The outputs of the nodes that have completed. -/
abbrev Produced : Type :=
  NodeId → Option (List Payload)

namespace Produced

/-- No node has completed. -/
def nothing : Produced := fun _ ↦ none

/-- A node completes. -/
def record (p : Produced) (id : NodeId) (outputs : List Payload) : Produced := fun n ↦
  if n = id then some outputs else p n

/-- What an output port gave. -/
def at? (p : Produced) (port : PortRef) : Option Payload :=
  (p port.node).bind (·[port.port]?)

end Produced

/-- The payloads at the input ports of a node. -/
def gather (g : Graph ε σ) (p : Produced) (node : Node ε σ) : Except FlowError (List Payload) :=
  (g.inputs node.id).mapM fun port ↦
    match p.at? port with
    | some payload => .ok payload
    | none =>
      .error (.internal
        s!"input {NodeId.name port.node}:{port.port} of {node.label} not available")

/-- Spreads a result over output ports. -/
def unpack (outputs : Nat) (result : Payload) : Except ActorError (List Payload) :=
  match outputs, result with
  | 0, _ => .ok []
  | 1, result => .ok [result]
  | expected, .tuple parts =>
    if parts.length = expected then .ok parts else .error (.arity expected parts.length)
  | expected, _ => .error (.arity expected 1)

/-- Lets an instance do the work of a node; `none` if there is no such instance. -/
def perform (node : Node ε σ) (actor : InstanceId) (inputs : List Payload) :
    Action ε σ (Option (Except (Halt ActorError) (List Payload))) := do
  match node.kind with
  | .trainer =>
    match inputs.getLast? with
    | none => return some (.error (.error (.invalidInput "trainer received no label")))
    | some label =>
      let result ← Action.train actor inputs.dropLast label
      return result.map fun r ↦ r.map fun _ ↦ []
  | _ =>
    let result ← Action.apply actor inputs
    return result.map fun r ↦ do Halt.lift (unpack node.arity.outputs (← r))

/-- Everything that precedes the work of a node: its inputs and its instance. -/
def prepare (g : Graph ε σ) (context : RunContext ε) (p : Produced) (node : Node ε σ) :
    Except FlowError (InstanceId × List Payload) := do
  let inputs ← gather g p node
  match context.binding[node.id]? with
  | some actor => return (actor, inputs)
  | none => throw (.internal s!"no actor bound to node {NodeId.name node.id}")

/-- Does the work of a node; an actor's error is reported with the node's label. -/
def execute (node : Node ε σ) (actor : InstanceId) (inputs : List Payload) :
    Action ε σ (Except (Halt FlowError) (List Payload)) := do
  match ← perform node actor inputs with
  | some result => return Halt.mapError (FlowError.ofActor node.label) result
  | none => return .error (.error (.internal s!"no actor bound to node {NodeId.name node.id}"))

/-- The report of an executed graph: the last output of its sink. -/
def Graph.report (g : Graph ε σ) (runner : String) (p : Produced) : Report :=
  { mode := g.mode, runner, output := (p g.sink).bind List.getLast?, drawing := none }

end Dataflow
