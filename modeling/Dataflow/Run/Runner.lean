import Dataflow.Run.Distributed

/-!
# Runners

The runner that takes one node at a time, the one that draws, and the choice of a runner by its
name.
-/

set_option autoImplicit false
set_option relaxedAutoImplicit false

/-!
## The sequential runner

Nodes run one after another in the order of the graph. Before each node the run stops if it has been
cancelled. The first node that fails ends the run, and its error is the outcome.
-/

namespace Dataflow.Sequential

variable {ε σ : Type}

/-- The name of this runner. -/
def name : String := "sequential"

/-- Runs one node after those already completed. -/
def visit (g : Graph ε σ) (context : RunContext ε) (p : Produced) (id : NodeId) :
    Flow ε σ Produced := do
  if context.cancelled (← get).environment then
    Flow.tell (.runCancelled name g.mode)
    Flow.fail .cancelled
  match g.nodes[id]? with
  | none => throw .crash
  | some node =>
    match prepare g context p node with
    | .error e => Flow.fail e
    | .ok (actor, inputs) =>
      match ← ExceptT.lift (execute node actor inputs) with
      | .ok outputs => return p.record id outputs
      | .error .crash => throw .crash
      | .error (.error e) =>
        Flow.tell (.nodeFailed name node.label e.message)
        Flow.fail e

/-- Runs nodes in the given order. -/
def visitAll (g : Graph ε σ) (context : RunContext ε) : List NodeId → Produced → Flow ε σ Produced
  | [], p => return p
  | id :: rest, p => do visitAll g context rest (← visit g context p id)

/-- Runs a graph. -/
def run (g : Graph ε σ) (context : RunContext ε) : Flow ε σ Report := do
  Flow.tell (.runStarted name g.mode g.nodes.length)
  let p ← visitAll g context g.order .nothing
  Flow.tell (.runCompleted name g.mode ⟨0⟩)
  return g.report name p

end Dataflow.Sequential

/-!
## Drawing a graph

The visualizing runner executes nothing. It writes the graph in the DOT language: one line for the
mode, one for the direction, one for each node in node order and one for each edge in edge order. A
node is captioned by its label, with a mark on trainers, and is a box if it belongs to a group and
an ellipse if not. A data edge is labelled by the input port it enters; a state edge is dotted.

Captions stand in double quotes, in which a backslash and a quote are each preceded by a backslash.
-/

namespace Dataflow.Drawing

variable {ε σ : Type}

/-- The name of the visualizing runner. -/
def name : String := "visualize"

/-- The direction of a drawing if none is chosen. -/
def defaultDirection : String := "LR"

/-- A text with each occurrence of a character replaced. -/
def replaceChar (old : Char) (new : List Char) (cs : List Char) : List Char :=
  cs.flatMap fun c ↦ if c = old then new else [c]

/-- A text as it stands inside double quotes: first its backslashes are escaped, then its quotes. -/
def escape (s : String) : String :=
  String.ofList (replaceChar '"' ['\\', '"'] (replaceChar '\\' ['\\', '\\'] s.toList))

/-- The caption of a node. -/
def caption (node : Node ε σ) : String :=
  match node.kind with
  | .trainer => node.label ++ " (train)"
  | _ => node.label

/-- The shape of a node. -/
def outline (node : Node ε σ) : String :=
  if node.group.isSome then "box" else "ellipse"

/-- The line of a node. -/
def nodeLine (node : Node ε σ) : String :=
  "  " ++ NodeId.name node.id ++ " [label=\"" ++ escape (caption node) ++ "\", shape=" ++
    outline node ++ "];\n"

/-- The line of an edge. -/
def edgeLine : Edge → String
  | .data tail head input =>
    s!"  {NodeId.name tail.node} -> {NodeId.name head} [label=\"{input}\"];\n"
  | .state tail head => s!"  {NodeId.name tail} -> {NodeId.name head} [style=dotted];\n"

/-- The drawing of a graph in a direction. -/
def render (direction : String) (g : Graph ε σ) : String :=
  "digraph " ++ g.mode.name ++ " \x7b\n  rankdir=" ++ direction ++ ";\n" ++
    String.join (g.nodes.map nodeLine) ++ String.join (g.edges.map edgeLine) ++ "\x7d\n"

/-- Draws a graph instead of running it. -/
def run (direction : String) (g : Graph ε σ) : Flow ε σ Report := do
  Flow.tell (.runStarted name g.mode g.nodes.length)
  Flow.tell (.sinkEmpty name g.mode)
  return { mode := g.mode, runner := name, output := none, drawing := some (render direction g) }

end Dataflow.Drawing

/-!
## Runners and their registry

A runner executes a graph, one node at a time or with several workers, or draws it. A registry keeps
at most one runner of each name, sorted by name. Its default name is the one it was given, else that
of the distributed runner if it is registered, else that of the sequential one. A name that is not
registered is unknown, also if it is the default.
-/

namespace Dataflow

variable {ε σ : Type}

/-- A way to run a graph. -/
inductive Runner
  | sequential
  | distributed (workers : Nat)
  | visualize (direction : String)
  deriving DecidableEq, Repr

namespace Runner

/-- The name of a runner. -/
def name : Runner → String
  | sequential => Sequential.name
  | distributed _ => Distributed.name
  | visualize _ => Drawing.name

/-- Whether a runner calls actors. -/
def executes : Runner → Bool
  | visualize _ => false
  | _ => true

/-- Runs a graph. -/
def run (runner : Runner) (g : Graph ε σ) (context : RunContext ε) : Flow ε σ Report :=
  match runner with
  | sequential => Sequential.run g context
  | distributed workers => Distributed.run workers g context
  | visualize direction => Drawing.run direction g

end Runner

/-- Runners sorted by name, and the name chosen as default. -/
structure Registry where
  runners : List Runner := []
  chosen : Option String := none
  deriving DecidableEq, Repr

namespace Registry

/-- Adds a runner to a list sorted by name, in place of one of its name. -/
def insert (runner : Runner) : List Runner → List Runner
  | [] => [runner]
  | other :: rest =>
    if runner.name < other.name then runner :: other :: rest
    else if runner.name = other.name then runner :: rest
    else other :: insert runner rest

/-- Registers a runner under its name. -/
def register (registry : Registry) (runner : Runner) : Registry :=
  { registry with runners := insert runner registry.runners }

/-- The names of the registered runners. -/
def names (registry : Registry) : List String :=
  registry.runners.map Runner.name

/-- The name used where none is given. -/
def defaultName (registry : Registry) : String :=
  match registry.chosen with
  | some name => name
  | none => if registry.names.contains Distributed.name then Distributed.name else Sequential.name

/-- The runner of a name, or of the default name. -/
def resolve (registry : Registry) (name : Option String) : Except FlowError Runner :=
  let name := name.getD registry.defaultName
  match registry.runners.find? (·.name = name) with
  | some runner => .ok runner
  | none => .error (.unknownRunner name)

end Registry

end Dataflow
