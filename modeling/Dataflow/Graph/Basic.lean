import Dataflow.Graph.Node

/-!
# Validated graphs

Nodes and edges become a graph when they pass validation, which also orders the nodes.
-/

set_option autoImplicit false
set_option relaxedAutoImplicit false

/-!
## Ordering the nodes of a graph

`topologicalSort` places nodes one after another. It always places the lowest node that no arc
enters any more, and takes that node's outgoing arcs away. Parallel arcs and arcs from a node to
itself are allowed. The nodes it cannot place are those on a cycle or behind one.
-/

namespace Dataflow

/-- A constraint between two nodes: the first comes before the second. -/
abbrev Arc := NodeId × NodeId

/-- The arc along an edge. -/
def Edge.arc (edge : Edge) : Arc :=
  (edge.tail, edge.head)

/-- Whether no arc enters a node. -/
def isFree (arcs : List Arc) (node : NodeId) : Bool :=
  arcs.all (·.2 != node)

/-- Places the lowest free node among those waiting, as often as `fuel` allows. Gives the nodes
placed, in order, and the nodes still waiting when none is free. -/
def placeFree : Nat → List NodeId → List Arc → List NodeId × List NodeId
  | 0, waiting, _ => ([], waiting)
  | fuel + 1, waiting, arcs =>
    match waiting.find? (isFree arcs) with
    | none => ([], waiting)
    | some node =>
      let (placed, stuck) := placeFree fuel (waiting.erase node) (arcs.filter (·.1 != node))
      (node :: placed, stuck)

/-- The nodes below `count` in dependency order, and those that cannot be ordered. -/
def topologicalSort (count : Nat) (arcs : List Arc) : List NodeId × List NodeId :=
  placeFree count (List.range count) arcs

/-!
## Graphs

A `Graph` is a validated, frozen mode graph: its nodes and edges in the order they were added, the
groups it refers to, an order of its nodes that respects all edges, its source and its sink.

`validate` accepts a list of nodes and edges if the edges have no cycle, every declared input port
is bound exactly once and no other is bound, and there are exactly one source and one sink. The
first of these conditions that fails is reported.
-/

variable {ε σ : Type}

/-- What validation finds out: an order, the source and the sink. -/
structure Validated where
  order : List NodeId
  source : NodeId
  sink : NodeId
  deriving DecidableEq, Repr

/-- A validated graph for one mode. -/
structure Graph (ε σ : Type) where
  mode : Mode
  nodes : List (Node ε σ)
  edges : List Edge
  groups : List (GroupId × Spec ε σ)
  order : List NodeId
  source : NodeId
  sink : NodeId

/-! ### Validation -/

/-- Orders the nodes, or names those that cannot be ordered. -/
def orderNodes (nodes : List (Node ε σ)) (edges : List Edge) : Except FlowError (List NodeId) :=
  match topologicalSort nodes.length (edges.map Edge.arc) with
  | (order, []) => .ok order
  | (_, stuck) => .error (.cyclicGraph ((stuck.filterMap (nodes[·]?)).map Node.label))

/-- What is wrong with a data edge whose head does not declare its input port. -/
def undeclared? (nodes : List (Node ε σ)) : Edge → Option FlowError
  | .data _ head input =>
    match nodes[head]? with
    | some node =>
      if input < node.arity.inputs then none
      else some (.composition node.label s!"edge into undeclared input port {input}")
    | none => none
  | .state _ _ => none

/-- How many data edges enter an input port. -/
def bindings (edges : List Edge) (head : NodeId) (input : Nat) : Nat :=
  edges.countP fun edge ↦ (edge.feeds? head input).isSome

/-- What is wrong with a node of which some input port, the lowest counts, is not bound exactly
once. -/
def misbound? (edges : List Edge) (node : Node ε σ) : Option FlowError :=
  let faulty := (List.range node.arity.inputs).find? fun input ↦ bindings edges node.id input ≠ 1
  faulty.map fun input ↦
    let count := bindings edges node.id input
    .composition node.label s!"input port {input} has {count} predecessors, expected exactly 1"

/-- Every input port must be declared and bound exactly once. -/
def checkPorts (nodes : List (Node ε σ)) (edges : List Edge) : Except FlowError Unit :=
  match edges.findSome? (undeclared? nodes), nodes.findSome? (misbound? edges) with
  | some e, _ => .error e
  | none, some e => .error e
  | none, none => .ok ()

/-- The only node of a kind. -/
def single (nodes : List (Node ε σ)) (kind : NodeKind) : Except FlowError NodeId :=
  match nodes.filter (·.kind == kind) with
  | [node] => .ok node.id
  | [] => .error (.composition "graph" s!"no {kind.name} node")
  | _ => .error (.composition "graph" s!"more than one {kind.name} node")

/-- Checks nodes and edges. -/
def validate (nodes : List (Node ε σ)) (edges : List Edge) : Except FlowError Validated := do
  let order ← orderNodes nodes edges
  checkPorts nodes edges
  let source ← single nodes .source
  let sink ← single nodes .sink
  return ⟨order, source, sink⟩

/-! ### What a graph tells -/

/-- Adds a number to an increasing list unless it is there. -/
def insertIncreasing (n : Nat) : List Nat → List Nat
  | [] => [n]
  | m :: rest =>
    if n < m then n :: m :: rest
    else if n = m then m :: rest
    else m :: insertIncreasing n rest

namespace Graph

/-- The output ports bound to the input ports of a node, in order. -/
def inputs (g : Graph ε σ) (id : NodeId) : List PortRef :=
  match g.nodes[id]? with
  | some node => (List.range node.arity.inputs).filterMap (boundPort? g.edges id)
  | none => []

/-- The distinct tails of all edges into a node, in increasing order. -/
def dependencies (g : Graph ε σ) (id : NodeId) : List NodeId :=
  (g.edges.filter (·.head == id)).foldl (fun found edge ↦ insertIncreasing edge.tail found) []

/-- Every ordering constraint of the graph, by head and then by tail. -/
def dependencyPairs (g : Graph ε σ) : List (NodeId × NodeId) :=
  g.nodes.flatMap fun node ↦ (g.dependencies node.id).map (·, node.id)

/-- The groups whose actor is stateful. -/
def statefulGroups (g : Graph ε σ) : List (GroupId × Spec ε σ) :=
  g.groups.filter (·.2.stateful)

end Graph

end Dataflow
