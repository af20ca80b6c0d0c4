import Dataflow.Graph.Basic

/-!
# Tracks and builders

Operators put nodes into a builder, and a track tells each of them where to attach.
-/

set_option autoImplicit false
set_option relaxedAutoImplicit false

/-!
## Tracks

A track is what an operator composes onto: the open output ports that carry features, and, where
there is one, the port that carries the label. Trainers consume the label; everything else passes it
on.
-/

namespace Dataflow

/-- Open output ports and an optional label port. -/
structure Track where
  ports : List PortRef
  label : Option PortRef
  deriving DecidableEq, Repr

namespace Track

/-- The number of feature ports. -/
def width (t : Track) : Nat :=
  t.ports.length

/-- An operator needs this many feature ports. -/
def expectWidth (t : Track) (operator : String) (width : Nat) : Except FlowError Unit :=
  if t.width = width then .ok ()
  else
    .error (.composition operator
      s!"expects {width} input port(s) but the left side provides {t.width}")

/-- An operator needs a label. -/
def requireLabel (t : Track) (operator : String) : Except FlowError PortRef :=
  match t.label with
  | some port => .ok port
  | none => .error (.composition operator "training requires a label but none is available")

/-- The first `width` outputs of a node, with this track's label. -/
def rebased (t : Track) (node : NodeId) (width : Nat) : Track :=
  { ports := (List.range width).map fun port ↦ ⟨node, port⟩, label := t.label }

end Track

/-!
## Building graphs

A `Builder` accumulates nodes and edges for one mode. It works in a *context*, a scope and a shape,
and numbers the groups of each context from zero. The operations `addNode`, `connect` and
`addStateEdge` give a new builder or a refusal; a refused call changes nothing.

`Build` is a computation that uses a builder. What it did before it fails stays done.

A trainer that is added becomes the trainer of its group, and an applier added to a group that has a
trainer gets a state edge from it. Which port feeds an input port, and which node is a group's
trainer, is read off the edges and the nodes.
-/

variable {ε σ α : Type}

/-- Where groups are numbered: a scope and a shape. -/
structure Context where
  scope : Nat
  shape : Shape
  deriving DecidableEq, Repr

/-- Source and sink of a whole workflow. -/
structure Expansion where
  source : NodeId
  sink : NodeId
  deriving DecidableEq, Repr

/-- What identifies an expansion of an operator: the operator, the context and the incoming
track. -/
structure ExpansionKey where
  operator : Nat
  context : Context
  left : Track
  deriving DecidableEq, Repr

/-- Nodes and edges under construction. -/
structure Builder (ε σ : Type) where
  mode : Mode
  context : Context
  nodes : List (Node ε σ) := []
  edges : List Edge := []
  /-- The next ordinal of each context. -/
  ordinals : Context → Nat := fun _ ↦ 0
  /-- The groups allocated so far, in group order, each with the first spec it was allocated for. -/
  groups : List (GroupId × Spec ε σ) := []
  memo : List (ExpansionKey × Track) := []
  expansion : Option Expansion := none

namespace Builder

/-- An empty builder for a mode. -/
def new (mode : Mode) : Builder ε σ :=
  { mode, context := ⟨0, mode.shape⟩ }

/-! ### Groups -/

/-- Adds a group in group order unless it is there. -/
def insertGroup (group : GroupId) (spec : Spec ε σ) :
    List (GroupId × Spec ε σ) → List (GroupId × Spec ε σ)
  | [] => [(group, spec)]
  | (g, s) :: rest =>
    if group.before g then (group, spec) :: (g, s) :: rest
    else if group = g then (g, s) :: rest
    else (g, s) :: insertGroup group spec rest

/-- Sets the next ordinal of a context. -/
def setOrdinal (b : Builder ε σ) (context : Context) (n : Nat) : Builder ε σ :=
  { b with ordinals := fun c ↦ if c = context then n else b.ordinals c }

/-- Enters a context, whose groups are numbered from zero again. -/
def enter (b : Builder ε σ) (context : Context) : Builder ε σ :=
  { b with context }.setOrdinal context 0

/-- Leaves the current context for a former one, whose numbering goes on. -/
def leave (b : Builder ε σ) (former : Context) : Builder ε σ :=
  { b with context := former }

/-- The next group of the current context. -/
def nextGroup (b : Builder ε σ) : GroupId :=
  ⟨b.context.scope, b.ordinals b.context⟩

/-- Takes the next group of the current context for a spec. -/
def allocateGroup (b : Builder ε σ) (spec : Spec ε σ) : Builder ε σ :=
  { b.setOrdinal b.context (b.ordinals b.context + 1) with
    groups := insertGroup b.nextGroup spec b.groups }

/-! ### Nodes -/

/-- The latest trainer of a group. -/
def trainer? (b : Builder ε σ) (group : GroupId) : Option NodeId :=
  ((b.nodes.filter fun node ↦ node.kind == .trainer && node.group == some group).getLast?).map
    Node.id

/-- The state edge an added node gets: one from its group's trainer if it is an applier. -/
def stateEdges (b : Builder ε σ) (kind : NodeKind) (group : Option GroupId) : List Edge :=
  match kind, group.bind b.trainer? with
  | .applier, some trainer => [.state trainer b.nodes.length]
  | _, _ => []

/-- Adds a node with the given ports. Its number is the number of nodes before it. -/
def addNodeWithArity (b : Builder ε σ) (kind : NodeKind) (spec : Spec ε σ) (group : Option GroupId)
    (arity : Arity) : Builder ε σ :=
  { b with
    nodes := b.nodes ++ [⟨b.nodes.length, kind, spec, group, arity⟩]
    edges := b.edges ++ b.stateEdges kind group }

/-- Adds a node whose ports follow from its kind and its actor. -/
def addNode (b : Builder ε σ) (kind : NodeKind) (spec : Spec ε σ) (group : Option GroupId) :
    Builder ε σ :=
  b.addNodeWithArity kind spec group (kind.arity spec.arity)

/-! ### Edges -/

/-- The node of a number, or a composition error. -/
def node (b : Builder ε σ) (id : NodeId) (role : String) : Except FlowError (Node ε σ) :=
  match b.nodes[id]? with
  | some node => .ok node
  | none => .error (.composition (NodeId.name id) s!"unknown {role} node")

/-- Binds an output port to an input port. Both nodes must exist and declare the ports, and the
input port must be free. -/
def connect (b : Builder ε σ) (tail : PortRef) (head : NodeId) (input : Nat) :
    Except FlowError (Builder ε σ) := do
  let target ← b.node head "target"
  if target.arity.inputs ≤ input then
    throw (.composition target.label
      s!"input port {input} out of range (arity {target.arity.inputs})")
  let source ← b.node tail.node "source"
  if source.arity.outputs ≤ tail.port then
    throw (.composition source.label
      s!"output port {tail.port} out of range (arity {source.arity.outputs})")
  match boundPort? b.edges head input with
  | some bound =>
    throw (.composition target.label
      s!"input port {input} already bound to {NodeId.name bound.node}:{bound.port}")
  | none => return { b with edges := b.edges ++ [.data tail head input] }

/-- Makes one node wait for another. -/
def addStateEdge (b : Builder ε σ) (tail head : NodeId) : Except FlowError (Builder ε σ) := do
  let _ ← b.node tail "state edge source"
  let _ ← b.node head "state edge target"
  return { b with edges := b.edges ++ [.state tail head] }

/-- Validates what was accumulated and freezes it. -/
def build (b : Builder ε σ) : Except FlowError (Graph ε σ) := do
  let found ← validate b.nodes b.edges
  return { mode := b.mode, nodes := b.nodes, edges := b.edges, groups := b.groups
           order := found.order, source := found.source, sink := found.sink }

end Builder

/-! ### Computations on a builder -/

/-- A computation on a builder that may fail; a failure keeps what was done before it. -/
abbrev Build (ε σ α : Type) : Type :=
  ExceptT FlowError (StateM (Builder ε σ)) α

namespace Build

/-- Runs a computation. -/
def run (body : Build ε σ α) (b : Builder ε σ) : Except FlowError α × Builder ε σ :=
  StateT.run (ExceptT.run body) b

/-- A step that either gives a new builder or is refused and changes nothing. -/
def attempt (step : Builder ε σ → Except FlowError (Builder ε σ)) : Build ε σ Unit := do
  match step (← get) with
  | .ok b => set b
  | .error e => throw e

/-- Takes the next group of the current context. -/
def allocateGroup (spec : Spec ε σ) : Build ε σ GroupId := do
  let b ← get
  set (b.allocateGroup spec)
  return b.nextGroup

/-- Adds a node whose ports follow from its kind and its actor. -/
def addNode (kind : NodeKind) (spec : Spec ε σ) (group : Option GroupId) : Build ε σ NodeId := do
  let b ← get
  set (b.addNode kind spec group)
  return b.nodes.length

/-- Adds a node with the given ports. -/
def addNodeWithArity (kind : NodeKind) (spec : Spec ε σ) (group : Option GroupId) (arity : Arity) :
    Build ε σ NodeId := do
  let b ← get
  set (b.addNodeWithArity kind spec group arity)
  return b.nodes.length

/-- Binds an output port to an input port. -/
def connect (tail : PortRef) (head : NodeId) (input : Nat) : Build ε σ Unit :=
  attempt fun b ↦ b.connect tail head input

/-- Binds ports, in order, to the input ports of a node from `input` on, up to the first refusal. -/
def connectFrom (head : NodeId) : List PortRef → Nat → Build ε σ Unit
  | [], _ => pure ()
  | port :: rest, input => do
    connect port head input
    connectFrom head rest (input + 1)

/-- Binds ports to the leading input ports of a node. -/
def connectAll (ports : List PortRef) (head : NodeId) : Build ε σ Unit :=
  connectFrom head ports 0

/-- Makes one node wait for another. -/
def addStateEdge (tail head : NodeId) : Build ε σ Unit :=
  attempt fun b ↦ b.addStateEdge tail head

/-- A failure, or nothing. -/
def check (result : Except FlowError α) : Build ε σ α :=
  match result with
  | .ok a => pure a
  | .error e => throw e

/-- Runs a computation in a context whose groups are numbered from zero again, and returns to the
former context afterwards, whether it fails or not. -/
def inContext (context : Context) (body : Build ε σ α) : Build ε σ α :=
  ExceptT.mk fun b ↦
    let (result, after) := body.run (b.enter context)
    (result, after.leave b.context)

end Build

end Dataflow
