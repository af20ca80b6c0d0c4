import Dataflow.Graph.Builder

/-!
# Builders that keep books

A `Ledger` is a builder that looks nothing up in its edges and nodes. It enters which port is bound
to each input port and which node is the latest trainer of each group, and it counts how deeply
expansions are nested. Only an expansion that is not nested in another is found again when it is
repeated.

`Book` is a computation on a ledger, step by step: what was done before a failure stays done. A
`Script` is all that can be done with a ledger from outside: it makes calls, and goes on with the
result of each, also of one that failed. The operators that are expanded are scripts themselves, and
so is what is done in another context.
-/

set_option autoImplicit false
set_option relaxedAutoImplicit false

namespace Dataflow

variable {ε σ α : Type}

/-- A builder with what it has entered in its books. -/
structure Ledger (ε σ : Type) where
  builder : Builder ε σ
  /-- The output port bound to an input port. -/
  bound : NodeId × Nat → Option PortRef := fun _ ↦ none
  /-- The latest trainer of a group. -/
  trainers : GroupId → Option NodeId := fun _ ↦ none
  /-- How many expansions are under way. -/
  depth : Nat := 0

/-- The ledger of an empty builder. -/
def Ledger.new (mode : Mode) : Ledger ε σ :=
  { builder := .new mode }

/-- Whether an output port can be bound to an input port: both nodes must exist and declare the
ports, and no port may be entered for the input port. -/
def Ledger.connectable (l : Ledger ε σ) (tail : PortRef) (head : NodeId) (input : Nat) :
    Except FlowError Unit := do
  let target ← l.builder.node head "target"
  if target.arity.inputs ≤ input then
    throw (.composition target.label
      s!"input port {input} out of range (arity {target.arity.inputs})")
  let source ← l.builder.node tail.node "source"
  if source.arity.outputs ≤ tail.port then
    throw (.composition source.label
      s!"output port {tail.port} out of range (arity {source.arity.outputs})")
  match l.bound (head, input) with
  | some bound =>
    throw (.composition target.label
      s!"input port {input} already bound to {NodeId.name bound.node}:{bound.port}")
  | none => return ()

/-- A computation on a ledger that may fail; a failure keeps what was done before it. -/
abbrev Book (ε σ α : Type) : Type :=
  ExceptT FlowError (StateM (Ledger ε σ)) α

namespace Book

/-- Runs a computation. -/
def run (body : Book ε σ α) (l : Ledger ε σ) : Except FlowError α × Ledger ε σ :=
  StateT.run (ExceptT.run body) l

/-- A result or a failure. -/
def result (result : Except FlowError α) : Book ε σ α :=
  ExceptT.mk (pure result)

/-- What becomes of a computation, without failing if it fails. -/
def outcome (body : Book ε σ α) : Book ε σ (Except FlowError α) :=
  ExceptT.mk fun l ↦
    let (result, after) := body.run l
    (.ok result, after)

/-! ### Groups and nodes -/

/-- Takes the next group of the current context. -/
def allocateGroup (spec : Spec ε σ) : Book ε σ GroupId := do
  let b := (← get).builder
  modify fun l ↦ { l with builder := b.allocateGroup spec }
  return b.nextGroup

/-- Adds an edge. -/
def pushEdge (edge : Edge) : Book ε σ Unit :=
  modify fun l ↦ { l with builder := { l.builder with edges := l.builder.edges ++ [edge] } }

/-- Enters a trainer for its group, or adds a state edge to an applier from the trainer that is entered
for its group. -/
def enroll (id : NodeId) (kind : NodeKind) (group : Option GroupId) : Book ε σ Unit :=
  match kind, group with
  | .trainer, some group =>
    modify fun l ↦ { l with trainers := fun g ↦ if g = group then some id else l.trainers g }
  | .applier, some group => do
    match (← get).trainers group with
    | some trainer => pushEdge (.state trainer id)
    | none => pure ()
  | _, _ => pure ()

/-- Adds a node with the given ports. -/
def addNodeWithArity (kind : NodeKind) (spec : Spec ε σ) (group : Option GroupId) (arity : Arity) :
    Book ε σ NodeId := do
  let id := (← get).builder.nodes.length
  modify fun l ↦
    { l with builder := { l.builder with
        nodes := l.builder.nodes ++ [⟨id, kind, spec, group, arity⟩] } }
  enroll id kind group
  return id

/-- Adds a node whose ports follow from its kind and its actor. -/
def addNode (kind : NodeKind) (spec : Spec ε σ) (group : Option GroupId) : Book ε σ NodeId :=
  addNodeWithArity kind spec group (kind.arity spec.arity)

/-! ### Edges -/

/-- Binds an output port to an input port, and enters it. -/
def connect (tail : PortRef) (head : NodeId) (input : Nat) : Book ε σ Unit := do
  result ((← get).connectable tail head input)
  modify fun l ↦
    { l with bound := fun slot ↦ if slot = (head, input) then some tail else l.bound slot }
  pushEdge (.data tail head input)

/-- Binds ports, in order, to the input ports of a node from `input` on, up to the first refusal. -/
def connectFrom (head : NodeId) : List PortRef → Nat → Book ε σ Unit
  | [], _ => pure ()
  | port :: rest, input => do
    connect port head input
    connectFrom head rest (input + 1)

/-- Binds ports to the leading input ports of a node. -/
def connectAll (ports : List PortRef) (head : NodeId) : Book ε σ Unit :=
  connectFrom head ports 0

/-- Makes one node wait for another. -/
def addStateEdge (tail head : NodeId) : Book ε σ Unit := do
  let _ ← result ((← get).builder.node tail "state edge source")
  let _ ← result ((← get).builder.node head "state edge target")
  pushEdge (.state tail head)

/-! ### Expansions and contexts -/

/-- Runs a computation one level deeper, and comes back up whether it fails or not. -/
def nested (body : Book ε σ α) : Book ε σ α :=
  ExceptT.mk fun l ↦
    let (result, after) := body.run { l with depth := l.depth + 1 }
    (result, { after with depth := after.depth - 1 })

/-- Expands an operator, of which `compose` is what it does to a track. Outside of all expansions an
earlier one is found, if it was made in the same context on the same track. -/
def expand (operator : Nat) (compose : Track → Book ε σ Track) (left : Track) : Book ε σ Track := do
  if 0 < (← get).depth then
    nested (compose left)
  else
    let key : ExpansionKey := ⟨operator, (← get).builder.context, left⟩
    match (← get).builder.memo.lookup key with
    | some track => return track
    | none =>
      let track ← nested (compose left)
      modify fun l ↦
        { l with builder := { l.builder with memo := (key, track) :: l.builder.memo } }
      return track

/-- Runs a computation in a context whose groups are numbered from zero again, and returns to the
former context afterwards, whether it fails or not. -/
def inContext (context : Context) (body : Book ε σ α) : Book ε σ α :=
  ExceptT.mk fun l ↦
    let (result, after) := body.run { l with builder := l.builder.enter context }
    (result, { after with builder := after.builder.leave l.builder.context })

end Book

/-! ### Scripts -/

/-- What can be called for. -/
inductive Operation (ε σ : Type) : Type → Type
  | allocateGroup (spec : Spec ε σ) : Operation ε σ GroupId
  | addNode (kind : NodeKind) (spec : Spec ε σ) (group : Option GroupId) : Operation ε σ NodeId
  | addNodeWithArity (kind : NodeKind) (spec : Spec ε σ) (group : Option GroupId) (arity : Arity) :
    Operation ε σ NodeId
  | connect (tail : PortRef) (head : NodeId) (input : Nat) : Operation ε σ Unit
  | connectAll (ports : List PortRef) (head : NodeId) : Operation ε σ Unit
  | addStateEdge (tail head : NodeId) : Operation ε σ Unit
  | publish (expansion : Expansion) : Operation ε σ Unit

/-- What an operation does to a ledger. -/
def Operation.book : Operation ε σ α → Book ε σ α
  | allocateGroup spec => Book.allocateGroup spec
  | addNode kind spec group => Book.addNode kind spec group
  | addNodeWithArity kind spec group arity => Book.addNodeWithArity kind spec group arity
  | connect tail head input => Book.connect tail head input
  | connectAll ports head => Book.connectAll ports head
  | addStateEdge tail head => Book.addStateEdge tail head
  | publish expansion =>
    modify fun l ↦ { l with builder := { l.builder with expansion := some expansion } }

/-- What a client does with a ledger: it looks at the builder or makes a call, and goes on with what
it sees or with what came of the call. -/
inductive Script (ε σ : Type) : Type → Type 1
  | done {α : Type} (result : Except FlowError α) : Script ε σ α
  | look {α : Type} (next : Builder ε σ → Script ε σ α) : Script ε σ α
  | call {α β : Type} (operation : Operation ε σ β) (next : Except FlowError β → Script ε σ α) : Script ε σ α
  | expand {α : Type} (operator : Nat) (compose : Track → Script ε σ Track) (left : Track)
    (next : Except FlowError Track → Script ε σ α) : Script ε σ α
  | inContext {α β : Type} (context : Context) (body : Script ε σ β)
    (next : Except FlowError β → Script ε σ α) : Script ε σ α

namespace Script

/-- What a script does to a ledger. -/
def book {α : Type} : Script ε σ α → Book ε σ α
  | done result => Book.result result
  | look next => do book (next (← get).builder)
  | call operation next => do book (next (← operation.book.outcome))
  | expand operator compose left next => do
    let result ← (Book.expand operator (fun left ↦ book (compose left)) left).outcome
    book (next result)
  | inContext context body next => do
    let result ← (Book.inContext context (book body)).outcome
    book (next result)

end Script

end Dataflow
