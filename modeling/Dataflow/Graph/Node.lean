import Dataflow.Actor

/-!
# Groups, nodes and edges

What graphs are made of: nodes that place actors, the groups that share them, and the edges between
nodes.
-/

set_option autoImplicit false
set_option relaxedAutoImplicit false

/-!
## Group numbers

A group is one logical use of an operator in a pipeline: all its nodes, in every graph, are backed
by one actor instance. It is numbered by a scope and by an ordinal within the scope. Its text is
`scope.ordinal` in decimal, and persisted state is kept under that text.

A text is read at its first point. Each side is an optional plus and at least one digit, and must be
below `2 ^ 32`; when both sides are at fault the scope is reported.
-/

namespace Dataflow

/-- The scope of a group and its ordinal within the scope. -/
structure GroupId where
  scope : Nat
  ordinal : Nat
  deriving DecidableEq, Repr

namespace GroupId

/-- The order of groups: by scope, then by ordinal. -/
def before (a b : GroupId) : Bool :=
  a.scope < b.scope || (a.scope == b.scope && a.ordinal < b.ordinal)

/-- The text of a group. -/
def text (g : GroupId) : String :=
  s!"{g.scope}.{g.ordinal}"

/-- Why a text is not that of a group. -/
inductive Fault
  | noPoint
  | scope
  | ordinal
  deriving DecidableEq, Repr

/-- The wording of a fault found in a text. -/
def Fault.message (text : String) : Fault → String
  | noPoint => s!"invalid group id '{text}'"
  | scope => s!"invalid group scope in '{text}'"
  | ordinal => s!"invalid group ordinal in '{text}'"

/-- The value of one of the ten digits. -/
def digit? (c : Char) : Option Nat :=
  if '0' ≤ c ∧ c ≤ '9' then some (c.toNat - 48) else none

/-- The number written by digits after `n`. -/
def digits? (n : Nat) : List Char → Option Nat
  | [] => some n
  | c :: rest =>
    match digit? c with
    | some d => digits? (10 * n + d) rest
    | none => none

/-- Reads a number below `2 ^ 32`, with an optional plus. -/
def number? (cs : List Char) : Option Nat :=
  let digits :=
    match cs with
    | '+' :: rest => rest
    | cs => cs
  if digits.isEmpty then none
  else
    match digits? 0 digits with
    | some n => if n < UInt32.size then some n else none
    | none => none

/-- The characters before and after the first point. -/
def splitAtPoint : List Char → Option (List Char × List Char)
  | [] => none
  | c :: rest =>
    if c = '.' then some ([], rest)
    else (splitAtPoint rest).map fun (head, tail) ↦ (c :: head, tail)

/-- Reads the text of a group. -/
def parse (text : String) : Except Fault GroupId :=
  match splitAtPoint text.toList with
  | none => .error .noPoint
  | some (scope, ordinal) =>
    match number? scope, number? ordinal with
    | none, _ => .error .scope
    | some _, none => .error .ordinal
    | some scope, some ordinal => .ok ⟨scope, ordinal⟩

end GroupId

/-!
## Nodes and edges

A graph serves one mode: it trains, applies or evaluates a pipeline. Its nodes place actors and are
numbered from zero in the order they were added. A node has input ports and output ports, also
numbered from zero. A data edge carries what one output port gives into one input port; a state edge
carries nothing and only makes its head wait for its tail.
-/

/-- What a graph is for. -/
inductive Mode
  | train
  | apply
  | eval
  deriving DecidableEq, Repr

/-- The name of a mode. -/
def Mode.name : Mode → String
  | train => "train"
  | apply => "apply"
  | eval => "eval"

/-- Which nodes an operator stands for: those that fit it, or those that use it. -/
inductive Shape
  | train
  | apply
  deriving DecidableEq, Repr

/-- The shape a graph for a mode starts in. -/
def Mode.shape : Mode → Shape
  | apply => .apply
  | train => .train
  | eval => .train

/-- The number of a node. -/
abbrev NodeId := Nat

/-- The name of a node number. -/
def NodeId.name (id : NodeId) : String :=
  s!"n{id}"

/-- An output port of a node. -/
structure PortRef where
  node : NodeId
  port : Nat
  deriving DecidableEq, Repr

/-- What is done with a node's actor. -/
inductive NodeKind
  | source
  | applier
  | trainer
  | sink
  deriving DecidableEq, Repr

/-- The name of a kind of node. -/
def NodeKind.name : NodeKind → String
  | source => "source"
  | applier => "applier"
  | trainer => "trainer"
  | sink => "sink"

/-- The ports a node of a kind has for an actor: a trainer takes a label after the actor's inputs
and gives nothing. -/
def NodeKind.arity (kind : NodeKind) (actor : Arity) : Arity :=
  match kind with
  | source => ⟨0, 1⟩
  | applier => actor
  | trainer => ⟨actor.inputs + 1, 0⟩
  | sink => ⟨1, 1⟩

/-- An actor placed in a graph. -/
structure Node (ε σ : Type) where
  id : NodeId
  kind : NodeKind
  spec : Spec ε σ
  group : Option GroupId
  arity : Arity

/-- The number and the actor's name, as errors and messages identify a node. -/
def Node.label {ε σ : Type} (node : Node ε σ) : String :=
  NodeId.name node.id ++ ":" ++ node.spec.name

/-- A connection between two nodes. -/
inductive Edge
  | data (tail : PortRef) (head : NodeId) (input : Nat)
  | state (tail head : NodeId)
  deriving DecidableEq, Repr

namespace Edge

/-- The node an edge leaves. -/
def tail : Edge → NodeId
  | data tail _ _ => tail.node
  | state tail _ => tail

/-- The node an edge enters. -/
def head : Edge → NodeId
  | data _ head _ => head
  | state _ head => head

/-- The port that an edge brings to an input port, if it does. -/
def feeds? (head : NodeId) (input : Nat) : Edge → Option PortRef
  | data port h i => if h = head ∧ i = input then some port else none
  | state _ _ => none

end Edge

/-- The output port bound to an input port. -/
def boundPort? (edges : List Edge) (head : NodeId) (input : Nat) : Option PortRef :=
  edges.findSome? (Edge.feeds? head input)

end Dataflow
