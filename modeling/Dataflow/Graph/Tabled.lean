import Dataflow.Graph.Builder

/-!
# Building with tables

The checks of a graph can be made with tables of counters, which have one entry for each node and
are filled in one pass over the edges. Nodes are ordered by counting down how many arcs still enter
each node, with the free nodes in a queue; input ports are checked by counting the data edges into
each of them; and what a graph tells of its nodes is kept in tables as well.

A computation on tables crashes if it reaches for an entry that is not there, takes one from a
counter that stands at zero, or runs out of the fuel that a loop is given.
-/

set_option autoImplicit false
set_option relaxedAutoImplicit false

namespace Dataflow.Tabled

variable {ε σ α : Type}

/-! ### Tables -/

/-- An entry of a table. -/
def entry (table : List α) (i : Nat) : Except (Halt FlowError) α :=
  match table[i]? with
  | some a => .ok a
  | none => .error .crash

/-- Changes an entry of a table. -/
def change (table : List α) (i : Nat) (f : α → α) : Except (Halt FlowError) (List α) := do
  return table.set i (f (← entry table i))

/-- Takes one from a counter. -/
def decrease : Nat → Except (Halt FlowError) Nat
  | 0 => .error .crash
  | n + 1 => .ok n

/-! ### Ordering by counters -/

/-- For each node, how many arcs enter it and where the arcs lead that leave it. -/
structure ArcTables where
  degrees : List Nat
  successors : List (List NodeId)
  deriving DecidableEq, Repr

/-- Enters arcs into tables. -/
def enterArcs : List Arc → ArcTables → Except (Halt FlowError) ArcTables
  | [], tables => .ok tables
  | (tail, head) :: rest, tables => do
    let degrees ← change tables.degrees head (· + 1)
    let successors ← change tables.successors tail (· ++ [head])
    enterArcs rest ⟨degrees, successors⟩

/-- Adds a node to an increasing queue. -/
def enqueue (node : NodeId) : List NodeId → List NodeId
  | [] => [node]
  | first :: rest => if node < first then node :: first :: rest else first :: enqueue node rest

/-- Takes away arcs that lead to these nodes. A node that no arc enters any more is free. -/
def release : List NodeId → List Nat → List NodeId →
    Except (Halt FlowError) (List Nat × List NodeId)
  | [], degrees, ready => .ok (degrees, ready)
  | head :: rest, degrees, ready => do
    let left ← decrease (← entry degrees head)
    release rest (degrees.set head left) (if left = 0 then enqueue head ready else ready)

/-- Places the lowest free node, until none is free, and takes the arcs away that leave it. Gives the
nodes placed, in order, and the counters at the end. -/
def placeReady (successors : List (List NodeId)) : Nat → List Nat → List NodeId →
    Except (Halt FlowError) (List NodeId × List Nat)
  | _, degrees, [] => .ok ([], degrees)
  | 0, _, _ :: _ => .error .crash
  | fuel + 1, degrees, node :: ready => do
    let (degrees, ready) ← release (← entry successors node) degrees ready
    let (placed, degrees) ← placeReady successors fuel degrees ready
    return (node :: placed, degrees)

/-- The nodes that some arc still enters. -/
def blocked (degrees : List Nat) : List (Node ε σ) → Except (Halt FlowError) (List (Node ε σ))
  | [] => .ok []
  | node :: rest => do
    let degree ← entry degrees node.id
    let others ← blocked degrees rest
    return if 0 < degree then node :: others else others

/-- Orders the nodes, or names those that cannot be ordered. -/
def orderNodes (nodes : List (Node ε σ)) (edges : List Edge) :
    Except (Halt FlowError) (List NodeId) := do
  let count := nodes.length
  let tables ← enterArcs (edges.map Edge.arc) ⟨List.replicate count 0, List.replicate count []⟩
  let ready := (List.range count).filter fun node ↦ tables.degrees[node]? = some 0
  let (placed, degrees) ← placeReady tables.successors count tables.degrees ready
  if placed.length < count then
    let stuck ← blocked degrees nodes
    throw (.error (.cyclicGraph (stuck.map Node.label)))
  return placed

/-! ### Counting the bindings of input ports -/

/-- Counts data edges at the input ports they enter. -/
def countBindings (nodes : List (Node ε σ)) : List Edge → List (List Nat) →
    Except (Halt FlowError) (List (List Nat))
  | [], counts => .ok counts
  | .state _ _ :: rest, counts => countBindings nodes rest counts
  | .data _ head input :: rest, counts => do
    let ports ← entry counts head
    match ports[input]? with
    | some count => countBindings nodes rest (counts.set head (ports.set input (count + 1)))
    | none =>
      let node ← entry nodes head
      throw (.error (.composition node.label s!"edge into undeclared input port {input}"))

/-- What is wrong with a node whose input ports are bound this often. -/
def misbound? (node : Node ε σ) (ports : List Nat) : Option FlowError :=
  (ports.zipIdx.find? (·.1 ≠ 1)).map fun (count, input) ↦
    .composition node.label s!"input port {input} has {count} predecessors, expected exactly 1"

/-- Every input port must be declared and bound exactly once. -/
def checkPorts (nodes : List (Node ε σ)) (edges : List Edge) : Except (Halt FlowError) Unit := do
  let counts ← countBindings nodes edges (nodes.map fun node ↦ List.replicate node.arity.inputs 0)
  match (nodes.zip counts).findSome? fun (node, ports) ↦ misbound? node ports with
  | some e => throw (.error e)
  | none => return ()

/-! ### Freezing -/

/-- For each node, the output port bound to each of its input ports, and the distinct tails of the
edges into it, in increasing order. -/
structure NodeTables where
  inputs : List (List (Option PortRef))
  dependencies : List (List NodeId)
  deriving DecidableEq, Repr

/-- Enters edges into tables. -/
def enterEdges : List Edge → NodeTables → Except (Halt FlowError) NodeTables
  | [], tables => .ok tables
  | edge :: rest, tables => do
    let dependencies ← change tables.dependencies edge.head (insertIncreasing edge.tail)
    match edge with
    | .state _ _ => enterEdges rest { tables with dependencies }
    | .data tail head input =>
      let ports ← change (← entry tables.inputs head) input fun _ ↦ some tail
      enterEdges rest ⟨tables.inputs.set head ports, dependencies⟩

/-- The tables of a graph without edges. -/
def NodeTables.unbound (nodes : List (Node ε σ)) : NodeTables where
  inputs := nodes.map fun node ↦ List.replicate node.arity.inputs none
  dependencies := nodes.map fun _ ↦ []

/-- Validates what a builder has accumulated and freezes it, together with the tables of what feeds
its nodes and what they depend on. -/
def build (b : Builder ε σ) : Except (Halt FlowError) (Graph ε σ × NodeTables) := do
  let order ← orderNodes b.nodes b.edges
  checkPorts b.nodes b.edges
  let source ← Halt.lift (single b.nodes .source)
  let sink ← Halt.lift (single b.nodes .sink)
  let tables ← enterEdges b.edges (.unbound b.nodes)
  return ({ mode := b.mode, nodes := b.nodes, edges := b.edges, groups := b.groups
            order, source, sink }, tables)

end Dataflow.Tabled
