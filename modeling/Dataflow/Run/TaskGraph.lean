import Dataflow.Graph.Tabled

/-!
# Task graphs

For concurrent execution a graph is compiled into tasks, one for each node. A task knows its rank,
which is its position in the graph's order, the distinct tasks it depends on, and the tasks that
depend on it. The ready queue holds the tasks that may start and gives the one of lowest rank first.
-/

set_option autoImplicit false
set_option relaxedAutoImplicit false

namespace Dataflow

variable {ε σ : Type}

/-- The work of one node and its place among the others. -/
structure Task where
  node : NodeId
  rank : Nat
  dependencies : List NodeId
  dependents : List NodeId
  deriving DecidableEq, Repr

/-- One task for each node, in node order. -/
abbrev TaskGraph : Type :=
  List Task

namespace TaskGraph

/-- The tasks of a graph. -/
def compile (g : Graph ε σ) : TaskGraph :=
  let dependencies := g.nodes.map fun node ↦ (node.id, g.dependencies node.id)
  dependencies.map fun (node, before) ↦
    { node
      rank := g.order.idxOf node
      dependencies := before
      dependents := (dependencies.filter fun (_, others) ↦ others.contains node).map (·.1) }

/-- Every pair of a dependency and the task that has it. -/
def dependencyPairs (tasks : TaskGraph) : List (NodeId × NodeId) :=
  tasks.flatMap fun task ↦ task.dependencies.map (·, task.node)

/-- For each task, how many of its dependencies have not completed at the start. -/
def pendingCounts (tasks : TaskGraph) : List Nat :=
  tasks.map (·.dependencies.length)

end TaskGraph

/-- Ranks and nodes of the tasks that may start, in increasing order. -/
abbrev ReadyQueue : Type :=
  List (Nat × NodeId)

namespace ReadyQueue

/-- Adds a task behind those of lower rank. -/
def push (task : Task) : ReadyQueue → ReadyQueue
  | [] => [(task.rank, task.node)]
  | (rank, node) :: rest =>
    if task.rank < rank ∨ (task.rank = rank ∧ task.node < node) then
      (task.rank, task.node) :: (rank, node) :: rest
    else (rank, node) :: push task rest

end ReadyQueue

end Dataflow

/-!
## Compiling with tables

Tasks can be compiled from the tables that a graph is frozen with. Two more tables are filled for
it, each in one pass: the ranks by going through the order of the graph, and the dependents by going
through the nodes and adding each of them behind the dependents of every node it depends on.

While tasks complete, a table of counters tells how many dependencies each task still waits for.
Whenever a task completes, one is taken from the counter of each of its dependents.
-/

namespace Dataflow.Tabled

variable {ε σ : Type}

/-! ### Filling tables -/

/-- Enters the positions of nodes, counted on from `position`. -/
def enterRanks : List NodeId → Nat → List Nat → Except (Halt FlowError) (List Nat)
  | [], _, ranks => .ok ranks
  | id :: rest, position, ranks => do
    enterRanks rest (position + 1) (← change ranks id fun _ ↦ position)

/-- Adds a node behind the dependents of each of these nodes. -/
def enterDependent (id : NodeId) :
    List NodeId → List (List NodeId) → Except (Halt FlowError) (List (List NodeId))
  | [], dependents => .ok dependents
  | other :: rest, dependents => do
    enterDependent id rest (← change dependents other (· ++ [id]))

/-- Adds each node behind the dependents of all nodes that it depends on. -/
def transpose (dependencies : List (List NodeId)) :
    List (Node ε σ) → List (List NodeId) → Except (Halt FlowError) (List (List NodeId))
  | [], dependents => .ok dependents
  | node :: rest, dependents => do
    let before ← entry dependencies node.id
    transpose dependencies rest (← enterDependent node.id before dependents)

/-! ### Tasks -/

/-- The tasks of nodes, each given with its dependents. -/
def collectTasks (ranks : List Nat) (dependencies : List (List NodeId)) :
    List (Node ε σ × List NodeId) → Except (Halt FlowError) TaskGraph
  | [] => .ok []
  | (node, dependents) :: rest => do
    let rank ← entry ranks node.id
    let before ← entry dependencies node.id
    let others ← collectTasks ranks dependencies rest
    return ⟨node.id, rank, before, dependents⟩ :: others

/-- The tasks of a graph that is frozen with these tables. -/
def compile (g : Graph ε σ) (tables : NodeTables) : Except (Halt FlowError) TaskGraph := do
  let count := g.nodes.length
  let ranks ← enterRanks g.order 0 (List.replicate count 0)
  let dependents ← transpose tables.dependencies g.nodes (List.replicate count [])
  collectTasks ranks tables.dependencies (g.nodes.zip dependents)

/-! ### Counting down -/

/-- Takes one from the counter of each of these tasks. -/
def countDown : List NodeId → List Nat → Except (Halt FlowError) (List Nat)
  | [], pending => .ok pending
  | id :: rest, pending => do
    let left ← decrease (← entry pending id)
    countDown rest (pending.set id left)

/-- Lets tasks complete, one after the other, and takes one from the counters of their dependents. -/
def countCompleted (tasks : TaskGraph) :
    List NodeId → List Nat → Except (Halt FlowError) (List Nat)
  | [], pending => .ok pending
  | id :: rest, pending => do
    let task ← entry tasks id
    countCompleted tasks rest (← countDown task.dependents pending)

end Dataflow.Tabled
