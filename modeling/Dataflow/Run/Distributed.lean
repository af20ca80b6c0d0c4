import Dataflow.Run.Routing
import Dataflow.Run.TaskGraph

/-!
# The distributed runner

Tasks run concurrently, at most `workers` at a time and at least one. A run takes turns. In a turn
it first starts ready tasks, lowest rank first, while there are idle workers. Then one of the tasks
in flight finishes; which one, the schedule says. Its dependents that wait for nothing else become
ready. After as many turns as there are tasks all have completed.

A task takes effect when it finishes. A failure or a cancellation ends the run: of the tasks still
in flight those that no worker has begun are dropped, the others are waited for in the order in
which they started, and what they give is dropped. A run looks whether it was cancelled before it
waits for a task to finish, and again before it looks at what the task gave. It does not look again
if the task was already there when it began to wait; the schedule says in which turns that happens.

A task that crashes is reported as an internal error, because it takes only its worker down.
-/

set_option autoImplicit false
set_option relaxedAutoImplicit false

namespace Dataflow.Distributed

variable {ε σ : Type}

/-- The name of this runner. -/
def name : String := "distributed"

/-- A task in flight: its node, the bound instance and the payloads at its input ports. -/
structure Job (ε σ : Type) where
  node : Node ε σ
  actor : InstanceId
  inputs : List Payload

/-- Where a run stands. -/
structure Progress (ε σ : Type) where
  /-- For each task, how many of its dependencies have not completed. -/
  pending : List Nat
  ready : ReadyQueue
  running : List (Job ε σ)
  produced : Produced
  completed : Nat

/-- Before anything has started: the tasks without dependencies are ready. -/
def Progress.start (tasks : TaskGraph) : Progress ε σ :=
  { pending := tasks.pendingCounts
    ready := (tasks.filter (·.dependencies.isEmpty)).foldl (fun queue task ↦ queue.push task) []
    running := []
    produced := .nothing
    completed := 0 }

/-- The job of a ready task. -/
def job (g : Graph ε σ) (context : RunContext ε) (p : Produced) (id : NodeId) :
    Except FlowError (Job ε σ) := do
  match g.nodes[id]? with
  | some node =>
    let (actor, inputs) ← prepare g context p node
    return { node, actor, inputs }
  | none => throw (.internal s!"no task for node {NodeId.name id}")

/-- Starts ready tasks while fewer than `workers` are in flight, at most `fuel` of them, up to the
first that cannot be started. -/
def fill (g : Graph ε σ) (context : RunContext ε) (workers : Nat) :
    Nat → Progress ε σ → Progress ε σ × Option FlowError
  | 0, s => (s, none)
  | fuel + 1, s =>
    if s.running.length < workers then
      match s.ready with
      | [] => (s, none)
      | (_, id) :: ready =>
        match job g context s.produced id with
        | .ok started => fill g context workers fuel { s with ready, running := s.running ++ [started] }
        | .error e => ({ s with ready }, some e)
    else (s, none)

/-- Makes a waiting task wait for one task less, and ready when it waits for none. -/
def release (tasks : TaskGraph) (s : Progress ε σ) (id : NodeId) : Progress ε σ :=
  let left := s.pending.getD id 0 - 1
  let pending := s.pending.set id left
  match left, tasks[id]? with
  | 0, some task => { s with pending, ready := s.ready.push task }
  | _, _ => { s with pending }

/-- Records what a task gave and releases its dependents. -/
def complete (tasks : TaskGraph) (s : Progress ε σ) (id : NodeId) (outputs : List Payload) :
    Progress ε σ :=
  let dependents := (tasks[id]?.map Task.dependents).getD []
  dependents.foldl (release tasks)
    { s with produced := s.produced.record id outputs, completed := s.completed + 1 }

/-- Waits for the tasks in flight that have begun, and drops what they give. -/
def drain (schedule : Schedule) : List (Job ε σ) → Action ε σ Unit
  | [] => return ()
  | job :: rest => do
    if schedule.dropped job.node.id then drain schedule rest
    else
      let _ ← execute job.node job.actor job.inputs
      drain schedule rest

/-- Ends a run because it was cancelled. -/
def stopCancelled (g : Graph ε σ) (schedule : Schedule) (running : List (Job ε σ)) :
    Flow ε σ (Progress ε σ) := do
  ExceptT.lift (drain schedule running)
  Flow.tell (.runCancelled name g.mode)
  Flow.fail .cancelled

/-- One turn: starts tasks, and lets the one that the schedule names finish. -/
def turn (g : Graph ε σ) (context : RunContext ε) (tasks : TaskGraph) (workers : Nat)
    (s : Progress ε σ) : Flow ε σ (Progress ε σ) := do
  match fill g context workers s.ready.length s with
  | (s, some e) =>
    ExceptT.lift (drain context.schedule s.running)
    Flow.fail e
  | (s, none) =>
    if context.cancelled (← get).environment then
      stopCancelled g context.schedule s.running
    else
      let position := context.schedule.next s.completed % s.running.length
      match s.running[position]? with
      | none => Flow.fail (.internal "no runnable tasks left before completion")
      | some ended =>
        let others := s.running.eraseIdx position
        let result ← ExceptT.lift (execute ended.node ended.actor ended.inputs)
        if context.notices s.completed (← get).environment then
          stopCancelled g context.schedule others
        else
          match result with
          | .ok outputs => return complete tasks { s with running := others } ended.node.id outputs
          | .error .crash =>
            ExceptT.lift (drain context.schedule others)
            Flow.fail (.internal "task failed to complete: the task crashed")
          | .error (.error e) =>
            ExceptT.lift (drain context.schedule others)
            Flow.tell (.nodeFailed name ended.node.label e.message)
            Flow.fail e

/-- Takes a number of turns. -/
def turns (g : Graph ε σ) (context : RunContext ε) (tasks : TaskGraph) (workers : Nat) :
    Nat → Progress ε σ → Flow ε σ (Progress ε σ)
  | 0, s => return s
  | left + 1, s => do turns g context tasks workers left (← turn g context tasks workers s)

/-- Runs a graph. -/
def run (workers : Nat) (g : Graph ε σ) (context : RunContext ε) : Flow ε σ Report := do
  let workers := max workers 1
  Flow.tell (.runStarted name g.mode g.nodes.length)
  let tasks := TaskGraph.compile g
  Flow.tell (.tasksCompiled tasks.length tasks.dependencyPairs.length workers)
  let s ← turns g context tasks workers tasks.length (.start tasks)
  Flow.tell (.runCompleted name g.mode ⟨0⟩)
  return g.report name s.produced

end Dataflow.Distributed
