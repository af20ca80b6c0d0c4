import Dataflow.Proofs.Agreement

/-!
# Observing a run

Much is said of a run by a list of what has happened in it, be it the events that are seen, the calls
of actors or the requests that they get. Such a list is what an `Observer` has recorded that sees
each node start and each node do its work. It is defined along the functions that make up the
runners, and so are its laws: for each way in which visiting a node can go, and for each way in which
a turn can go, there is what the observer records then (`Observer.visit_of_ready`,
`Observer.closed_turn`, and so on).
-/

set_option autoImplicit false
set_option relaxedAutoImplicit false

namespace Dataflow

variable {ε σ α : Type}

/-- What is recorded of a run. -/
structure Observer (ε σ α : Type) where
  /-- When a node starts. -/
  start : NodeId → List α
  /-- When an instance does the work of a node, in the world in which it begins to. -/
  work : NodeId → Node ε σ → InstanceId → List Payload → World ε σ → List α

namespace Observer

/-! ### Sequential runs -/

section Sequential

/-- What is recorded while a node is visited. -/
def visit (o : Observer ε σ α) (g : Graph ε σ) (context : RunContext ε) (p : Produced) (id : NodeId)
    (w : World ε σ) : List α :=
  if context.cancelled w.environment then []
  else
    match g.nodes[id]? with
    | none => []
    | some node =>
      match prepare g context p node with
      | .error _ => []
      | .ok (actor, inputs) => o.start id ++ o.work id node actor inputs w

/-- What is recorded while nodes are visited in the given order. -/
def visitAll (o : Observer ε σ α) (g : Graph ε σ) (context : RunContext ε) :
    List NodeId → Produced → World ε σ → List α
  | [], _, _ => []
  | id :: rest, p, w =>
    o.visit g context p id w ++
      match Flow.result (Sequential.visit g context p id) w with
      | (.ok q, after) => o.visitAll g context rest q after
      | (.error _, _) => []

/-- What is recorded of a sequential run. -/
def sequential (o : Observer ε σ α) (g : Graph ε σ) (context : RunContext ε) (w : World ε σ) :
    List α :=
  o.visitAll g context g.order .nothing (w.told (.runStarted Sequential.name g.mode g.nodes.length))

variable {g : Graph ε σ} {context : RunContext ε} {p : Produced} {id : NodeId} {node : Node ε σ}
  {w : World ε σ}

theorem visit_of_cancelled (o : Observer ε σ α) (g : Graph ε σ)
    (hcancelled : context.cancelled w.environment = true) (p : Produced) (id : NodeId) :
    o.visit g context p id w = [] :=
  if_pos hcancelled

theorem visit_of_absent (o : Observer ε σ α) (hlive : context.cancelled w.environment = false)
    (hnode : g.nodes[id]? = none) (p : Produced) : o.visit g context p id w = [] := by
  simp only [visit, hlive, Bool.false_eq_true, if_false, hnode]

theorem visit_of_unready (o : Observer ε σ α) (hlive : context.cancelled w.environment = false)
    (hnode : g.nodes[id]? = some node) {e : FlowError}
    (hready : prepare g context p node = .error e) : o.visit g context p id w = [] := by
  simp only [visit, hlive, Bool.false_eq_true, if_false, hnode, hready]

theorem visit_of_ready (o : Observer ε σ α) (hlive : context.cancelled w.environment = false)
    (hnode : g.nodes[id]? = some node) {actor : InstanceId} {inputs : List Payload}
    (hready : prepare g context p node = .ok (actor, inputs)) :
    o.visit g context p id w = o.start id ++ o.work id node actor inputs w := by
  simp only [visit, hlive, Bool.false_eq_true, if_false, hnode, hready]

/-- What is recorded of the first nodes comes first. -/
theorem prefix_visitAll (o : Observer ε σ α) (g : Graph ε σ) (context : RunContext ε)
    (front back : List NodeId) (p : Produced) (w : World ε σ) :
    o.visitAll g context front p w <+: o.visitAll g context (front ++ back) p w := by
  induction front generalizing p w with
  | nil => exact List.nil_prefix
  | cons id rest ih =>
    rw [List.cons_append, visitAll, visitAll, List.prefix_append_right_inj]
    rcases Flow.result (Sequential.visit g context p id) w with ⟨halt | q, after⟩
    · exact List.prefix_rfl
    · exact ih q after

end Sequential

/-! ### Distributed runs -/

section Distributed

open Distributed (Job Progress)

/-- What is recorded when tasks start. -/
def starts (o : Observer ε σ α) (jobs : List (Job ε σ)) : List α :=
  jobs.flatMap fun job ↦ o.start job.node.id

/-- What is recorded while tasks in flight are waited for. -/
def drain (o : Observer ε σ α) (schedule : Schedule) : List (Job ε σ) → World ε σ → List α
  | [], _ => []
  | job :: rest, w =>
    if schedule.dropped job.node.id then o.drain schedule rest w
    else
      o.work job.node.id job.node job.actor job.inputs w ++
        o.drain schedule rest (Action.result (execute job.node job.actor job.inputs) w).2

/-- What is recorded when a task has finished in a turn: nothing if the run goes on, and otherwise
what is recorded while the other tasks are waited for. -/
def aftermath (o : Observer ε σ α) (context : RunContext ε) (turn : Nat) (others : List (Job ε σ))
    (outcome : Except (Halt FlowError) (List Payload)) (after : World ε σ) : List α :=
  match context.notices turn after.environment, outcome with
  | false, .ok _ => []
  | _, _ => o.drain context.schedule others after

/-- What is recorded in one turn: tasks start, and the one that the schedule names does its work and
finishes. -/
def turn (o : Observer ε σ α) (g : Graph ε σ) (context : RunContext ε) (workers : Nat)
    (s : Progress ε σ) (w : World ε σ) : List α :=
  let (filled, fault) := Distributed.fill g context workers s.ready.length s
  o.starts (filled.running.drop s.running.length) ++
    if fault.isSome ∨ context.cancelled w.environment then
      o.drain context.schedule filled.running w
    else
      let position := context.schedule.next filled.completed % filled.running.length
      match filled.running[position]? with
      | none => []
      | some ended =>
        let (outcome, after) := Action.result (execute ended.node ended.actor ended.inputs) w
        o.work ended.node.id ended.node ended.actor ended.inputs w ++
          o.aftermath context filled.completed (filled.running.eraseIdx position) outcome after

/-- What is recorded in a number of turns. -/
def turns (o : Observer ε σ α) (g : Graph ε σ) (context : RunContext ε) (tasks : TaskGraph)
    (workers : Nat) : Nat → Progress ε σ → World ε σ → List α
  | 0, _, _ => []
  | left + 1, s, w =>
    o.turn g context workers s w ++
      match Flow.result (Distributed.turn g context tasks workers s) w with
      | (.ok next, after) => o.turns g context tasks workers left next after
      | (.error _, _) => []

/-- What is recorded of a distributed run. -/
def distributed (o : Observer ε σ α) (workers : Nat) (g : Graph ε σ) (context : RunContext ε)
    (w : World ε σ) : List α :=
  let tasks := TaskGraph.compile g
  o.turns g context tasks (max workers 1) tasks.length (.start tasks)
    (Distributed.announced workers g w)

variable {g : Graph ε σ} {context : RunContext ε} {workers : Nat} {s filled : Progress ε σ}
  {started : List (Job ε σ)} {w : World ε σ}

theorem starts_eq_nil {o : Observer ε σ α} (h : ∀ id, o.start id = []) (jobs : List (Job ε σ)) :
    o.starts jobs = [] :=
  List.flatMap_eq_nil_iff.mpr fun job _ ↦ h job.node.id

theorem turn_of_fault (o : Observer ε σ α) {e : FlowError}
    (hfill : Distributed.fill g context workers s.ready.length s = (filled, some e))
    (hstarted : filled.running = s.running ++ started) (w : World ε σ) :
    o.turn g context workers s w = o.starts started ++ o.drain context.schedule filled.running w := by
  simp only [turn, hfill, hstarted, List.drop_left, Option.isSome_some, true_or, if_true]

theorem turn_of_cancelled (o : Observer ε σ α)
    (hfill : Distributed.fill g context workers s.ready.length s = (filled, none))
    (hstarted : filled.running = s.running ++ started)
    (hcancelled : context.cancelled w.environment = true) :
    o.turn g context workers s w = o.starts started ++ o.drain context.schedule filled.running w := by
  simp only [turn, hfill, hstarted, List.drop_left, hcancelled, or_true, if_true]

theorem turn_of_idle (o : Observer ε σ α)
    (hfill : Distributed.fill g context workers s.ready.length s = (filled, none))
    (hstarted : filled.running = s.running ++ started)
    (hlive : context.cancelled w.environment = false)
    (hidle : filled.running[context.schedule.next filled.completed % filled.running.length]? =
      none) : o.turn g context workers s w = o.starts started := by
  have hdrop : filled.running.drop s.running.length = started := by rw [hstarted, List.drop_left]
  simp only [turn, hfill, hdrop, hlive, Option.isSome_none, Bool.false_eq_true, or_self, if_false,
    hidle, List.append_nil]

/-- What a turn comes to after a task has ended with this outcome, and what is recorded after the work
of the task: the run ends because it is seen to be cancelled, or because the task has failed or
crashed, or it goes on with what the task gave. -/
inductive Closed (o : Observer ε σ α) (g : Graph ε σ) (context : RunContext ε) (tasks : TaskGraph)
    (filled : Progress ε σ) (ended : Job ε σ) (others : List (Job ε σ)) (after : World ε σ) :
    Except (Halt FlowError) (List Payload) →
      Except (Halt FlowError) (Progress ε σ) × World ε σ → List α → Prop
  | noticed {outcome : Except (Halt FlowError) (List Payload)}
      (hnoticed : context.notices filled.completed after.environment = true) :
      Closed o g context tasks filled ended others after outcome
        (.error (.error .cancelled),
          (Action.result (Distributed.drain context.schedule others) after).2.told
            (.runCancelled Distributed.name g.mode))
        (o.drain context.schedule others after)
  | failed {e : FlowError}
      (hunnoticed : context.notices filled.completed after.environment = false) :
      Closed o g context tasks filled ended others after (.error (.error e))
        (.error (.error e),
          (Action.result (Distributed.drain context.schedule others) after).2.told
            (.nodeFailed Distributed.name ended.node.label e.message))
        (o.drain context.schedule others after)
  | crashed (hunnoticed : context.notices filled.completed after.environment = false) :
      Closed o g context tasks filled ended others after (.error .crash)
        (.error (.error (.internal "task failed to complete: the task crashed")),
          (Action.result (Distributed.drain context.schedule others) after).2)
        (o.drain context.schedule others after)
  | completed {outputs : List Payload}
      (hunnoticed : context.notices filled.completed after.environment = false) :
      Closed o g context tasks filled ended others after (.ok outputs)
        (.ok (Distributed.complete tasks { filled with running := others } ended.node.id outputs),
          after)
        []

/-- A turn in which the task that the schedule names finishes. -/
theorem closed_turn (o : Observer ε σ α) (tasks : TaskGraph) {ended : Job ε σ}
    (hfill : Distributed.fill g context workers s.ready.length s = (filled, none))
    (hstarted : filled.running = s.running ++ started)
    (hlive : context.cancelled w.environment = false) {position : Nat}
    (hposition : context.schedule.next filled.completed % filled.running.length = position)
    (hended : filled.running[position]? = some ended)
    {outcome : Except (Halt FlowError) (List Payload)} {after : World ε σ}
    (hexecute : Action.result (execute ended.node ended.actor ended.inputs) w = (outcome, after)) :
    ∃ more, o.turn g context workers s w =
        o.starts started ++ (o.work ended.node.id ended.node ended.actor ended.inputs w ++ more) ∧
      o.Closed g context tasks filled ended (filled.running.eraseIdx position) after outcome
        (Flow.result (Distributed.turn g context tasks workers s) w) more := by
  have hdrop : filled.running.drop s.running.length = started := by rw [hstarted, List.drop_left]
  refine ⟨o.aftermath context filled.completed (filled.running.eraseIdx position) outcome after,
    ?_, ?_⟩
  · simp only [turn, hfill, hdrop, hlive, Option.isSome_none, Bool.false_eq_true, or_self, if_false,
      hposition, hended, hexecute]
  · rw [Distributed.result_turn_of_ended tasks hfill hlive hposition hended hexecute]
    unfold aftermath
    cases hnoticed : context.notices filled.completed after.environment with
    | true => exact .noticed hnoticed
    | false =>
      rcases outcome with (e | _) | outputs
      · exact .failed hnoticed
      · exact .crashed hnoticed
      · exact .completed hnoticed

/-- What is recorded in the first turns comes first. -/
theorem prefix_turns (o : Observer ε σ α) (g : Graph ε σ) (context : RunContext ε)
    (tasks : TaskGraph) (workers left more : Nat) (s : Progress ε σ) (w : World ε σ) :
    o.turns g context tasks workers left s w <+:
      o.turns g context tasks workers (left + more) s w := by
  induction left generalizing s w with
  | zero => exact List.nil_prefix
  | succ left ih =>
    rw [Nat.add_right_comm, turns, turns, List.prefix_append_right_inj]
    rcases Flow.result (Distributed.turn g context tasks workers s) w with ⟨halt | next, after⟩
    · exact List.prefix_rfl
    · exact ih next after

end Distributed

/-- What is recorded of a run on any runner. A drawing has no nodes start. -/
def run (o : Observer ε σ α) (runner : Runner) (g : Graph ε σ) (context : RunContext ε)
    (w : World ε σ) : List α :=
  match runner with
  | .sequential => o.sequential g context w
  | .distributed workers => o.distributed workers g context w
  | .visualize _ => []

end Observer

end Dataflow
