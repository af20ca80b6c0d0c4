import Dataflow.Proofs.ConcurrentTraces
import Dataflow.Proofs.Executions

/-!
# What a run hands to actors

An actor is called by being asked for something: to be applied to payloads, or to be trained on
payloads and a label. The calls of a run are listed in the order in which they are made
(`Runner.handovers`). A `Handover` says for which node an instance was called, what it was asked for,
and what the node gave.

Such a list is neither too long nor too short. By these calls and by messages the world changes, and
by nothing else (`Works`). So if actors note down, in what they share, which of them was asked for
what, then a run adds just its calls to the notes (`Works.noted`).
-/

set_option autoImplicit false
set_option relaxedAutoImplicit false

namespace Dataflow

variable {ε σ : Type}

/-! ### Requests -/

/-- What an actor is asked for. -/
inductive Request
  | apply (inputs : List Payload)
  | train (features : List Payload) (label : Payload)

/-- The payloads of a request, in order. -/
def Request.payloads : Request → List Payload
  | apply inputs => inputs
  | train features label => features ++ [label]

/-- What a node that has these inputs asks its instance for. The last input of a trainer is the
label. -/
def Node.request? (node : Node ε σ) (inputs : List Payload) : Option Request :=
  match node.kind with
  | .trainer => inputs.getLast?.map (.train inputs.dropLast)
  | _ => some (.apply inputs)

/-- What an instance gives for a request, spread over a number of outputs. A training gives none. -/
def Instance.answer (actor : Instance ε σ) (env : Environment ε) (outputs : Nat) :
    Request → Except (Halt ActorError) (List Payload)
  | .apply inputs => actor.applied env outputs inputs
  | .train features label => (actor.trained env features label).1.map fun _ ↦ []

/-- The fit state of an instance after a request, and the environment. -/
def Instance.leaves (actor : Instance ε σ) (env : Environment ε) : Request → σ × Environment ε
  | .apply inputs => (actor.fit, (actor.behavior.apply inputs actor.fit env).2)
  | .train features label => (actor.behavior.train features label actor.fit env).2

/-- A world in which an instance has been asked for something. -/
def World.asked (w : World ε σ) (id : InstanceId) (actor : Instance ε σ) (request : Request) :
    World ε σ :=
  World.setFit { w with environment := (actor.leaves w.environment request).2 } id
    (actor.leaves w.environment request).1

theorem World.size_asked (w : World ε σ) (id : InstanceId) (actor : Instance ε σ)
    (request : Request) : (w.asked id actor request).instances.size = w.instances.size :=
  Array.size_modify

theorem Node.request?_of_ne {node : Node ε σ} (h : node.kind ≠ .trainer) (inputs : List Payload) :
    node.request? inputs = some (.apply inputs) := by
  unfold request?
  split
  · contradiction
  · rfl

theorem Node.request?_trainer {node : Node ε σ} (h : node.kind = .trainer) (inputs : List Payload) :
    node.request? inputs = inputs.getLast?.map (.train inputs.dropLast) := by
  simp only [request?, h]

/-- Executing a node asks its instance for what the node asks for. -/
theorem result_execute_of_request {node : Node ε σ} {id : InstanceId} {actor : Instance ε σ}
    {w : World ε σ} {inputs : List Payload} {request : Request}
    (hrequest : node.request? inputs = some request) (hactor : w.instances[id]? = some actor) :
    Action.result (execute node id inputs) w =
      (Halt.mapError (FlowError.ofActor node.label)
        (actor.answer w.environment node.arity.outputs request), w.asked id actor request) := by
  by_cases htrainer : node.kind = .trainer
  · rw [Node.request?_trainer htrainer] at hrequest
    obtain ⟨label, hlabel, rfl⟩ := Option.map_eq_some_iff.mp hrequest
    rw [execute, Action.result_bind]
    simp only [perform, htrainer, hlabel, Action.result_bind,
      Action.result_train_of_some hactor]
    rfl
  · rw [Node.request?_of_ne htrainer] at hrequest
    obtain rfl := Option.some.inj hrequest
    rw [result_execute_of_applied hactor htrainer]
    have hactor' : ({ w with environment :=
        (actor.behavior.apply inputs actor.fit w.environment).2 } : World ε σ).instances[id]? =
          some actor := hactor
    exact Prod.ext rfl (World.setFit_self hactor').symm

/-! ### Calls -/

/-- A call of an instance for a node: what the instance is asked for, and what the node gives. -/
structure Handover where
  node : NodeId
  actor : InstanceId
  request : Request
  outcome : Except (Halt FlowError) (List Payload)

/-- One world comes from another by telling messages and by asking the instances bound to nodes, and
these are the calls that are made. -/
inductive Works (g : Graph ε σ) (binding : Binding) (start : World ε σ) :
    List Handover → World ε σ → Prop
  | refl : Works g binding start [] start
  | told {calls : List Handover} {w : World ε σ} (h : Works g binding start calls w)
      (message : Message) : Works g binding start calls (w.told message)
  | asked {calls : List Handover} {w : World ε σ} (h : Works g binding start calls w) {id : NodeId}
      {node : Node ε σ} {actor : InstanceId} {bound : Instance ε σ}
      (hnode : g.nodes[id]? = some node) (hactor : binding[id]? = some actor)
      (hbound : w.instances[actor]? = some bound) (request : Request) :
      Works g binding start
        (calls ++ [⟨id, actor, request, Halt.mapError (FlowError.ofActor node.label)
          (bound.answer w.environment node.arity.outputs request)⟩])
        (w.asked actor bound request)

/-- Whenever an instance of a world is asked for something, a note of that is added to those in the
environment. -/
def World.Notes {ν : Type} (notes : Environment ε → List ν) (note : InstanceId → Request → ν)
    (w : World ε σ) : Prop :=
  ∀ (id : InstanceId) (actor : Instance ε σ), w.instances[id]? = some actor →
    ∀ (fit : σ) (env : Environment ε) (request : Request),
      notes (({ actor with fit } : Instance ε σ).leaves env request).2 = notes env ++ [note id request]

namespace Works

variable {g : Graph ε σ} {binding : Binding} {start w : World ε σ} {calls : List Handover}

theorem size (h : Works g binding start calls w) :
    w.instances.size = start.instances.size := by
  induction h with
  | refl => rfl
  | told _ message ih => exact ih
  | asked _ hnode hactor hbound request ih => exact (World.size_asked ..).trans ih

end Works

section Notes

variable {ν : Type} {notes : Environment ε → List ν} {note : InstanceId → Request → ν}

theorem World.Notes.asked {w : World ε σ} (h : w.Notes notes note) {id : InstanceId}
    {actor : Instance ε σ} (hactor : w.instances[id]? = some actor) (request : Request) :
    (w.asked id actor request).Notes notes note ∧
      notes (w.asked id actor request).environment = notes w.environment ++ [note id request] := by
  refine ⟨fun other found hfound fit env next ↦ ?_, h id actor hactor actor.fit _ request⟩
  unfold World.asked at hfound
  rw [World.instances_setFit] at hfound
  split_ifs at hfound with hsame
  · subst hsame
    obtain ⟨former, hformer, rfl⟩ := Option.map_eq_some_iff.mp hfound
    exact h id former hformer fit env next
  · exact h other found hfound fit env next

/-- If actors note down what they are asked for, the calls are what is added to the notes. -/
theorem Works.noted {g : Graph ε σ} {binding : Binding} {start w : World ε σ}
    {calls : List Handover} (h : Works g binding start calls w) (hnotes : start.Notes notes note) :
    notes w.environment =
      notes start.environment ++ calls.map fun call ↦ note call.actor call.request := by
  have hboth : w.Notes notes note ∧ notes w.environment =
      notes start.environment ++ calls.map fun call ↦ note call.actor call.request := by
    induction h with
    | refl => exact ⟨hnotes, (List.append_nil _).symm⟩
    | told _ message ih => exact ih
    | asked _ hnode hactor hbound request ih =>
      obtain ⟨hkept, hadded⟩ := ih.1.asked hbound request
      refine ⟨hkept, hadded.trans ?_⟩
      rw [ih.2, List.map_append, List.append_assoc]
      rfl
  exact hboth.2

end Notes

/-! ### The calls of a run -/

/-- The call that is made when a node is executed. There is none without an instance, or without a
label for a trainer. -/
def Node.handed (node : Node ε σ) (actor : InstanceId) (inputs : List Payload) (w : World ε σ) :
    List Handover :=
  match node.request? inputs, w.instances[actor]? with
  | some request, some _ =>
    [⟨node.id, actor, request, (Action.result (execute node actor inputs) w).1⟩]
  | _, _ => []

/-- Lists the calls. -/
def handing : Observer ε σ Handover where
  start _ := []
  work _ node actor inputs w := node.handed actor inputs w

@[simp]
theorem handing_start (id : NodeId) : (handing : Observer ε σ Handover).start id = [] :=
  rfl

@[simp]
theorem handing_work (id : NodeId) (node : Node ε σ) (actor : InstanceId) (inputs : List Payload)
    (w : World ε σ) : handing.work id node actor inputs w = node.handed actor inputs w :=
  rfl

/-- The calls of a sequential run. -/
def Sequential.handovers (g : Graph ε σ) (context : RunContext ε) (w : World ε σ) : List Handover :=
  handing.sequential g context w

/-- The calls of a distributed run. -/
def Distributed.handovers (workers : Nat) (g : Graph ε σ) (context : RunContext ε) (w : World ε σ) :
    List Handover :=
  handing.distributed workers g context w

/-- The calls of a run; drawing makes none. -/
def Runner.handovers (runner : Runner) (g : Graph ε σ) (context : RunContext ε) (w : World ε σ) :
    List Handover :=
  handing.run runner g context w

end Dataflow
