import Dataflow.Run.Runner
import Mathlib.Data.List.Basic
import Mathlib.Tactic.SplitIfs

/-!
# What running one node does

`Node.work` is the work of a node as a function: from the instance that does it and the payloads at
the input ports it gives the outputs, or what went wrong, and the fit state of the instance
afterwards. It is all that running the node does in a world, as long as the instance keeps its hands
off what all instances share (`result_execute`). A runner that visits a node does this and nothing
else, and records the outputs (`Sequential.result_visit_ok`,
`Sequential.result_visit_error`).

The payloads at the input ports are there exactly if every port bound to one has given a payload
(`gather_eq_ok`).
-/

set_option autoImplicit false
set_option relaxedAutoImplicit false

namespace Dataflow

variable {ε σ α β : Type}

/-! ### Running a computation in a world -/

/-- What a computation gives in a world, and the world after it. -/
def Action.result (body : Action ε σ α) (w : World ε σ) : α × World ε σ :=
  StateT.run body w

/-- What a computation that may fail gives in a world, and the world after it. -/
def Flow.result (body : Flow ε σ α) (w : World ε σ) : Except (Halt FlowError) α × World ε σ :=
  Action.result (Flow.run body) w

namespace Action

@[simp] theorem result_pure (a : α) (w : World ε σ) :
    result (pure a : Action ε σ α) w = (a, w) := rfl

theorem result_bind (body : Action ε σ α) (next : α → Action ε σ β) (w : World ε σ) :
    result (body >>= next) w = result (next (result body w).1) (result body w).2 := rfl

end Action

namespace Flow

@[simp] theorem result_pure (a : α) (w : World ε σ) :
    result (pure a : Flow ε σ α) w = (.ok a, w) := rfl

@[simp] theorem result_throw (h : Halt FlowError) (w : World ε σ) :
    result (throw h : Flow ε σ α) w = (.error h, w) := rfl

@[simp] theorem result_fail (e : FlowError) (w : World ε σ) :
    result (fail e : Flow ε σ α) w = (.error (.error e), w) := rfl

@[simp] theorem result_get (w : World ε σ) :
    result (get : Flow ε σ (World ε σ)) w = (.ok w, w) := rfl

@[simp] theorem result_lift (body : Action ε σ α) (w : World ε σ) :
    result (ExceptT.lift body) w = (.ok (Action.result body w).1, (Action.result body w).2) := rfl

/-- What follows a computation runs only if it has succeeded. -/
theorem result_bind (body : Flow ε σ α) (next : α → Flow ε σ β) (w : World ε σ) :
    result (body >>= next) w =
      match result body w with
      | (.ok a, after) => result (next a) after
      | (.error h, after) => (.error h, after) := by
  change ExceptT.bindCont next (result body w).1 (result body w).2 = _
  rcases result body w with ⟨_ | _, _⟩ <;> rfl

end Flow

/-! ### Worlds -/

namespace World

/-- A world in which a message has been told. -/
def told (w : World ε σ) (message : Message) : World ε σ :=
  { w with journal := w.journal.push message }

@[simp] theorem environment_setFit (w : World ε σ) (id : InstanceId) (fit : σ) :
    (w.setFit id fit).environment = w.environment := rfl

theorem instances_setFit (w : World ε σ) (id other : InstanceId) (fit : σ) :
    (w.setFit id fit).instances[other]? =
      if id = other then w.instances[other]?.map fun actor ↦ { actor with fit }
      else w.instances[other]? :=
  Array.getElem?_modify

theorem instances_setFit_self {w : World ε σ} {id : InstanceId} {actor : Instance ε σ}
    (h : w.instances[id]? = some actor) (fit : σ) :
    (w.setFit id fit).instances[id]? = some { actor with fit } := by
  rw [instances_setFit, if_pos rfl, h]
  rfl

theorem instances_setFit_of_ne (w : World ε σ) {id other : InstanceId} (h : id ≠ other) (fit : σ) :
    (w.setFit id fit).instances[other]? = w.instances[other]? := by
  rw [instances_setFit, if_neg h]

/-- Giving an instance the fit state it has changes nothing. -/
theorem setFit_self {w : World ε σ} {id : InstanceId} {actor : Instance ε σ}
    (h : w.instances[id]? = some actor) : w.setFit id actor.fit = w := by
  have hinstances : (w.setFit id actor.fit).instances = w.instances := by
    refine Array.ext_getElem? fun other ↦ ?_
    rw [instances_setFit]
    split_ifs with hother
    · subst hother
      rw [h]
      rfl
    · rfl
  cases w
  exact congrArg (fun instances ↦ World.mk instances _ _) hinstances

end World

@[simp] theorem Action.result_tell (message : Message) (w : World ε σ) :
    result (tell message) w = ((), w.told message) := rfl

@[simp] theorem Flow.result_tell (message : Message) (w : World ε σ) :
    result (tell message) w = (.ok (), w.told message) := rfl

/-! ### Actors that keep to themselves -/

/-- An actor whose calls leave alone what all actors share. -/
structure Behavior.Isolated (b : Behavior ε σ) : Prop where
  apply : ∀ inputs fit env, (b.apply inputs fit env).2 = env
  train : ∀ inputs label fit env, (b.train inputs label fit env).2.2 = env

theorem Behavior.isolated_pure [Inhabited σ]
    (apply : List Payload → Except (Halt ActorError) Payload) :
    (Behavior.pure apply : Behavior ε σ).Isolated where
  apply _ _ _ := rfl
  train _ _ _ _ := rfl

namespace Instance

/-- What an actor gives for inputs, spread over a number of outputs. -/
def applied (actor : Instance ε σ) (env : Environment ε) (outputs : Nat) (inputs : List Payload) :
    Except (Halt ActorError) (List Payload) := do
  Halt.lift (unpack outputs (← (actor.behavior.apply inputs actor.fit env).1))

/-- How a training ends, and the actor after it. -/
def trained (actor : Instance ε σ) (env : Environment ε) (inputs : List Payload) (label : Payload) :
    Except (Halt ActorError) Unit × Instance ε σ :=
  let (result, fit, _) := actor.behavior.train inputs label actor.fit env
  (result, { actor with fit })

end Instance

theorem length_of_unpack_eq_ok {outputs : Nat} {result : Payload} {parts : List Payload}
    (h : unpack outputs result = .ok parts) : parts.length = outputs := by
  unfold unpack at h
  split at h
  · rw [← Except.ok.inj h, List.length_nil]
  · rw [← Except.ok.inj h, List.length_singleton]
  · split_ifs at h with hlength
    rw [← Except.ok.inj h, hlength]
  · cases h

/-- An actor that is applied gives as many payloads as it is asked for. -/
theorem Instance.length_of_applied_eq_ok {actor : Instance ε σ} {env : Environment ε}
    {outputs : Nat}
    {inputs parts : List Payload} (h : actor.applied env outputs inputs = .ok parts) :
    parts.length = outputs := by
  unfold applied at h
  cases hresult : (actor.behavior.apply inputs actor.fit env).1 with
  | error e => simp [hresult, bind, Except.bind] at h
  | ok result =>
    cases hparts : unpack outputs result with
    | error e => simp [hresult, hparts, bind, Except.bind, Halt.lift] at h
    | ok found =>
      obtain rfl : found = parts := by
        simpa [hresult, hparts, bind, Except.bind, Halt.lift] using h
      exact length_of_unpack_eq_ok hparts

/-! ### The work of a node -/

/-- What a node gives when an instance does its work, and the instance after it. -/
def Node.work (node : Node ε σ) (actor : Instance ε σ) (env : Environment ε)
    (inputs : List Payload) : Except (Halt ActorError) (List Payload) × Instance ε σ :=
  match node.kind with
  | .trainer =>
    match inputs.getLast? with
    | none => (.error (.error (.invalidInput "trainer received no label")), actor)
    | some label =>
      let (result, after) := actor.trained env inputs.dropLast label
      (result.map fun _ ↦ [], after)
  | _ => (actor.applied env node.arity.outputs inputs, actor)

namespace Node

theorem work_trainer {node : Node ε σ} (h : node.kind = .trainer) (actor : Instance ε σ)
    (env : Environment ε) (inputs : List Payload) (label : Payload) :
    node.work actor env (inputs ++ [label]) =
      ((actor.trained env inputs label).1.map fun _ ↦ [], (actor.trained env inputs label).2) := by
  simp only [work, h, List.getLast?_concat, List.dropLast_concat]

theorem work_of_ne {node : Node ε σ} (h : node.kind ≠ .trainer) (actor : Instance ε σ)
    (env : Environment ε) (inputs : List Payload) :
    node.work actor env inputs = (actor.applied env node.arity.outputs inputs, actor) := by
  unfold work
  split
  · contradiction
  · rfl

end Node

namespace Action

variable {w : World ε σ} {id : InstanceId} {actor : Instance ε σ}

theorem result_apply_of_none (h : w.instances[id]? = none) (inputs : List Payload) :
    result (apply id inputs) w = (none, w) := by
  change apply id inputs w = _
  rw [apply, h]

theorem result_apply_of_some (h : w.instances[id]? = some actor) (inputs : List Payload) :
    result (apply id inputs) w =
      (some (actor.behavior.apply inputs actor.fit w.environment).1,
        { w with environment := (actor.behavior.apply inputs actor.fit w.environment).2 }) := by
  change apply id inputs w = _
  rw [apply, h]

theorem result_train_of_none (h : w.instances[id]? = none) (data : List Payload)
    (label : Payload) : result (train id data label) w = (none, w) := by
  change train id data label w = _
  rw [train, h]

theorem result_train_of_some (h : w.instances[id]? = some actor) (data : List Payload)
    (label : Payload) :
    result (train id data label) w =
      (some (actor.trained w.environment data label).1,
        World.setFit
          { w with environment := (actor.behavior.train data label actor.fit w.environment).2.2 }
          id (actor.trained w.environment data label).2.fit) := by
  change train id data label w = _
  rw [train, h]
  rfl

end Action

theorem result_apply {w : World ε σ} {id : InstanceId} {actor : Instance ε σ}
    (hactor : w.instances[id]? = some actor) (hisolated : actor.behavior.Isolated)
    (inputs : List Payload) :
    Action.result (Action.apply id inputs) w =
      (some (actor.behavior.apply inputs actor.fit w.environment).1, w) := by
  rw [Action.result_apply_of_some hactor, hisolated.apply]

theorem result_train {w : World ε σ} {id : InstanceId} {actor : Instance ε σ}
    (hactor : w.instances[id]? = some actor) (hisolated : actor.behavior.Isolated)
    (inputs : List Payload) (label : Payload) :
    Action.result (Action.train id inputs label) w =
      (some (actor.trained w.environment inputs label).1,
        w.setFit id (actor.trained w.environment inputs label).2.fit) := by
  rw [Action.result_train_of_some hactor, hisolated.train]

/-- Executing a node does its work and changes the fit state of its instance only. -/
theorem result_execute {w : World ε σ} {id : InstanceId} {actor : Instance ε σ}
    (hactor : w.instances[id]? = some actor) (hisolated : actor.behavior.Isolated)
    (node : Node ε σ) (inputs : List Payload) :
    Action.result (execute node id inputs) w =
      (Halt.mapError (FlowError.ofActor node.label) (node.work actor w.environment inputs).1,
        w.setFit id (node.work actor w.environment inputs).2.fit) := by
  have hperform : Action.result (perform node id inputs) w =
      (some (node.work actor w.environment inputs).1,
        w.setFit id (node.work actor w.environment inputs).2.fit) := by
    by_cases htrainer : node.kind = .trainer
    · simp only [perform, Node.work, htrainer]
      cases inputs.getLast? with
      | none => exact Prod.ext rfl (World.setFit_self hactor).symm
      | some label =>
        simp only [Action.result_bind, result_train hactor hisolated, Action.result_pure]
        rfl
    · rw [Node.work_of_ne htrainer, World.setFit_self hactor]
      unfold perform
      split
      · contradiction
      · simp only [Action.result_bind, result_apply hactor hisolated, Action.result_pure]
        rfl
  unfold execute
  rw [Action.result_bind, hperform]
  rfl

/-! ### The inputs of a node -/

/-- Ports have given payloads, in order. -/
def Produced.Carries (p : Produced) (ports : List PortRef) (payloads : List Payload) : Prop :=
  ports.map p.at? = payloads.map some

namespace Produced

theorem Carries.append {p : Produced} {front back : List PortRef} {given others : List Payload}
    (h : p.Carries front given) (h' : p.Carries back others) :
    p.Carries (front ++ back) (given ++ others) := by
  unfold Carries
  rw [List.map_append, List.map_append, h, h']

/-- What ports have given does not depend on other nodes. -/
theorem Carries.congr {p q : Produced} {ports : List PortRef} {payloads : List Payload}
    (h : p.Carries ports payloads) (hsame : ∀ port ∈ ports, q port.node = p port.node) :
    q.Carries ports payloads := by
  unfold Carries
  rw [← h]
  refine List.map_congr_left fun port hport ↦ ?_
  rw [at?, at?, hsame port hport]

theorem Carries.congr_single {p q : Produced} {port : PortRef} {payloads : List Payload}
    (h : p.Carries [port] payloads) (hsame : q port.node = p port.node) :
    q.Carries [port] payloads :=
  h.congr fun _ hport ↦ List.mem_singleton.mp hport ▸ hsame

/-- An output of a node is at its port. -/
theorem carries_output {p : Produced} {id : NodeId} {given : List Payload} {port : Nat}
    (h : p id = some given) (hport : port < given.length) :
    p.Carries [⟨id, port⟩] given[port]?.toList := by
  unfold Carries at?
  simp [h, hport]

theorem record_self (p : Produced) (id : NodeId) (outputs : List Payload) :
    p.record id outputs id = some outputs :=
  if_pos rfl

theorem record_of_ne (p : Produced) {id other : NodeId} (h : other ≠ id) (outputs : List Payload) :
    p.record id outputs other = p other :=
  if_neg h

end Produced

/-- The inputs of a node are there exactly if all ports bound to it have given payloads. -/
theorem gather_eq_ok {g : Graph ε σ} {p : Produced} {node : Node ε σ} {payloads : List Payload} :
    gather g p node = .ok payloads ↔ p.Carries (g.inputs node.id) payloads := by
  unfold gather Produced.Carries
  generalize g.inputs node.id = ports
  induction ports generalizing payloads with
  | nil => cases payloads <;> simp [pure, Except.pure]
  | cons port rest ih =>
    rw [List.mapM_cons]
    cases hport : p.at? port with
    | none => cases payloads <;> simp [bind, Except.bind, hport]
    | some payload =>
      cases payloads with
      | nil =>
        simp only [bind, Except.bind, pure, Except.pure]
        split <;> simp
      | cons first others =>
        rw [List.map_cons, List.map_cons, hport, List.cons.injEq, Option.some.injEq, ← ih]
        simp only [bind, Except.bind, pure, Except.pure]
        split
        · rename_i hrest
          rw [hrest]
          simp
        · rename_i hrest
          rw [hrest]
          simp

/-- A node can be run exactly if its inputs are there and an instance is bound to it. -/
theorem prepare_eq_ok {g : Graph ε σ} {context : RunContext ε} {p : Produced} {node : Node ε σ}
    {actor : InstanceId} {inputs : List Payload} :
    prepare g context p node = .ok (actor, inputs) ↔
      p.Carries (g.inputs node.id) inputs ∧ context.binding[node.id]? = some actor := by
  rw [← gather_eq_ok]
  unfold prepare
  cases gather g p node with
  | error e => simp [bind, Except.bind]
  | ok found =>
    cases context.binding[node.id]? with
    | none => simp [bind, Except.bind]
    | some bound => simp [bind, Except.bind, pure, Except.pure, and_comm]

namespace Sequential

variable {g : Graph ε σ} {context : RunContext ε} {p : Produced} {id : NodeId} {node : Node ε σ}
  {actor : InstanceId} {inputs : List Payload} {bound : Instance ε σ} {w : World ε σ}

/-! ### The exits of a visit -/

theorem result_visit_of_cancelled (g : Graph ε σ)
    (hcancelled : context.cancelled w.environment = true) (p : Produced) (id : NodeId) :
    Flow.result (visit g context p id) w =
      (.error (.error .cancelled), w.told (.runCancelled name g.mode)) := by
  simp only [visit, Flow.result_bind, Flow.result_get, hcancelled, if_true, Flow.result_tell,
    Flow.result_fail]

theorem result_visit_of_absent (hlive : context.cancelled w.environment = false)
    (hnode : g.nodes[id]? = none) (p : Produced) :
    Flow.result (visit g context p id) w = (.error .crash, w) := by
  simp only [visit, Flow.result_bind, Flow.result_get, hlive, Bool.false_eq_true, if_false, hnode,
    Flow.result_throw]

theorem result_visit_of_unready (hlive : context.cancelled w.environment = false)
    (hnode : g.nodes[id]? = some node) {e : FlowError}
    (hready : prepare g context p node = .error e) :
    Flow.result (visit g context p id) w = (.error (.error e), w) := by
  simp only [visit, Flow.result_bind, Flow.result_get, hlive, Bool.false_eq_true, if_false, hnode,
    hready, Flow.result_fail]

/-- A visit to a node that can be run ends as running the node does. -/
theorem result_visit_of_ready (hlive : context.cancelled w.environment = false)
    (hnode : g.nodes[id]? = some node) (hready : prepare g context p node = .ok (actor, inputs)) :
    Flow.result (visit g context p id) w =
      match Action.result (execute node actor inputs) w with
      | (.ok outputs, after) => (.ok (p.record id outputs), after)
      | (.error .crash, after) => (.error .crash, after)
      | (.error (.error e), after) =>
        (.error (.error e), after.told (.nodeFailed name node.label e.message)) := by
  rcases hexecute : Action.result (execute node actor inputs) w with ⟨(e | _) | outputs, after⟩ <;>
    simp only [visit, Flow.result_bind, Flow.result_get, hlive, Bool.false_eq_true, if_false, hnode,
      hready, Flow.result_lift, hexecute, Flow.result_tell, Flow.result_fail, Flow.result_throw,
      Flow.result_pure]

/-! ### What a visit does -/

/-- Visiting a node does its work and records its outputs. -/
theorem result_visit_ok (hlive : context.cancelled w.environment = false)
    (hnode : g.nodes[id]? = some node) (hready : prepare g context p node = .ok (actor, inputs))
    (hactor : w.instances[actor]? = some bound) (hisolated : bound.behavior.Isolated)
    {outputs : List Payload} (hwork : (node.work bound w.environment inputs).1 = .ok outputs) :
    Flow.result (visit g context p id) w =
      (.ok (p.record id outputs), w.setFit actor (node.work bound w.environment inputs).2.fit) := by
  have hvisit := result_visit_of_ready hlive hnode hready
  rw [result_execute hactor hisolated, hwork] at hvisit
  exact hvisit

/-- Visiting a node whose work fails ends the run with the node's error, and the instance is left as
the work has left it. -/
theorem result_visit_error (hlive : context.cancelled w.environment = false)
    (hnode : g.nodes[id]? = some node) (hready : prepare g context p node = .ok (actor, inputs))
    (hactor : w.instances[actor]? = some bound) (hisolated : bound.behavior.Isolated)
    {halt : Halt ActorError} (hwork : (node.work bound w.environment inputs).1 = .error halt) :
    ∃ last, Flow.result (visit g context p id) w =
        (.error (halt.map (FlowError.ofActor node.label)), last) ∧
      last.instances = (w.setFit actor (node.work bound w.environment inputs).2.fit).instances ∧
      last.environment = w.environment := by
  have hvisit := result_visit_of_ready hlive hnode hready
  rw [result_execute hactor hisolated, hwork] at hvisit
  cases halt with
  | crash => exact ⟨_, hvisit, rfl, rfl⟩
  | error e => exact ⟨_, hvisit, rfl, rfl⟩

/-! ### Visiting nodes in order -/

theorem result_visitAll_append (g : Graph ε σ) (context : RunContext ε) (front back : List NodeId)
    (p : Produced) (w : World ε σ) :
    Flow.result (visitAll g context (front ++ back) p) w =
      match Flow.result (visitAll g context front p) w with
      | (.ok q, after) => Flow.result (visitAll g context back q) after
      | (.error h, after) => (.error h, after) := by
  induction front generalizing p w with
  | nil => rfl
  | cons id rest ih =>
    rw [List.cons_append, visitAll, visitAll, Flow.result_bind, Flow.result_bind]
    rcases Flow.result (visit g context p id) w with ⟨_ | q, after⟩
    · rfl
    · exact ih q after

theorem result_visitAll_singleton (g : Graph ε σ) (context : RunContext ε) (id : NodeId)
    (p : Produced) (w : World ε σ) :
    Flow.result (visitAll g context [id] p) w = Flow.result (visit g context p id) w := by
  rw [visitAll, Flow.result_bind]
  rcases Flow.result (visit g context p id) w with ⟨_ | q, after⟩ <;> rfl

/-- A run visits all nodes in the order of the graph, and reports what the sink has got. -/
theorem result_run (g : Graph ε σ) (context : RunContext ε) (w : World ε σ) :
    Flow.result (run g context) w =
      match Flow.result (visitAll g context g.order .nothing)
          (w.told (.runStarted name g.mode g.nodes.length)) with
      | (.ok p, after) => (.ok (g.report name p), after.told (.runCompleted name g.mode ⟨0⟩))
      | (.error h, after) => (.error h, after) := by
  rw [run, Flow.result_bind, Flow.result_tell]
  dsimp only
  rw [Flow.result_bind]
  rcases Flow.result (visitAll g context g.order .nothing) _ with ⟨_ | p, after⟩
  · rfl
  · dsimp only
    rw [Flow.result_bind, Flow.result_tell]
    rfl

/-- A run fails as its visits do. -/
theorem result_run_eq_error {after : World ε σ} {halt : Halt FlowError} :
    Flow.result (run g context) w = (.error halt, after) ↔
      Flow.result (visitAll g context g.order .nothing)
        (w.told (.runStarted name g.mode g.nodes.length)) = (.error halt, after) := by
  rw [result_run]
  rcases Flow.result (visitAll g context g.order .nothing) _ with ⟨_ | p, last⟩ <;> simp

/-- A run that succeeds has visited all nodes. -/
theorem result_run_eq_ok {after : World ε σ} {report : Report} :
    Flow.result (run g context) w = (.ok report, after) ↔
      ∃ p last, Flow.result (visitAll g context g.order .nothing)
          (w.told (.runStarted name g.mode g.nodes.length)) = (.ok p, last) ∧
        g.report name p = report ∧ last.told (.runCompleted name g.mode ⟨0⟩) = after := by
  rw [result_run]
  rcases Flow.result (visitAll g context g.order .nothing) _ with ⟨_ | p, last⟩ <;> simp

end Sequential

end Dataflow
