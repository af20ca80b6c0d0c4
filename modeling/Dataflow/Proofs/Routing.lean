import Dataflow.Proofs.Handovers
import Dataflow.Proofs.WellFormed

/-!
# Payloads reach the ports they are bound to

A call is routed if the node it is made for gets one payload for each of its input ports, namely
what the output port bound to it gave in an earlier call (`Handover.Routed`). In a run of a graph
that was built all calls are routed, and none is made twice (`Routes`). This needs nothing of actors:
they may fail, crash, cancel the run and change what they share.

The argument is the same for both runners. Whatever is recorded was given in a call
(`Backs`), with one payload for each output port, so what a node depends on has given what its
inputs ask for. Hence executing a node makes one more routed call (`Routes.hand`), and the only way
for the engine to break down is that an actor crashes (`Went`).
-/

set_option autoImplicit false
set_option relaxedAutoImplicit false

namespace Dataflow

variable {ε σ : Type}

/-! ### Graphs and bindings -/

/-- A sound graph that tells of its nodes what its edges say. -/
structure Graph.Plumbed (g : Graph ε σ) : Prop extends g.Sound where
  tells : ∀ node ∈ g.nodes, g.Tells g.edges node

theorem Graph.plumbed_of_build {b : Builder ε σ} {g : Graph ε σ} (h : b.Reachable)
    (hbuild : b.build = .ok g) : g.Plumbed := by
  refine ⟨sound_of_build h hbuild, fun node hnode ↦ ?_⟩
  refine (valid_of_build h.assembled hbuild).tells ?_ hnode
  obtain ⟨found, -, rfl⟩ := Builder.build_eq_ok.mp hbuild
  exact h.assembled.slotted

/-- Every node is bound to an instance that exists. -/
def Binding.Covers (binding : Binding) (g : Graph ε σ) (w : World ε σ) : Prop :=
  ∀ id < g.nodes.length, ∃ actor, binding[id]? = some actor ∧ actor < w.instances.size

theorem Binding.covers_of_bound {g : Graph ε σ} {roster bound : Roster ε σ}
    {world made w : World ε σ} {binding : Binding}
    (h : Roster.Bound g.nodes roster world binding bound made)
    (hsize : made.instances.size ≤ w.instances.size) : binding.Covers g w := by
  intro id hid
  have hnode : g.nodes[id]? = some g.nodes[id] := List.getElem?_eq_getElem hid
  cases hgroup : g.nodes[id].group with
  | none =>
    obtain ⟨actor, hactor, -, hinstance, -⟩ := h.plain id _ hnode hgroup
    exact ⟨actor, hactor,
      Nat.lt_of_lt_of_le (Array.getElem?_eq_some_iff.mp hinstance).1 hsize⟩
  | some group =>
    obtain ⟨member, hmember, hactor⟩ := h.grouped id _ group hnode hgroup
    exact ⟨member.actor, hactor, Nat.lt_of_lt_of_le (h.sound.lt group member hmember) hsize⟩

/-! ### Routed calls -/

/-- A request asks a node for what its kind does, with a payload for each input port. -/
inductive Request.Suits (node : Node ε σ) : Request → Prop
  | apply {inputs : List Payload} (hkind : node.kind ≠ .trainer)
      (hlength : inputs.length = node.arity.inputs) : Suits node (.apply inputs)
  | train {features : List Payload} {label : Payload} (hkind : node.kind = .trainer)
      (hlength : features.length + 1 = node.arity.inputs) : Suits node (.train features label)

/-- In one of these calls an output port has given a payload. -/
def Gave (calls : List Handover) (port : PortRef) (payload : Payload) : Prop :=
  ∃ call ∈ calls, call.node = port.node ∧
    ∃ outputs, call.outcome = .ok outputs ∧ outputs[port.port]? = some payload

/-- A call is routed: it hands over at each input port what the port bound to it gave in a call
before. If the node gives outputs, it gives one at each output port, and if it fails, that is no
failure of the engine. -/
structure Handover.Routed (g : Graph ε σ) (before : List Handover) (call : Handover)
    (node : Node ε σ) : Prop where
  node_eq : g.nodes[call.node]? = some node
  suits : call.request.Suits node
  bound : ∀ input < node.arity.inputs, ∃! port, .data port call.node input ∈ g.edges
  given : ∀ port input, .data port call.node input ∈ g.edges →
    ∃ payload, call.request.payloads[input]? = some payload ∧ Gave before port payload
  outputs : ∀ outputs, call.outcome = .ok outputs → outputs.length = node.arity.outputs
  external : ∀ text, call.outcome ≠ .error (.error (.internal text))

/-- One world comes from another by calls that are routed, each behind those before it, and none of
them is for a node that was called before. -/
structure Routes (g : Graph ε σ) (binding : Binding) (start : World ε σ) (calls : List Handover)
    (w : World ε σ) : Prop where
  works : Works g binding start calls w
  routed : ∀ front call back, calls = front ++ call :: back → ∃ node, call.Routed g front node
  once : (calls.map Handover.node).Nodup

/-- What is recorded was given in these calls. -/
def Backs (calls : List Handover) (p : Produced) : Prop :=
  ∀ id outputs, p id = some outputs → ∃ call ∈ calls, call.node = id ∧ call.outcome = .ok outputs

/-! ### Requests -/

/-- A node of the ports of its kind makes a request of its inputs, if they are as many as its input
ports. -/
theorem Node.exists_request {node : Node ε σ} (harity : node.arity = node.kind.arity node.spec.arity)
    {inputs : List Payload} (hlength : inputs.length = node.arity.inputs) :
    ∃ request, node.request? inputs = some request ∧ request.Suits node ∧
      request.payloads = inputs := by
  by_cases htrainer : node.kind = .trainer
  · have hpos : inputs ≠ [] := by
      rintro rfl
      rw [harity, htrainer] at hlength
      exact Nat.succ_ne_zero _ hlength.symm
    obtain ⟨features, label, rfl⟩ := (List.eq_nil_or_concat' inputs).resolve_left hpos
    refine ⟨.train features label, ?_, .train htrainer ?_, rfl⟩
    · rw [Node.request?_trainer htrainer, List.getLast?_concat, List.dropLast_concat]
      rfl
    · rw [← hlength, List.length_append, List.length_singleton]
  · exact ⟨.apply inputs, Node.request?_of_ne htrainer inputs, .apply htrainer hlength, rfl⟩

/-- What an instance gives for a request that suits a node is one payload for each output port. -/
theorem Request.Suits.length_of_answer_eq_ok {node : Node ε σ} {request : Request}
    (h : request.Suits node) (harity : node.arity = node.kind.arity node.spec.arity)
    {actor : Instance ε σ} {env : Environment ε} {outputs : List Payload}
    (hanswer : actor.answer env node.arity.outputs request = .ok outputs) :
    outputs.length = node.arity.outputs := by
  cases h with
  | apply hkind hlength => exact Instance.length_of_applied_eq_ok hanswer
  | @train features label hkind hlength =>
    have hnone : node.arity.outputs = 0 := by
      rw [harity, hkind]
      rfl
    rw [hnone]
    change (actor.trained env features label).1.map (fun _ ↦ []) = .ok outputs at hanswer
    cases htrained : (actor.trained env features label).1 with
    | error halt =>
      rw [htrained] at hanswer
      cases hanswer
    | ok u =>
      rw [htrained] at hanswer
      rw [← Except.ok.inj hanswer]
      rfl

theorem Halt.mapError_eq_ok {δ κ α : Type} {f : δ → κ} {result : Except (Halt δ) α} {a : α} :
    Halt.mapError f result = .ok a ↔ result = .ok a := by
  cases result <;> simp [Halt.mapError]

/-- An actor's failure is not the engine's. -/
theorem mapError_ofActor_ne_internal {α : Type} (label text : String)
    (result : Except (Halt ActorError) α) :
    Halt.mapError (FlowError.ofActor label) result ≠ .error (.error (.internal text)) := by
  rcases result with (e | _) | a
  · cases e <;> exact fun h ↦ nomatch h
  · exact fun h ↦ nomatch h
  · exact fun h ↦ nomatch h

theorem Produced.Carries.length_eq {p : Produced} {ports : List PortRef} {payloads : List Payload}
    (h : p.Carries ports payloads) : payloads.length = ports.length := by
  have hlength := congrArg List.length h
  rwa [List.length_map, List.length_map, eq_comm] at hlength

theorem Produced.Carries.getElem? {p : Produced} {ports : List PortRef} {payloads : List Payload}
    (h : p.Carries ports payloads) {input : Nat} {port : PortRef}
    (hport : ports[input]? = some port) :
    ∃ payload, payloads[input]? = some payload ∧ p.at? port = some payload := by
  have hget := congrArg (·[input]?) h
  simp only [List.getElem?_map, hport, Option.map_some] at hget
  obtain ⟨payload, hpayload, heq⟩ := Option.map_eq_some_iff.mp hget.symm
  exact ⟨payload, hpayload, heq.symm⟩

/-! ### What is recorded -/

namespace Backs

variable {calls : List Handover} {p : Produced}

theorem nothing (calls : List Handover) : Backs calls .nothing :=
  fun _ _ hp ↦ nomatch hp

theorem append (h : Backs calls p) (more : List Handover) : Backs (calls ++ more) p := by
  intro id outputs hp
  obtain ⟨call, hcall, hboth⟩ := h id outputs hp
  exact ⟨call, List.mem_append_left _ hcall, hboth⟩

theorem record (h : Backs calls p) {call : Handover} {outputs : List Payload}
    (hcall : call ∈ calls) (houtcome : call.outcome = .ok outputs) :
    Backs calls (p.record call.node outputs) := by
  intro id given hp
  by_cases hsame : id = call.node
  · subst hsame
    rw [Produced.record_self] at hp
    exact ⟨call, hcall, rfl, Option.some.inj hp ▸ houtcome⟩
  · rw [Produced.record_of_ne _ hsame] at hp
    exact h id given hp

/-- What an output port has according to what is recorded, it gave in a call. -/
theorem gave (h : Backs calls p) {port : PortRef} {payload : Payload}
    (hpayload : p.at? port = some payload) : Gave calls port payload := by
  obtain ⟨outputs, houtputs, hget⟩ := Option.bind_eq_some_iff.mp hpayload
  obtain ⟨call, hcall, hnode, houtcome⟩ := h _ _ houtputs
  exact ⟨call, hcall, hnode, outputs, houtcome, hget⟩

end Backs

namespace Routes

variable {g : Graph ε σ} {binding : Binding} {start w : World ε σ} {calls : List Handover}
  {p : Produced}

theorem refl (g : Graph ε σ) (binding : Binding) (start : World ε σ) :
    Routes g binding start [] start :=
  ⟨.refl, fun front call back h ↦ by simp at h, .nil⟩

theorem told (h : Routes g binding start calls w) (message : Message) :
    Routes g binding start calls (w.told message) :=
  ⟨h.works.told message, h.routed, h.once⟩

theorem exists_routed (h : Routes g binding start calls w) {call : Handover} (hcall : call ∈ calls) :
    ∃ front node, call.Routed g front node := by
  obtain ⟨front, back, hsplit⟩ := List.append_of_mem hcall
  obtain ⟨node, hrouted⟩ := h.routed front call back hsplit
  exact ⟨front, node, hrouted⟩

/-- Nodes of which outputs are recorded have given one payload for each output port. -/
theorem delivered (h : Routes g binding start calls w) (hbacks : Backs calls p) {id : NodeId}
    {outputs : List Payload} (hp : p id = some outputs) : Delivered g p id := by
  obtain ⟨call, hcall, rfl, houtcome⟩ := hbacks id outputs hp
  obtain ⟨front, node, hrouted⟩ := h.exists_routed hcall
  exact ⟨node, outputs, hrouted.node_eq, hp, hrouted.outputs outputs houtcome⟩

/-- One more call may follow if it is routed and its node was not called before. -/
theorem routed_snoc (h : Routes g binding start calls w) {call : Handover} {node : Node ε σ}
    (hcall : call.Routed g calls node) (front : List Handover) (other : Handover)
    (back : List Handover) (hsplit : calls ++ [call] = front ++ other :: back) :
    ∃ node, other.Routed g front node := by
  rcases List.append_eq_append_iff.mp hsplit with ⟨middle, rfl, hright⟩ | ⟨middle, rfl, hright⟩
  · cases middle with
    | nil =>
      obtain ⟨rfl, -⟩ := List.cons.inj hright
      rw [List.append_nil]
      exact ⟨node, hcall⟩
    | cons first rest => simp at hright
  · cases middle with
    | nil =>
      obtain ⟨rfl, -⟩ := List.cons.inj hright
      rw [List.append_nil] at hcall
      exact ⟨node, hcall⟩
    | cons first rest =>
      obtain ⟨rfl, -⟩ := List.cons.inj hright
      exact h.routed front other rest rfl

/-- Executing a node with inputs that were recorded makes one more call, which is routed. -/
theorem hand (h : Routes g binding start calls w) (hg : g.Plumbed) (hcovers : binding.Covers g start)
    (hbacks : Backs calls p) {id : NodeId} {node : Node ε σ} {actor : InstanceId}
    {inputs : List Payload} (hnode : g.nodes[id]? = some node) (hactor : binding[id]? = some actor)
    (hcarries : p.Carries (g.inputs id) inputs) (hfresh : id ∉ calls.map Handover.node) :
    ∃ call, node.handed actor inputs w = [call] ∧ call.node = id ∧
      call.outcome = (Action.result (execute node actor inputs) w).1 ∧
      Routes g binding start (calls ++ [call]) (Action.result (execute node actor inputs) w).2 := by
  have hmem := List.mem_of_getElem? hnode
  obtain rfl : node.id = id := hg.wired.id_eq id node hnode
  have htells := hg.tells node hmem
  obtain ⟨request, hrequest, hsuits, hpayloads⟩ := Node.exists_request (hg.arity node hmem)
    (hcarries.length_eq.trans htells.length_inputs)
  obtain ⟨bound, hbound⟩ : ∃ bound, w.instances[actor]? = some bound := by
    obtain ⟨other, hother, hlt⟩ := hcovers node.id (List.getElem?_eq_some_iff.mp hnode).1
    obtain rfl := Option.some.inj (hother.symm.trans hactor)
    rw [← h.works.size] at hlt
    exact ⟨_, Array.getElem?_eq_getElem hlt⟩
  have hexecute := result_execute_of_request hrequest hbound
  let call : Handover :=
    ⟨node.id, actor, request, Halt.mapError (FlowError.ofActor node.label)
      (bound.answer w.environment node.arity.outputs request)⟩
  have hrouted : call.Routed g calls node := by
    refine ⟨hnode, hsuits, fun input hinput ↦ ?_, fun port input hedge ↦ ?_,
      fun outputs houtcome ↦ ?_, fun text ↦ mapError_ofActor_ne_internal _ text _⟩
    · rw [← htells.length_inputs] at hinput
      have hport := List.getElem?_eq_getElem hinput
      refine ⟨_, (htells.inputs_iff input _).mp hport, fun other hother ↦ ?_⟩
      exact Option.some.inj (((htells.inputs_iff input other).mpr hother).symm.trans hport)
    · obtain ⟨payload, hpayload, hgave⟩ :=
        hcarries.getElem? ((htells.inputs_iff input port).mpr hedge)
      exact ⟨payload, hpayloads ▸ hpayload, hbacks.gave hgave⟩
    · exact hsuits.length_of_answer_eq_ok (hg.arity node hmem) (Halt.mapError_eq_ok.mp houtcome)
  refine ⟨call, ?_, rfl, ?_, ?_⟩
  · simp only [Node.handed, hrequest, hbound, hexecute]
    rfl
  · rw [hexecute]
  · rw [hexecute]
    refine ⟨h.works.asked hnode hactor hbound request, h.routed_snoc hrouted, ?_⟩
    rw [List.map_append]
    refine List.nodup_append.mpr ⟨h.once, List.pairwise_singleton _ _,
      fun other hother last hlast hsame ↦ ?_⟩
    obtain rfl : last = node.id := List.mem_singleton.mp hlast
    exact hfresh (hsame ▸ hother)

end Routes

end Dataflow
