import Dataflow.Proofs.Binding
import Dataflow.Proofs.Groups
import Dataflow.Proofs.Simulation
import Dataflow.Proofs.Validation

/-!
# Compiling a pipeline preserves its meaning

A workflow says what a training or an application is: evaluate the pipeline directly on what the
source gives, and hand the result to the sink. The program instead builds a graph, binds its nodes
to the instances of a roster, and runs the nodes one by one. `Workflow.run_eq_evaluate` says that
both come to the same: the same output or the same error or crash, and the same fit state in every
leaf's instance.

The graph is its layout (`Workflow.graph_ok`), every edge of it goes upwards, so its order is the
node order (`Workflow.Compiled.order`), and the inputs of a node are the ports of its placement
(`Workflow.Compiled.inputs`). Binding gives each leaf one instance and the other nodes instances of
their own (`Workflow.Compiled.sound`), so the run follows direct evaluation
(`Expression.simulated`).
-/

set_option autoImplicit false
set_option relaxedAutoImplicit false

namespace Dataflow

variable {ε σ : Type}

/-! ### A layout reads earlier nodes only -/

namespace Placement

theorem grounded_singleton {n : Nat} {p : Placement ε σ} (h : p.Below n) : Grounded n [p] := by
  intro k q hq
  rw [List.getElem?_singleton] at hq
  split_ifs at hq with hk
  · obtain rfl := Option.some.inj hq
    rwa [hk]

end Placement

/-- The track behind the source. -/
def Track.source : Track :=
  ⟨[⟨0, 0⟩], none⟩

theorem Track.below_source : Track.source.Below 1 := by
  refine ⟨fun port hport ↦ ?_, fun port hport ↦ nomatch hport⟩
  rw [List.mem_singleton.mp hport]
  exact Nat.one_pos

namespace Workflow

variable [Inhabited σ]

/-- What lies between the source and the pipeline: the extraction of the label for training, its
removal for application. -/
def opening (w : Workflow ε σ) (shape : Shape) (node : Nat) (head : Track) :
    List (Placement ε σ) × Track :=
  match shape with
  | .train => w.extraction node head
  | .apply => w.removal node head

theorem middleLayout_mode (w : Workflow ε σ) (shape : Shape) (node : Nat) (head : Track) :
    let front := w.opening shape node head
    let back := w.body ⟨0, shape⟩ (node + front.1.length) front.2
    w.middleLayout shape.mode node head = (front.1 ++ back.1, back.2) := by
  cases shape <;> rfl

theorem grounded_opening (w : Workflow ε σ) (shape : Shape) {node : Nat} {head : Track}
    (h : head.Below node) :
    Placement.Grounded node (w.opening shape node head).1 ∧
      (w.opening shape node head).2.Below (node + (w.opening shape node head).1.length) := by
  have hnil : Placement.Grounded node ([] : List (Placement ε σ)) := by
    simp [Placement.Grounded]
  have hnode : node < node + 1 := Nat.lt_succ_self node
  cases shape with
  | train =>
    unfold opening extraction
    cases w.source.label with
    | none => exact ⟨hnil, h⟩
    | some label =>
      refine ⟨Placement.grounded_singleton fun port hport ↦ h.ports port hport, ?_, ?_⟩
      · intro port hport
        rw [List.mem_singleton.mp hport]
        exact hnode
      · intro port hport
        rw [← Option.some.inj hport]
        exact hnode
  | apply =>
    unfold opening removal
    cases w.source.label with
    | none => exact ⟨hnil, h⟩
    | some label =>
      refine ⟨Placement.grounded_singleton fun port hport ↦ h.ports port hport, ?_, ?_⟩
      · intro port hport
        obtain ⟨_, -, rfl⟩ := List.mem_map.mp hport
        exact hnode
      · intro port hport
        exact Nat.lt_succ_of_lt (h.label port hport)

theorem grounded_layout (w : Workflow ε σ) (producer receiver : Spec ε σ) (shape : Shape) :
    Placement.Grounded 0 (w.layout producer receiver shape.mode) := by
  have hsource : Placement.Grounded 0 [(⟨.source, producer, none, []⟩ : Placement ε σ)] :=
    Placement.grounded_singleton fun port hport ↦ nomatch hport
  obtain ⟨hfront, hopen⟩ := w.grounded_opening shape Track.below_source
  obtain ⟨hback, htail⟩ := w.pipeline.expression.grounded_layout shape 0 _ 0 hopen
  have hmiddle := hfront.append hback
  rw [layout, middleLayout_mode]
  refine (hsource.append hmiddle).append (Placement.grounded_singleton fun port hport ↦ ?_)
  have hport := htail.ports port hport
  simp only [List.length_append, List.length_singleton]
  rw [Nat.zero_add, ← Nat.add_assoc]
  exact hport

end Workflow

/-! ### The graph of a layout -/

theorem filterMap_getElem?_range {α : Type} (l : List α) :
    (List.range l.length).filterMap (l[·]?) = l := by
  induction l with
  | nil => rfl
  | cons a rest ih =>
    rw [List.length_cons, List.range_succ_eq_map, List.filterMap_cons, List.filterMap_map]
    exact congrArg (a :: ·) ih

theorem getElem?_append_middle {α : Type} {front middle : List α} (back : List α) {n k : Nat}
    {a : α} (hn : front.length = n) (h : middle[k]? = some a) :
    (front ++ middle ++ back)[n + k]? = some a := by
  rw [← hn, List.append_assoc, List.getElem?_append_right (Nat.le_add_right _ _),
    Nat.add_sub_cancel_left, List.getElem?_append_left (List.getElem?_eq_some_iff.mp h).1]
  exact h

/-- The pipeline behind the opening. -/
def Workflow.main [Inhabited σ] (w : Workflow ε σ) (shape : Shape) (node : Nat) (head : Track) :
    List (Placement ε σ) × Track :=
  let front := w.opening shape node head
  w.pipeline.expression.layout shape 0 (node + front.1.length) 0 front.2

/-- The layout of a workflow is the source, the opening, the pipeline and the sink. -/
theorem Workflow.layout_mode [Inhabited σ] (w : Workflow ε σ) (producer receiver : Spec ε σ)
    (shape : Shape) :
    w.layout producer receiver shape.mode =
      [⟨.source, producer, none, []⟩] ++ (w.opening shape 1 .source).1 ++
        (w.main shape 1 .source).1 ++
        [⟨.sink, receiver, none, (w.main shape 1 .source).2.ports⟩] := by
  rw [layout, middleLayout_mode, ← List.append_assoc]
  rfl

namespace Workflow

variable [Inhabited σ] (w : Workflow ε σ) (producer receiver : Spec ε σ) (shape : Shape)

/-- The first node of the pipeline. -/
def pipelineStart : NodeId :=
  1 + (w.opening shape 1 .source).1.length

/-- The node behind the pipeline. -/
def pipelineEnd : NodeId :=
  w.pipelineStart shape + (w.main shape 1 .source).1.length

theorem getElem?_layout_source :
    (w.layout producer receiver shape.mode)[0]? = some ⟨.source, producer, none, []⟩ := by
  rw [layout_mode]
  rfl

theorem getElem?_layout_opening {k : Nat} {q : Placement ε σ}
    (hq : (w.opening shape 1 .source).1[k]? = some q) :
    (w.layout producer receiver shape.mode)[1 + k]? = some q := by
  rw [layout_mode, List.append_assoc _ _ [_]]
  exact getElem?_append_middle _ rfl hq

theorem getElem?_layout_main {k : Nat} {q : Placement ε σ}
    (hq : (w.main shape 1 .source).1[k]? = some q) :
    (w.layout producer receiver shape.mode)[w.pipelineStart shape + k]? = some q := by
  rw [layout_mode]
  exact getElem?_append_middle _ List.length_append hq

theorem length_before_sink :
    ([⟨.source, producer, none, []⟩] ++ (w.opening shape 1 .source).1 ++
      (w.main shape 1 .source).1 : List (Placement ε σ)).length = w.pipelineEnd shape := by
  rw [List.length_append, List.length_append]
  rfl

theorem getElem?_layout_sink :
    (w.layout producer receiver shape.mode)[w.pipelineEnd shape]? =
      some ⟨.sink, receiver, none, (w.main shape 1 .source).2.ports⟩ := by
  rw [layout_mode, ← w.length_before_sink producer]
  exact List.getElem?_concat_length

theorem length_layout :
    (w.layout producer receiver shape.mode).length = w.pipelineEnd shape + 1 := by
  rw [layout_mode, List.length_append, length_before_sink]
  rfl

end Workflow

namespace Workflow.Compiled

variable [Inhabited σ] {w : Workflow ε σ} {producer receiver : Spec ε σ} {g : Graph ε σ}

section AnyMode

variable {mode : Mode}

/-- The inputs of a node are the ports of its placement: as many as it declares, because no input
may stay unbound. -/
theorem inputs (h : w.Compiled producer receiver mode g) {k : Nat} {p : Placement ε σ}
    (hp : (w.layout producer receiver mode)[k]? = some p) : g.inputs k = p.inputs := by
  have hnode : g.nodes[k]? = some (p.node k) := by
    rw [h.getElem?_nodes, hp]
    rfl
  have hbound : ∀ input, boundPort? g.edges k input = p.inputs[input]? := by
    intro input
    have hplaced := Builder.boundPort?_placeAll (b := Builder.new mode)
      (by simp [Builder.new]) hp input
    rw [h.edges]
    simpa [Builder.new] using hplaced
  have hsaturated := saturated_of_checkPorts (validate_eq_ok h.valid).2.1
  have hlength : (p.kind.arity p.spec.arity).inputs = p.inputs.length := by
    refine Nat.le_antisymm ?_ (h.fits p (List.mem_of_getElem? hp))
    refine Nat.le_of_not_lt fun hlt ↦ ?_
    have hsome := hsaturated (p.node k) (List.mem_of_getElem? hnode) p.inputs.length hlt
    change (boundPort? g.edges k p.inputs.length).isSome = true at hsome
    rw [hbound, List.getElem?_eq_none (Nat.le_refl _)] at hsome
    cases hsome
  unfold Graph.inputs
  rw [hnode]
  change (List.range (p.kind.arity p.spec.arity).inputs).filterMap (boundPort? g.edges k) = p.inputs
  rw [hlength, funext hbound]
  exact filterMap_getElem?_range p.inputs

/-- The sink is the last node. -/
theorem sink (h : w.Compiled producer receiver mode g) : g.sink = g.nodes.length - 1 := by
  have hlast : (w.layout producer receiver mode)[(w.layout producer receiver mode).length - 1]? =
      some ⟨.sink, receiver, none, (w.middleLayout mode 1 ⟨[⟨0, 0⟩], none⟩).2.ports⟩ := by
    rw [← List.getLast?_eq_getElem?, layout, List.getLast?_concat]
  have hnode := h.getElem?_nodes ((w.layout producer receiver mode).length - 1)
  rw [hlast] at hnode
  have hid := id_of_single (validate_eq_ok h.valid).2.2.2 (List.mem_of_getElem? hnode) rfl
  change (w.layout producer receiver mode).length - 1 = g.sink at hid
  rw [← hid, h.length_nodes]

/-- If every node reads ports of nodes before it, then edges go upwards. -/
theorem tail_lt_of_grounded (h : w.Compiled producer receiver mode g)
    (hgrounded : Placement.Grounded 0 (w.layout producer receiver mode)) :
    ∀ edge ∈ g.edges, edge.tail < edge.head := by
  have hascending : ((Builder.new mode).placeAll (w.layout producer receiver mode)).Ascending :=
    (Builder.ascending_new mode).placeAll hgrounded
  rw [h.edges]
  exact hascending.tail_lt

/-- If edges go upwards, then nodes run in the order they were added. -/
theorem order_of_grounded (h : w.Compiled producer receiver mode g)
    (hgrounded : Placement.Grounded 0 (w.layout producer receiver mode)) :
    g.order = List.range g.nodes.length := by
  have hsort := topologicalSort_of_orderNodes (validate_eq_ok h.valid).1
  have harcs : ∀ arc ∈ g.edges.map Edge.arc, arc.1 < arc.2 := by
    intro arc harc
    obtain ⟨edge, hedge, rfl⟩ := List.mem_map.mp harc
    exact h.tail_lt_of_grounded hgrounded edge hedge
  rw [topologicalSort_of_ascending g.nodes.length harcs] at hsort
  exact (congrArg Prod.fst hsort).symm

end AnyMode

/-- Nodes run in the order they were added, because edges go upwards. -/
theorem order {shape : Shape} (h : w.Compiled producer receiver shape.mode g) :
    g.order = List.range g.nodes.length :=
  h.order_of_grounded (w.grounded_layout producer receiver shape)

end Workflow.Compiled

/-! ### The nodes of a leaf -/

namespace Workflow.Compiled

variable [Inhabited σ] {w : Workflow ε σ} {producer receiver : Spec ε σ} {g : Graph ε σ}
  {shape : Shape}

/-- The nodes in the group of a leaf have the leaf's actor. -/
theorem spec_of_group (h : w.Compiled producer receiver shape.mode g) {i : Nat} {leaf : Leaf ε σ}
    (hleaf : w.pipeline.expression.leaves[i]? = some leaf) :
    ∀ node ∈ g.nodes, node.group = some ⟨0, i⟩ → node.spec = leaf.spec := by
  obtain ⟨make, hmiddle⟩ := w.exists_middleRoles_eq shape.mode_ne_eval
  refine h.forall_role (p := fun role ↦ role.group = some ⟨0, i⟩ → role.spec = leaf.spec)
    (fun hgroup ↦ by cases hgroup) (fun hgroup ↦ by cases hgroup) fun role hrole hgroup ↦ ?_
  rw [hmiddle, List.mem_append] at hrole
  rcases hrole with hrole | hrole
  · obtain ⟨spec, rfl⟩ := eq_plain_of_mem_labelRoles hrole
    cases hgroup
  · obtain ⟨other, hother, hspec⟩ := exists_leaf_of_mem_rolesFrom hrole hgroup
    rw [hspec, Option.some.inj (hother.symm.trans hleaf)]

end Workflow.Compiled

/-! ### The run of a compiled graph -/

section Run

variable [Inhabited σ]

/-- The instance that a roster keeps for a leaf. -/
def Roster.home {ε σ : Type} (roster : Roster ε σ) (leaf : Nat) : InstanceId :=
  ((roster.member? ⟨0, leaf⟩).map Member.actor).getD 0

theorem Roster.home_eq {ε σ : Type} {roster : Roster ε σ} {leaf : Nat} {member : Member ε σ}
    (h : roster.member? ⟨0, leaf⟩ = some member) : roster.home leaf = member.actor := by
  unfold home
  rw [h]
  rfl

/-- A run of a compiled graph on the instances of a roster, as a setting for direct evaluation. -/
def Workflow.setting (w : Workflow ε σ) (producer receiver : Spec ε σ) (shape : Shape)
    (g : Graph ε σ) (context : RunContext ε) (bound : Roster ε σ) (start : World ε σ) :
    Setting ε σ where
  graph := g
  placements := w.layout producer receiver shape.mode
  context := context
  start := start
  scope := 0
  leaves := w.pipeline.expression.leaves.length
  home := bound.home

variable {w : Workflow ε σ} {producer receiver : Spec ε σ} {g : Graph ε σ} {shape : Shape}
  {roster bound : Roster ε σ} {world start : World ε σ} {context : RunContext ε}

/-- Every leaf has an instance in the roster its graph was bound to. -/
theorem Workflow.Compiled.exists_member (h : w.Compiled producer receiver shape.mode g)
    (hbound : Roster.Bound g.nodes roster world context.binding bound start) {i : Nat}
    (hi : i < w.pipeline.expression.leaves.length) :
    ∃ member, bound.member? ⟨0, i⟩ = some member := by
  obtain ⟨node, hmem, hgroup⟩ :=
    h.exists_node shape.mode_ne_eval (mem_groupsFrom_of_getElem? (List.getElem?_eq_getElem hi) 0)
  obtain ⟨k, hnode⟩ := List.getElem?_of_mem hmem
  obtain ⟨member, hmember, -⟩ := hbound.grouped k node _ hnode hgroup
  exact ⟨member, hmember⟩

/-- Binding gives direct evaluation the setting it needs. -/
theorem Workflow.Compiled.sound (h : w.Compiled producer receiver shape.mode g)
    (hbound : Roster.Bound g.nodes roster world context.binding bound start)
    (hlive : context.cancelled world.environment = false) :
    (w.setting producer receiver shape g context bound start).Sound where
  live := by
    change context.cancelled start.environment = false
    rw [hbound.environment]
    exact hlive
  node k p hp := by
    change (w.layout producer receiver shape.mode)[k]? = some p at hp
    change g.nodes[k]? = _
    rw [h.getElem?_nodes, hp]
    rfl
  inputs k p hp := h.inputs hp
  leaf k p i hp hgroup := by
    have hnode := h.getElem?_nodes k
    change (w.layout producer receiver shape.mode)[k]? = some p at hp
    rw [hp] at hnode
    obtain ⟨member, hmember, hactor⟩ := hbound.grouped k (p.node k) ⟨0, i⟩ hnode hgroup
    change context.binding[k]? = some (bound.home i)
    rw [hactor, Roster.home_eq hmember]
  plain k p hp hgroup := by
    have hnode := h.getElem?_nodes k
    change (w.layout producer receiver shape.mode)[k]? = some p at hp
    rw [hp] at hnode
    obtain ⟨actor, hactor, -, hinstance, hne⟩ := hbound.plain k (p.node k) hnode hgroup
    refine ⟨actor, hactor, hinstance, fun i hi ↦ ?_⟩
    obtain ⟨member, hmember⟩ := h.exists_member hbound hi
    change bound.home i ≠ actor
    rw [Roster.home_eq hmember]
    exact hne _ member hmember
  apart i hi j hj hsame := by
    obtain ⟨member, hmember⟩ := h.exists_member hbound hi
    obtain ⟨member', hmember'⟩ := h.exists_member hbound hj
    change bound.home i = bound.home j at hsame
    rw [Roster.home_eq hmember, Roster.home_eq hmember'] at hsame
    exact (GroupId.mk.inj (hbound.sound.distinct _ _ _ _ hmember hmember' hsame)).2

/-- At the start, the instance of each leaf is the one its group had, or a new one. -/
theorem Workflow.Compiled.mirrors (h : w.Compiled producer receiver shape.mode g)
    (hbound : Roster.Bound g.nodes roster world context.binding bound start)
    (actors : Nat → Instance ε σ)
    (hactors : ∀ (i : Nat) (leaf : Leaf ε σ), w.pipeline.expression.leaves[i]? = some leaf →
      actors i = roster.instanceOf world ⟨0, i⟩ leaf.spec)
    (hisolated : ∀ i < w.pipeline.expression.leaves.length, (actors i).behavior.Isolated) :
    (w.setting producer receiver shape g context bound start).Mirrors ⟨0, 0, actors⟩ start where
  environment := rfl
  leaf i hi := by
    obtain ⟨member, hmember⟩ := h.exists_member hbound hi
    have hleaf : w.pipeline.expression.leaves[i]? = some w.pipeline.expression.leaves[i] :=
      List.getElem?_eq_getElem hi
    have hstart := hbound.start _ member _ hmember (h.spec_of_group hleaf)
    change start.instances[bound.home i]? = some (actors i)
    rw [Roster.home_eq hmember, hactors i _ hleaf]
    exact hstart
  other id _ := rfl
  isolated := hisolated

end Run

/-! ### Following the whole evaluation -/

section Whole

variable [Inhabited σ] {flow : Workflow ε σ} {r : Setting ε σ} {p : Produced} {s : Stage ε σ}
  {w : World ε σ}

/-- The extraction or removal of the label is simulated by its node, if it has one. -/
theorem Workflow.simulates_features (hr : r.Sound) (hm : r.Mirrors s w) (shape : Shape)
    {node : Nat} (hnode : s.calls = node) {head : Track} {data : List Payload}
    (hhead : head.label = none)
    (hplaced : ∀ (k : Nat) (q : Placement ε σ), (flow.opening shape node head).1[k]? = some q →
      r.placements[node + k]? = some q)
    (hcarried : p.Carries head.ports data) :
    r.Simulates (flow.opening shape node head).1.length 0
      (fun q given ↦ q.Carries (flow.opening shape node head).2.ports given.1 ∧
        q.Carries (flow.opening shape node head).2.label.toList given.2.toList)
      (flow.features r.start.environment shape data) p s w := by
  subst hnode
  cases hlabel : flow.source.label with
  | none =>
    have hopening : flow.opening shape s.calls head = ([], head) := by
      cases shape <;> simp only [opening, extraction, removal, hlabel]
    have hfeatures : flow.features r.start.environment shape data = pure (data, none) := by
      cases shape <;> simp only [features, hlabel]
    rw [hopening, hfeatures]
    refine Setting.Simulates.pure hm ⟨hcarried, ?_⟩
    rw [hhead]
    rfl
  | some label =>
    cases shape with
    | train =>
      simp only [opening, extraction, hlabel] at hplaced ⊢
      simp only [features, hlabel]
      change r.Simulates (1 + 0) (0 + 0) _ _ p s w
      refine (Setting.simulates_applyNew hr hm (hplaced 0 _ rfl) rfl (by simp)
        (Behavior.isolated_pure _) hcarried).bind ?_
      intro parts q after stage _ _ hmirrors _ hgiven
      have hports := Setting.carries_of_outputs hgiven.1 hgiven.2
      refine Setting.Simulates.pure hmirrors ?_
      obtain ⟨first, second, rfl⟩ := List.length_eq_two.mp hgiven.2
      obtain ⟨hfirst, hsecond⟩ := List.cons.inj hports
      exact ⟨congrArg (· :: []) hfirst, hsecond⟩
    | apply =>
      simp only [opening, removal, hlabel] at hplaced ⊢
      simp only [features, hlabel]
      change r.Simulates (1 + 0) (0 + 0) _ _ p s w
      refine (Setting.simulates_applyNew hr hm (hplaced 0 _ rfl) rfl (by simp)
        (Behavior.isolated_pure _) hcarried).bind ?_
      intro parts q after stage _ _ hmirrors _ hgiven
      refine Setting.Simulates.pure hmirrors ⟨Setting.carries_of_outputs hgiven.1 hgiven.2, ?_⟩
      rw [Track.rebased, hhead]
      rfl

/-- The leaves are admissible on the track behind the opening. -/
theorem Workflow.Compiled.admissible_opening {producer receiver : Spec ε σ} {shape : Shape}
    {g : Graph ε σ} (h : flow.Compiled producer receiver shape.mode g) (node : Nat) (head : Track)
    (hhead : head.label = none) :
    ∀ leaf ∈ flow.pipeline.expression.leaves,
      leaf.Admissible shape (flow.opening shape node head).2.label.isSome := by
  intro leaf hleaf
  have hadmissible := h.admissible leaf hleaf
  cases shape with
  | train =>
    change leaf.Admissible .train (flow.extraction node head).2.label.isSome
    rw [flow.label_extraction node hhead]
    exact hadmissible
  | apply => exact hadmissible.unlabelled

/-- Running a compiled graph follows the evaluation of its workflow. -/
theorem Workflow.Compiled.simulates {producer receiver : Spec ε σ} {shape : Shape} {g : Graph ε σ}
    (h : flow.Compiled producer receiver shape.mode g) (hr : r.Sound)
    (hplaced : r.placements = flow.layout producer receiver shape.mode)
    (hscope : r.scope = 0) (hleaves : r.leaves = flow.pipeline.expression.leaves.length)
    {actors : Nat → Instance ε σ}
    (hm : r.Mirrors ⟨0, 0, actors⟩ w) (hproducer : producer.behavior.Isolated)
    (hreceiver : receiver.behavior.Isolated) :
    r.Simulates g.nodes.length flow.pipeline.expression.leaves.length
      (fun q output ↦ (q g.sink).bind List.getLast? = output)
      (flow.evaluate r.start.environment producer receiver shape) .nothing ⟨0, 0, actors⟩ w := by
  obtain ⟨-, hbelow⟩ := flow.grounded_opening shape Track.below_source
  have hadmissible := h.admissible_opening 1 .source rfl
  have hcount : g.nodes.length = 1 + ((flow.opening shape 1 .source).1.length +
      ((flow.main shape 1 .source).1.length + (1 + 0))) := by
    rw [h.length_nodes, flow.length_layout, pipelineEnd, pipelineStart]
    omega
  have hsink : g.sink = flow.pipelineEnd shape := by
    rw [h.sink, h.length_nodes, flow.length_layout, Nat.add_sub_cancel]
  have hfits : flow.pipeline.expression.leaves.length =
      0 + (0 + (flow.pipeline.expression.leaves.length + (0 + 0))) := by omega
  rw [hcount, hfits, Workflow.evaluate]
  -- the source
  have hempty : Produced.Carries .nothing ([] : List PortRef) [] := rfl
  have hsource : r.placements[0]? = some ⟨.source, producer, none, []⟩ :=
    hplaced ▸ flow.getElem?_layout_source producer receiver shape
  refine (Setting.simulates_applyNew hr hm hsource rfl (by simp) hproducer hempty).bind ?_
  intro data q₁ w₁ s₁ hcalls₁ hleaf₁ hm₁ hkept₁ hdata
  have hcalls₁ : s₁.calls = 1 := hcalls₁
  -- the opening
  have hopening : ∀ (k : Nat) (q : Placement ε σ), (flow.opening shape 1 .source).1[k]? = some q →
      r.placements[1 + k]? = some q := fun k q hq ↦
    hplaced ▸ flow.getElem?_layout_opening producer receiver shape hq
  refine (simulates_features hr hm₁ shape hcalls₁ rfl hopening
    (Setting.carries_of_outputs hdata.1 hdata.2)).bind ?_
  rintro ⟨features, label⟩ q₂ w₂ s₂ hcalls₂ hleaf₂ hm₂ hkept₂ ⟨hfeatures, hlabel⟩
  rw [hcalls₁] at hcalls₂
  have hleaf₂ : s₂.leaf = 0 := hleaf₂.trans hleaf₁
  -- the pipeline
  have harrived : r.Arrived shape (flow.main shape 1 .source).1 flow.pipeline.expression.leaves
      (flow.opening shape 1 .source).2 features label q₂ s₂ w₂ := by
    refine ⟨fun k q hq ↦ ?_, ?_, hadmissible, ?_, hfeatures, hlabel, hm₂⟩
    · rw [hcalls₂]
      exact hplaced ▸ flow.getElem?_layout_main producer receiver shape hq
    · rw [hleaf₂, hleaves]
      omega
    · rw [hcalls₂]
      exact hbelow
  have hpipeline := flow.pipeline.expression.simulated hr shape
    (flow.opening shape 1 .source).2 features label q₂ s₂ w₂
  rw [hscope, hcalls₂, hleaf₂] at hpipeline
  refine (hpipeline harrived).bind ?_
  intro outputs q₃ w₃ s₃ hcalls₃ hleaf₃ hm₃ hkept₃ houtputs
  rw [hcalls₂] at hcalls₃
  have hcalls₃ : s₃.calls = flow.pipelineEnd shape := hcalls₃
  -- the sink
  have hend : r.placements[s₃.calls]? =
      some ⟨.sink, receiver, none, (flow.main shape 1 .source).2.ports⟩ := by
    rw [hplaced, hcalls₃]
    exact flow.getElem?_layout_sink producer receiver shape
  refine (Setting.simulates_applyNew hr hm₃ hend rfl (by simp) hreceiver houtputs).bind ?_
  intro received q₄ w₄ s₄ hcalls₄ hleaf₄ hm₄ hkept₄ hreceived
  refine Setting.Simulates.pure hm₄ ?_
  have hat : q₄ g.sink = some received := by
    rw [← hreceived.1, hsink, hcalls₃]
  rw [hat]
  rfl

end Whole

/-! ### The main theorem -/

namespace Workflow

variable [Inhabited σ]

/-- The actor of a leaf, if there is such a leaf. -/
def leafSpec (w : Workflow ε σ) (leaf : Nat) : Spec ε σ :=
  (w.pipeline.expression.leaves[leaf]?.map Leaf.spec).getD Builtin.collector

/-- Where direct evaluation starts on a roster: each leaf has the instance that its group has, or a
new one. -/
def opened (w : Workflow ε σ) (roster : Roster ε σ) (world : World ε σ) : Stage ε σ where
  calls := 0
  leaf := 0
  actors i := roster.instanceOf world ⟨0, i⟩ (w.leafSpec i)

theorem leafSpec_eq {w : Workflow ε σ} {i : Nat} {leaf : Leaf ε σ}
    (h : w.pipeline.expression.leaves[i]? = some leaf) : w.leafSpec i = leaf.spec := by
  unfold leafSpec
  rw [h]
  rfl

theorem isolated_opened {w : Workflow ε σ} {roster : Roster ε σ} {world : World ε σ}
    (hworld : ∀ (id : InstanceId) (actor : Instance ε σ), world.instances[id]? = some actor →
      actor.behavior.Isolated)
    (hleaves : ∀ leaf ∈ w.pipeline.expression.leaves, leaf.spec.behavior.Isolated) (i : Nat)
    (hi : i < w.pipeline.expression.leaves.length) :
    ((w.opened roster world).actors i).behavior.Isolated := by
  have hleaf := List.getElem?_eq_getElem hi
  change (roster.instanceOf world ⟨0, i⟩ (w.leafSpec i)).behavior.Isolated
  rw [leafSpec_eq hleaf]
  unfold Roster.instanceOf
  cases hheld : (roster.member? ⟨0, i⟩).bind fun member ↦ world.instances[member.actor]? with
  | none => exact hleaves _ (List.getElem_mem hi)
  | some actor =>
    obtain ⟨member, -, hactor⟩ := Option.bind_eq_some_iff.mp hheld
    exact hworld member.actor actor hactor

/-- Running a compiled graph on the instances it was bound to ends as direct evaluation does, and
leaves in the instance of each leaf what direct evaluation has made of its actor. -/
theorem Compiled.run_of_bound {flow : Workflow ε σ} {producer receiver : Spec ε σ} {shape : Shape}
    {g : Graph ε σ} {roster bound : Roster ε σ} {world start : World ε σ}
    (h : flow.Compiled producer receiver shape.mode g) (context : RunContext ε)
    (hbound : Roster.Bound g.nodes roster world context.binding bound start)
    (hlive : context.cancelled world.environment = false)
    (hleaves : ∀ i < flow.pipeline.expression.leaves.length,
      ((flow.opened roster world).actors i).behavior.Isolated)
    (hproducer : producer.behavior.Isolated) (hreceiver : receiver.behavior.Isolated)
    {outcome : Except (Halt FlowError) (Option Payload)} {stage : Stage ε σ}
    (houtcome : Direct.result (flow.evaluate world.environment producer receiver shape)
      (flow.opened roster world) = (outcome, stage)) :
    ∃ last, Flow.result (Sequential.run g context) start =
        (outcome.map fun output ↦ ⟨shape.mode, Sequential.name, output, none⟩, last) ∧
      last.environment = world.environment ∧
      ∀ i < flow.pipeline.expression.leaves.length, ∃ member,
        bound.member? ⟨0, i⟩ = some member ∧
          last.instances[member.actor]? = some (stage.actors i) := by
  have hsound := h.sound hbound hlive
  have hmirrors := h.mirrors hbound (flow.opened roster world).actors
    (fun i leaf hleaf ↦ congrArg (roster.instanceOf world ⟨0, i⟩) (leafSpec_eq hleaf)) hleaves
  -- what is told before the first node changes no instance
  have hsimulates := h.simulates hsound rfl rfl rfl
    (w := start.told (.runStarted Sequential.name g.mode g.nodes.length))
    (hmirrors.congr rfl rfl rfl) hproducer hreceiver
  have hfinal : ∀ (last : World ε σ),
      (flow.setting producer receiver shape g context bound start).Mirrors stage last →
      last.environment = world.environment ∧
        ∀ i < flow.pipeline.expression.leaves.length, ∃ member,
          bound.member? ⟨0, i⟩ = some member ∧
            last.instances[member.actor]? = some (stage.actors i) := by
    intro last hlast
    refine ⟨hlast.environment.trans hbound.environment, fun i hi ↦ ?_⟩
    obtain ⟨member, hmember⟩ := h.exists_member hbound hi
    refine ⟨member, hmember, ?_⟩
    rw [← Roster.home_eq hmember]
    exact hlast.leaf i hi
  have hrun := Sequential.result_run g context start
  rw [h.order, List.range_eq_range'] at hrun
  rw [← hbound.environment] at houtcome
  cases outcome with
  | error halt =>
    obtain ⟨last, hvisits, hlast⟩ := hsimulates.of_error houtcome
    change Flow.result (Sequential.visitAll g context (List.range' 0 g.nodes.length) .nothing) _ = _
      at hvisits
    rw [hvisits] at hrun
    exact ⟨last, hrun, hfinal last hlast⟩
  | ok output =>
    obtain ⟨p, after, hvisits, hafter, hsink⟩ := hsimulates.of_ok houtcome
    change Flow.result (Sequential.visitAll g context (List.range' 0 g.nodes.length) .nothing) _ = _
      at hvisits
    rw [hvisits] at hrun
    have hreport : g.report Sequential.name p = ⟨shape.mode, Sequential.name, output, none⟩ := by
      unfold Graph.report
      rw [h.purpose, hsink]
    dsimp only at hrun
    rw [hreport] at hrun
    exact ⟨_, hrun, hfinal _ (hafter.congr rfl rfl rfl)⟩

/-- Compiling preserves meaning: whenever the graph of a training or an application is built,
running it on the instances of any roster ends as direct evaluation does, with the same output or
for the same reason. Afterwards the instance of every leaf has been trained as the actor of that
leaf has. -/
theorem run_eq_evaluate (flow : Workflow ε σ) (feed : Feed ε σ) (sinks : SinkProvider ε σ)
    (shape : Shape) (roster : Roster ε σ) (world : World ε σ) (cancelled : Environment ε → Bool)
    (schedule : Schedule) {g : Graph ε σ} (hgraph : flow.graph feed sinks shape.mode = .ok g)
    (hroster : roster.Sound world) (hlive : cancelled world.environment = false)
    (hworld : ∀ (id : InstanceId) (actor : Instance ε σ), world.instances[id]? = some actor →
      actor.behavior.Isolated)
    (hleaves : ∀ leaf ∈ flow.pipeline.expression.leaves, leaf.spec.behavior.Isolated)
    (hfeed : ∀ producer, feed flow.source.query = .ok producer → producer.behavior.Isolated)
    (hsink : (sinks shape.mode).behavior.Isolated) :
    ∃ producer binding bound start outcome stage last,
      feed flow.source.query = .ok producer ∧
      Action.result (Roster.bind g.nodes roster) world = ((binding, bound), start) ∧
      Direct.result (flow.evaluate world.environment producer (sinks shape.mode) shape)
        (flow.opened roster world) = (outcome, stage) ∧
      Flow.result (Sequential.run g ⟨binding, cancelled, schedule⟩) start =
        (outcome.map fun output ↦ ⟨shape.mode, Sequential.name, output, none⟩, last) ∧
      last.environment = world.environment ∧
      ∀ i < flow.pipeline.expression.leaves.length, ∃ member,
        bound.member? ⟨0, i⟩ = some member ∧
          last.instances[member.actor]? = some (stage.actors i) := by
  obtain ⟨producer, hproducer, hcompiled⟩ := graph_ok hgraph
  obtain ⟨binding, bound, start, hbind, hbound⟩ := Roster.result_bind g.nodes hroster
  obtain ⟨outcome, stage, houtcome⟩ : ∃ outcome stage,
      Direct.result (flow.evaluate world.environment producer (sinks shape.mode) shape)
        (flow.opened roster world) = (outcome, stage) := ⟨_, _, rfl⟩
  obtain ⟨last, hrun, henvironment, hactors⟩ := hcompiled.run_of_bound
    ⟨binding, cancelled, schedule⟩ hbound hlive (isolated_opened hworld hleaves)
    (hfeed producer hproducer) hsink houtcome
  exact ⟨producer, binding, bound, start, outcome, stage, last, hproducer, hbind, houtcome, hrun,
    henvironment, hactors⟩

/-- An actor that gives, for any inputs, the label it was last trained with. -/
def echo : Spec Unit Payload where
  name := "echo"
  stateful := true
  behavior :=
    { fresh := .unit
      apply := fun _ fit env ↦ (.ok fit, env)
      train := fun _ label _ env ↦ (.ok (), label, env)
      exportState := fun _ ↦ .ok none
      loadState := fun _ fit ↦ (.ok (), fit) }

theorem run_eq_evaluate_echo :
    let flow : Workflow Unit Payload := ⟨⟨"rows", some "y"⟩, ⟨0, .mapper echo⟩, none⟩
    let feed : Feed Unit Payload := .ofTables [("rows", ⟨["x", "y"], [[.int 1, .text "a"]]⟩)]
    let given : Payload := .column [.text "a"]
    ∃ g binding bound start last, flow.graph feed .collecting .train = .ok g ∧
      Action.result (Roster.bind g.nodes .empty) (World.new ()) = ((binding, bound), start) ∧
      Flow.result (Sequential.run g ⟨binding, fun _ ↦ false, .inOrder⟩) start =
        (.ok ⟨.train, Sequential.name, some given, none⟩, last) ∧
      ∃ member, bound.member? ⟨0, 0⟩ = some member ∧
        last.instances[member.actor]? = some ⟨echo.behavior, given⟩ := by
  intro flow feed given
  obtain ⟨g, hg⟩ := exists_eq_ok
    (by decide +kernel : (flow.graph feed .collecting .train).isOk = true)
  have hleaves : ∀ leaf ∈ flow.pipeline.expression.leaves, leaf.spec.behavior.Isolated := by
    intro leaf hleaf
    obtain rfl := List.mem_singleton.mp hleaf
    exact ⟨fun _ _ _ ↦ rfl, fun _ _ _ _ ↦ rfl⟩
  have hfeed : ∀ producer, feed flow.source.query = .ok producer → producer.behavior.Isolated := by
    intro producer hproducer
    obtain rfl := Except.ok.inj hproducer
    exact ⟨fun _ _ _ ↦ rfl, fun _ _ _ _ ↦ rfl⟩
  obtain ⟨producer, binding, bound, start, outcome, stage, last, hproducer, hbind, houtcome,
    hrun, -, hactors⟩ := run_eq_evaluate flow feed .collecting .train .empty (World.new ()) (fun _ ↦ false)
      .inOrder hg (Roster.sound_empty _) rfl (fun _ _ hactor ↦ nomatch hactor) hleaves hfeed
      (Behavior.isolated_pure _)
  obtain rfl := Except.ok.inj hproducer
  obtain ⟨rfl, rfl⟩ := Prod.mk.inj houtcome
  exact ⟨g, binding, bound, start, last, hg, hbind, hrun, hactors 0 (by decide)⟩

end Workflow

end Dataflow
