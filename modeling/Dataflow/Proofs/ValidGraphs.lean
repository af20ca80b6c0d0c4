import Dataflow.Proofs.Folds

/-!
# What a workflow is expanded into is a valid graph

A workflow that is expanded on a new builder leaves edges that go from lower to higher nodes only
(`Workflow.Expanded.tail_lt`), so freezing the builder never finds a cycle. Validation asks for two
more things. Every input port of a node must be bound exactly once: a placement binds each of its
inputs once (`Builder.feeders_placeAll`), and it has as many as its node declares, because the check
of widths has accepted the pipeline (`Workflow.Expanded.filled`). And source and sink must stand
alone: between them there are trainers and appliers only. With these, the builder is frozen into a
graph whose nodes run in the order they were added, from the source to the sink
(`Workflow.Expanded.build_eq`, `Workflow.expansion_valid`).

In an evaluation this takes splitters, metrics and aggregators that declare the ports they get;
those of cross-validation do.
-/

set_option autoImplicit false
set_option relaxedAutoImplicit false

namespace Dataflow

variable {ε σ : Type}

/-! ### Placements that validation accepts -/

/-- A data edge among those that bind ports binds one of the inputs. -/
theorem input_of_mem_wires {head other : NodeId} {start i : Nat} {ports : List PortRef}
    {tail : PortRef} (h : Edge.data tail other i ∈ wires head start ports) :
    other = head ∧ i < start + ports.length := by
  induction ports generalizing start with
  | nil => simp [wires] at h
  | cons port rest ih =>
    rw [List.length_cons]
    rcases List.mem_cons.mp h with heq | h
    · cases heq
      exact ⟨rfl, Nat.lt_add_of_pos_right (Nat.succ_pos _)⟩
    · obtain ⟨hhead, hlt⟩ := ih h
      exact ⟨hhead, by omega⟩

/-- The ports of placements that bind all the inputs of their nodes pass the check of ports. -/
theorem checkPorts_placeAll (mode : Mode) {ps : List (Placement ε σ)} (h : ∀ p ∈ ps, p.Filled) :
    checkPorts ((Builder.new mode).placeAll ps).nodes ((Builder.new mode).placeAll ps).edges =
      .ok () := by
  have hundeclared : ((Builder.new mode).placeAll ps).edges.findSome?
      (undeclared? ((Builder.new mode).placeAll ps).nodes) = none := by
    rw [List.findSome?_eq_none_iff]
    intro edge hedge
    rcases Builder.cases_edges_placeAll hedge with hold | ⟨front, p, back, rfl, hadded⟩
    · simp [Builder.new] at hold
    · rcases List.mem_append.mp hadded with hstate | hdata
      · obtain ⟨trainer, -, -, -, rfl⟩ := Builder.mem_stateEdges hstate
        rfl
      · obtain ⟨port, -, i, rfl⟩ := eq_data_of_mem_wires hdata
        obtain ⟨-, hlt⟩ := input_of_mem_wires hdata
        have hlength : ((Builder.new mode).placeAll front).nodes.length = front.length := by
          simp [Builder.new]
        have hnode : ((Builder.new mode).placeAll (front ++ p :: back)).nodes[front.length]? =
            some (p.node front.length) := by
          rw [Builder.getElem?_placeAll_new, List.getElem?_append_right (Nat.le_refl _),
            Nat.sub_self]
          rfl
        rw [Nat.zero_add, h p (List.mem_append_right _ List.mem_cons_self)] at hlt
        rw [undeclared?, hlength, hnode]
        exact if_pos hlt
  have hmisbound : ((Builder.new mode).placeAll ps).nodes.findSome?
      (misbound? ((Builder.new mode).placeAll ps).edges) = none := by
    rw [List.findSome?_eq_none_iff]
    intro node hnode
    obtain ⟨k, hk⟩ := List.getElem?_of_mem hnode
    rw [Builder.getElem?_placeAll_new] at hk
    obtain ⟨p, hp, rfl⟩ := Option.map_eq_some_iff.mp hk
    rw [misbound?, Option.map_eq_none_iff, List.find?_eq_none]
    intro input hinput
    have hlt : input < p.inputs.length := by
      rw [h p (List.mem_of_getElem? hp)]
      exact List.mem_range.mp hinput
    have hbound := Builder.bindings_placeAll (b := Builder.new mode) (by simp [Builder.new]) hp hlt
    have hone : bindings ((Builder.new mode).placeAll ps).edges (p.node k).id input = 1 := by
      simpa [Builder.new, Placement.node] using hbound
    simp [hone]
  rw [checkPorts, hundeclared, hmisbound]

/-- A node that no other node shares its kind with is found. -/
theorem single_of_split (front : List (Node ε σ)) {back : List (Node ε σ)} {node : Node ε σ}
    {kind : NodeKind} (hnode : node.kind = kind) (hfront : ∀ other ∈ front, other.kind ≠ kind)
    (hback : ∀ other ∈ back, other.kind ≠ kind) :
    single (front ++ node :: back) kind = .ok node.id := by
  have hnone : ∀ others : List (Node ε σ), (∀ other ∈ others, other.kind ≠ kind) →
      others.filter (·.kind == kind) = [] := by
    intro others hothers
    rw [List.filter_eq_nil_iff]
    intro other hother
    rw [beq_iff_eq]
    exact hothers other hother
  rw [single, List.filter_append, List.filter_cons_of_pos (by rw [hnode, beq_self_eq_true]),
    hnone front hfront, hnone back hback]
  rfl

/-- What is wrong with ports is no cycle. -/
theorem checkPorts_ne_cyclic (nodes : List (Node ε σ)) (edges : List Edge) (labels : List String) :
    checkPorts nodes edges ≠ .error (.cyclicGraph labels) := by
  intro h
  unfold checkPorts at h
  split at h
  · rename_i e hfound
    obtain ⟨edge, -, hedge⟩ := List.exists_of_findSome?_eq_some hfound
    obtain rfl := Except.error.inj h
    unfold undeclared? at hedge
    split at hedge
    · split at hedge
      · split at hedge <;> simp at hedge
      · simp at hedge
    · simp at hedge
  · rename_i e _ hfound
    obtain ⟨node, -, hnode⟩ := List.exists_of_findSome?_eq_some hfound
    obtain rfl := Except.error.inj h
    simp [misbound?] at hnode
  · cases h

theorem single_ne_cyclic (nodes : List (Node ε σ)) (kind : NodeKind) (labels : List String) :
    single nodes kind ≠ .error (.cyclicGraph labels) := by
  unfold single
  split <;> simp

/-- Nodes that can be ordered have no cycle. -/
theorem validate_ne_cyclic {nodes : List (Node ε σ)} {edges : List Edge} {order : List NodeId}
    (h : orderNodes nodes edges = .ok order) (labels : List String) :
    validate nodes edges ≠ .error (.cyclicGraph labels) := by
  intro hvalid
  rw [validate, h] at hvalid
  rcases bind_eq_error hvalid with hnone | ⟨_, hvalid⟩
  · cases hnone
  rcases bind_eq_error hvalid with hports | ⟨_, hvalid⟩
  · exact checkPorts_ne_cyclic nodes edges labels hports
  rcases bind_eq_error hvalid with hsource | ⟨_, hvalid⟩
  · exact single_ne_cyclic nodes .source labels hsource
  rcases bind_eq_error hvalid with hsink | ⟨_, hnone⟩
  · exact single_ne_cyclic nodes .sink labels hsink
  · cases hnone

namespace Workflow

variable [Inhabited σ] {w : Workflow ε σ}

/-! ### All inputs are bound -/

theorem filled_singleton {ε σ : Type} {p q : Placement ε σ} (hp : p.Filled) (hq : q ∈ [p]) :
    q.Filled := by
  rwa [List.mem_singleton.mp hq]

theorem filled_extraction (w : Workflow ε σ) (node : Nat) {head : Track} (h : head.width = 1) :
    ∀ p ∈ (w.extraction node head).1, p.Filled := by
  unfold extraction
  cases w.source.label with
  | none => simp
  | some label => exact fun p ↦ filled_singleton h

theorem filled_removal (w : Workflow ε σ) (node : Nat) {head : Track} (h : head.width = 1) :
    ∀ p ∈ (w.removal node head).1, p.Filled := by
  unfold removal
  cases w.source.label with
  | none => simp
  | some label => exact fun p ↦ filled_singleton h

/-- The nodes of one fold of cross-validation have all their inputs bound. -/
theorem filled_foldLayout (plan : CrossValidation) {head : Track} (hwidth : head.width = 1)
    (hlabel : head.label.isSome = true) (h : w.Accepts .eval) (node fold : Nat) :
    ∀ p ∈ (w.foldLayout plan.evaluation head node fold).1, p.Filled := by
  obtain ⟨label, hlabel⟩ := Option.isSome_iff_exists.mp hlabel
  obtain ⟨⟨width, htrain⟩, happly⟩ := h
  have hfitted := w.pipeline.expression.laid_of_check ⟨[⟨node, 0⟩], some ⟨node, 1⟩⟩ width htrain
    (foldScope fold) (node + 1) 0
  have happlied := w.pipeline.expression.laid_of_check ⟨[⟨node, 2⟩], none⟩ 1 happly
    (foldScope fold) (node + 1 + (w.body ⟨foldScope fold, .train⟩ (node + 1)
      ⟨[⟨node, 0⟩], some ⟨node, 1⟩⟩).1.length) 0
  intro p hp
  rcases List.mem_append.mp hp with hp | hp
  · rcases List.mem_append.mp hp with hp | hp
    · rcases List.mem_append.mp hp with hp | hp
      · refine filled_singleton ?_ hp
        rw [Placement.Filled, List.length_append, hlabel]
        exact congrArg (· + 1) hwidth
      · exact hfitted.2 p hp
    · exact happlied.2 p hp
  · refine filled_singleton ?_ hp
    rw [Placement.Filled, List.length_append]
    exact congrArg (· + 1) happlied.1

theorem length_ports_foldsLayout {ε σ : Type} (w : Workflow ε σ) (evaluation : Evaluation ε σ)
    (head : Track) (node : Nat) (folds : List Nat) :
    (w.foldsLayout evaluation head node folds).2.length = folds.length := by
  induction folds generalizing node with
  | nil => rfl
  | cons fold rest ih => exact congrArg (· + 1) (ih _)

theorem filled_foldsLayout (plan : CrossValidation) {head : Track} (hwidth : head.width = 1)
    (hlabel : head.label.isSome = true) (h : w.Accepts .eval) (node : Nat) (folds : List Nat) :
    ∀ p ∈ (w.foldsLayout plan.evaluation head node folds).1, p.Filled := by
  induction folds generalizing node with
  | nil => simp [foldsLayout]
  | cons fold rest ih =>
    intro p hp
    rcases List.mem_append.mp hp with hp | hp
    · exact filled_foldLayout plan hwidth hlabel h node fold p hp
    · exact ih _ p hp

/-- The nodes between source and sink have all their inputs bound. -/
theorem filled_middleLayout {mode : Mode} (h : w.Accepts mode)
    (hlabel : mode = .eval → w.source.label.isSome = true)
    (hplan : mode = .eval → ∃ plan : CrossValidation, w.evaluation = some plan.evaluation)
    (node : Nat) {head : Track} (hhead : head.label = none) (hwidth : head.width = 1) :
    ∀ p ∈ (w.middleLayout mode node head).1, p.Filled := by
  have hone := w.width_extraction node hwidth
  have hlabelled := w.label_extraction node hhead
  cases mode with
  | train =>
    intro p hp
    rcases List.mem_append.mp hp with hp | hp
    · exact w.filled_extraction node hwidth p hp
    · refine (w.pipeline.expression.laid_of_check _ 1 ?_ 0 _ 0).2 p hp
      rw [hone, hlabelled]
      exact h
  | apply =>
    intro p hp
    rcases List.mem_append.mp hp with hp | hp
    · exact w.filled_removal node hwidth p hp
    · refine (w.pipeline.expression.laid_of_check _ 1 ?_ 0 _ 0).2 p hp
      rw [w.width_removal node hwidth, w.label_removal, hhead]
      exact h
  | eval =>
    obtain ⟨plan, hplan⟩ := hplan rfl
    rw [hlabel rfl] at hlabelled
    simp only [middleLayout, hplan, evaluationLayout]
    intro p hp
    rcases List.mem_append.mp hp with hp | hp
    · rcases List.mem_append.mp hp with hp | hp
      · exact w.filled_extraction node hwidth p hp
      · exact filled_foldsLayout plan hone hlabelled h _ _ p hp
    · refine filled_singleton ?_ hp
      rw [Placement.Filled, length_ports_foldsLayout, List.length_range]
      rfl

/-- Between source and sink there are trainers and appliers only. -/
theorem kind_of_mem_middleRoles {mode : Mode} {role : Role ε σ} (h : role ∈ w.middleRoles mode) :
    role.kind = .trainer ∨ role.kind = .applier := by
  have hlabel : ∀ make, ∀ role ∈ w.labelRoles make,
      role.kind = .trainer ∨ role.kind = .applier := by
    intro make role hrole
    obtain ⟨label, -, rfl⟩ := Option.map_eq_some_iff.mp (Option.mem_toList.mp hrole)
    exact .inr rfl
  have hleaves : ∀ shape scope, ∀ role ∈ rolesFrom shape scope 0 w.pipeline.expression.leaves,
      role.kind = .trainer ∨ role.kind = .applier := by
    intro shape scope role hrole
    obtain ⟨i, leaf, -, hmem⟩ := mem_rolesFrom hrole
    obtain ⟨kind, hkind, rfl⟩ := List.mem_map.mp hmem
    exact Leaf.cases_kinds hkind
  have hplain : ∀ spec : Spec ε σ, ∀ role ∈ [Role.plain .applier spec],
      role.kind = .trainer ∨ role.kind = .applier := by
    intro spec role hrole
    rw [List.mem_singleton.mp hrole]
    exact .inr rfl
  unfold middleRoles at h
  split at h
  · exact (List.mem_append.mp h).elim (hlabel _ role) (hleaves _ _ role)
  · exact (List.mem_append.mp h).elim (hlabel _ role) (hleaves _ _ role)
  · rename_i evaluation _
    rcases List.mem_append.mp h with h | h
    · rcases List.mem_append.mp h with h | h
      · exact hlabel _ role h
      · obtain ⟨fold, -, h⟩ := List.mem_flatMap.mp h
        rcases List.mem_append.mp h with h | h
        · rcases List.mem_append.mp h with h | h
          · exact (List.mem_append.mp h).elim (hplain _ role) (hleaves _ _ role)
          · exact hleaves _ _ role h
        · exact hplain _ role h
    · exact hplain _ role h
  · simp at h

namespace Expanded

variable {producer receiver : Spec ε σ} {mode : Mode} {expansion : Expansion} {b : Builder ε σ}

theorem length_nodes (h : w.Expanded producer receiver mode expansion b) :
    b.nodes.length = (w.layout producer receiver mode).length := by
  rw [h.nodes, Builder.length_nodes_placeAll]
  exact Nat.zero_add _

theorem grounded (h : w.Expanded producer receiver mode expansion b) :
    Placement.Grounded 0 (w.layout producer receiver mode) := by
  cases mode with
  | train => exact w.grounded_layout producer receiver .train
  | apply => exact w.grounded_layout producer receiver .apply
  | eval =>
    obtain ⟨evaluation, hevaluation⟩ := Option.isSome_iff_exists.mp (h.evaluation rfl)
    obtain ⟨label, hlabel⟩ := Option.isSome_iff_exists.mp (h.labelled rfl)
    exact grounded_evaluation producer receiver hevaluation hlabel

/-- Edges go from lower to higher nodes. -/
theorem tail_lt (h : w.Expanded producer receiver mode expansion b) :
    ∀ edge ∈ b.edges, edge.tail < edge.head := by
  rw [h.edges]
  exact ((Builder.ascending_new mode).placeAll h.grounded).tail_lt

/-- The nodes are ordered by their numbers. -/
theorem orderNodes_eq (h : w.Expanded producer receiver mode expansion b) :
    orderNodes b.nodes b.edges = .ok (List.range b.nodes.length) := by
  have harcs : ∀ arc ∈ b.edges.map Edge.arc, arc.1 < arc.2 := by
    intro arc harc
    obtain ⟨edge, hedge, rfl⟩ := List.mem_map.mp harc
    exact h.tail_lt edge hedge
  rw [orderNodes, topologicalSort_of_ascending _ harcs]

theorem filled (h : w.Expanded producer receiver mode expansion b)
    (hplan : mode = .eval → ∃ plan : CrossValidation, w.evaluation = some plan.evaluation) :
    ∀ p ∈ w.layout producer receiver mode, p.Filled := by
  intro p hp
  rcases List.mem_append.mp hp with hp | hp
  · rcases List.mem_append.mp hp with hp | hp
    · have hsource : Placement.Filled (⟨.source, producer, none, []⟩ : Placement ε σ) := rfl
      exact filled_singleton hsource hp
    · exact filled_middleLayout h.accepts h.labelled hplan 1 rfl rfl p hp
  · exact filled_singleton (p := ⟨.sink, receiver, none, _⟩) h.width hp

/-- The nodes are the source, trainers and appliers, and the sink. -/
theorem nodes_split (h : w.Expanded producer receiver mode expansion b) :
    ∃ source middle sink, b.nodes = source :: middle ++ [sink] ∧
      (source.id = 0 ∧ source.kind = .source) ∧
      (sink.id = b.nodes.length - 1 ∧ sink.kind = .sink) ∧
      ∀ node ∈ middle, node.kind = .trainer ∨ node.kind = .applier := by
  let middle := w.middleLayout mode 1 ⟨[⟨0, 0⟩], none⟩
  have hlength : b.nodes.length = middle.1.length + 1 + 1 := by
    rw [h.length_nodes, layout, List.length_append, List.length_append, List.length_singleton,
      Nat.add_comm 1]
    rfl
  refine ⟨Placement.node ⟨.source, producer, none, []⟩ 0,
    middle.1.mapIdx fun k p ↦ p.node (1 + k),
    Placement.node ⟨.sink, receiver, none, middle.2.ports⟩ (middle.1.length + 1), ?_, ⟨rfl, rfl⟩,
    ⟨?_, rfl⟩, fun node hnode ↦ ?_⟩
  · rw [h.nodes, Builder.nodes_placeAll]
    simp [layout, middle, Builder.new, List.mapIdx_append, Nat.add_comm]
  · rw [hlength, Nat.add_sub_cancel]
    rfl
  · obtain ⟨k, hk, rfl⟩ := List.mem_mapIdx.mp hnode
    have hrole : middle.1[k].role ∈ w.middleRoles mode := by
      rw [← w.roles_middleLayout mode 1 ⟨[⟨0, 0⟩], none⟩]
      exact List.mem_map_of_mem (List.getElem_mem hk)
    exact kind_of_mem_middleRoles hrole

/-- The builder is frozen into a graph whose nodes run from the source to the sink in the order they
were added. -/
theorem build_eq (h : w.Expanded producer receiver mode expansion b)
    (hplan : mode = .eval → ∃ plan : CrossValidation, w.evaluation = some plan.evaluation) :
    b.build = .ok ⟨b.mode, b.nodes, b.edges, b.groups, List.range b.nodes.length, 0,
      b.nodes.length - 1⟩ := by
  have hports : checkPorts b.nodes b.edges = .ok () := by
    rw [h.nodes, h.edges]
    exact checkPorts_placeAll mode (h.filled hplan)
  obtain ⟨source, middle, sink, hnodes, ⟨hfirst, hsource⟩, ⟨hlast, hsink⟩, hmiddle⟩ := h.nodes_split
  have hstart : single b.nodes .source = .ok 0 := by
    rw [hnodes, ← hfirst]
    refine single_of_split [] hsource (by simp) fun other hother ↦ ?_
    rcases List.mem_append.mp hother with hother | hother
    · rcases hmiddle other hother with hkind | hkind <;> simp [hkind]
    · simp [List.mem_singleton.mp hother, hsink]
  have hend : single b.nodes .sink = .ok (b.nodes.length - 1) := by
    rw [← hlast, hnodes]
    refine single_of_split _ hsink (fun other hother ↦ ?_) (by simp)
    rcases List.mem_cons.mp hother with rfl | hother
    · simp [hsource]
    · rcases hmiddle other hother with hkind | hkind <;> simp [hkind]
  refine Builder.build_eq_ok.mpr ⟨⟨List.range b.nodes.length, 0, b.nodes.length - 1⟩, ?_, rfl⟩
  rw [validate, h.orderNodes_eq, hports, hstart, hend]
  rfl

end Expanded

/-- Whatever a workflow is expanded into on a new builder, all edges go from lower to higher nodes, so
no cycle is found when it is frozen. Unless it is an evaluation other than cross-validation, it is
frozen into a graph of these nodes and edges that runs its nodes in the order they were added, the
source first and the sink last. -/
theorem expansion_valid {feed : Feed ε σ} {sinks : SinkProvider ε σ} {mode : Mode}
    {expansion : Expansion} {b : Builder ε σ}
    (h : Build.run (w.expand feed sinks) (Builder.new mode) = (.ok expansion, b)) :
    (∀ edge ∈ b.edges, edge.tail < edge.head) ∧
      (∀ labels, b.build ≠ .error (.cyclicGraph labels)) ∧
      ((mode = .eval → ∀ evaluation, w.evaluation = some evaluation →
          ∃ plan : CrossValidation, evaluation = plan.evaluation) →
        ∃ g, b.build = .ok g ∧ g.nodes = b.nodes ∧ g.edges = b.edges ∧
          g.order = List.range g.nodes.length ∧ g.order.head? = some g.source ∧
          g.order.getLast? = some g.sink ∧ expansion = ⟨g.source, g.sink⟩) := by
  obtain ⟨producer, -, hexpanded⟩ := expand_ok h
  have hne : b.nodes.length ≠ 0 := by
    obtain ⟨source, middle, sink, hnodes, -⟩ := hexpanded.nodes_split
    simp [hnodes]
  refine ⟨hexpanded.tail_lt, fun labels hcyclic ↦ ?_, fun hplan ↦ ?_⟩
  · rcases bind_eq_error hcyclic with hvalid | ⟨_, hnone⟩
    · exact validate_ne_cyclic hexpanded.orderNodes_eq labels hvalid
    · cases hnone
  · have hevaluation : mode = .eval →
        ∃ plan : CrossValidation, w.evaluation = some plan.evaluation := by
      intro heval
      obtain ⟨evaluation, hevaluation⟩ := Option.isSome_iff_exists.mp (hexpanded.evaluation heval)
      obtain ⟨plan, rfl⟩ := hplan heval evaluation hevaluation
      exact ⟨plan, hevaluation⟩
    refine ⟨_, hexpanded.build_eq hevaluation, rfl, rfl, rfl, ?_, ?_, ?_⟩
    · rw [List.head?_range, if_neg hne]
    · rw [List.getLast?_range, if_neg hne]
    · rw [← hexpanded.source, ← hexpanded.sink]

/-- Two folds of a stateful actor and two branches give 26 nodes, which run in their order. -/
theorem expansion_valid_branching :
    ∃ expansion b g, Build.run (branching.expand (.ofTables [("rows", ⟨[], []⟩)]) .collecting)
        (Builder.new .eval) = (.ok expansion, b) ∧
      b.build = .ok g ∧ g.order = List.range 26 ∧ g.order.head? = some g.source ∧
      g.order.getLast? = some g.sink := by
  generalize hrun : Build.run (branching.expand (.ofTables [("rows", ⟨[], []⟩)]) .collecting)
    (Builder.new .eval) = outcome
  have hfacts : (outcome.1.isOk && outcome.2.nodes.length == 26) = true := by
    rw [← hrun]
    decide +kernel
  obtain ⟨hok, hlength⟩ := Bool.and_eq_true_iff.mp hfacts
  obtain ⟨expansion, hexpansion⟩ := exists_eq_ok hok
  obtain ⟨-, -, hvalid⟩ := expansion_valid (hrun.trans (Prod.ext hexpansion rfl))
  obtain ⟨g, hg, hnodes, -, horder, hfirst, hlast, -⟩ := hvalid fun _ evaluation hevaluation ↦
    ⟨_, (Option.some.inj hevaluation).symm⟩
  rw [hnodes, beq_iff_eq.mp hlength] at horder
  exact ⟨expansion, outcome.2, g, Prod.ext hexpansion rfl, hg, horder, hfirst, hlast⟩

end Workflow

end Dataflow
