import Dataflow.Proofs.Counting
import Dataflow.Proofs.Dependencies

/-!
# Building with tables comes to the same

The data edges of a builder enter input ports that are declared, each of them at most once
(`Builder.Assembled.slotted`). So the tables that are filled from its edges have an entry for
whatever is entered (`Tabled.countBindings_eq`, `Tabled.enterEdges_eq`), and building with them gives
what building does: the same graph or the same error, and never a crash
(`Tabled.build_eq_lift`).
-/

set_option autoImplicit false
set_option relaxedAutoImplicit false

namespace Dataflow

variable {ε σ α : Type}

/-! ### The input ports of a builder -/

/-- Data edges enter input ports that are declared, each of them at most once. -/
structure Slotted (nodes : List (Node ε σ)) (edges : List Edge) : Prop where
  declared : ∀ (tail : PortRef) (head : NodeId) (input : Nat), Edge.data tail head input ∈ edges →
    ∃ node, nodes[head]? = some node ∧ input < node.arity.inputs
  bindings_le : ∀ head input, bindings edges head input ≤ 1

theorem bindings_append (front back : List Edge) (head : NodeId) (input : Nat) :
    bindings (front ++ back) head input = bindings front head input + bindings back head input :=
  List.countP_append

/-- State edges bind no input ports. -/
theorem bindings_eq_zero_of_state {edges : List Edge}
    (hstate : ∀ edge ∈ edges, ∃ tail head, edge = .state tail head) (head : NodeId) (input : Nat) :
    bindings edges head input = 0 := by
  refine List.countP_eq_zero.mpr fun edge hedge ↦ ?_
  obtain ⟨_, _, rfl⟩ := hstate edge hedge
  exact Bool.false_ne_true

theorem Builder.exists_state_of_mem_stateEdges (b : Builder ε σ) (kind : NodeKind)
    (group : Option GroupId) :
    ∀ edge ∈ b.stateEdges kind group, ∃ tail head, edge = .state tail head := by
  intro edge hedge
  obtain ⟨trainer, -, -, -, rfl⟩ := mem_stateEdges hedge
  exact ⟨trainer.id, b.nodes.length, rfl⟩

theorem bindings_eq_zero_iff {edges : List Edge} {head : NodeId} {input : Nat} :
    bindings edges head input = 0 ↔ boundPort? edges head input = none := by
  rw [bindings_eq_length, boundPort?_eq_head?, List.length_eq_zero_iff, List.head?_eq_none_iff]

/-- A single data edge binds its own input port only. -/
theorem bindings_data_le (tail : PortRef) (head other : NodeId) (input i : Nat) :
    bindings [.data tail head input] other i ≤ if head = other ∧ input = i then 1 else 0 := by
  by_cases hsame : head = other ∧ input = i <;> simp [bindings, Edge.feeds?, hsame]

namespace Slotted

variable {nodes : List (Node ε σ)} {edges : List Edge}

theorem append_nodes (h : Slotted nodes edges) (more : List (Node ε σ)) :
    Slotted (nodes ++ more) edges where
  declared tail head input hmem := by
    obtain ⟨node, hnode, hlt⟩ := h.declared tail head input hmem
    have hhead := (List.getElem?_eq_some_iff.mp hnode).1
    exact ⟨node, (List.getElem?_append_left hhead).trans hnode, hlt⟩
  bindings_le := h.bindings_le

theorem append_state (h : Slotted nodes edges) {more : List Edge}
    (hstate : ∀ edge ∈ more, ∃ tail head, edge = .state tail head) :
    Slotted nodes (edges ++ more) where
  declared tail head input hmem := by
    rcases List.mem_append.mp hmem with hmem | hmem
    · exact h.declared tail head input hmem
    · obtain ⟨_, _, hedge⟩ := hstate _ hmem
      cases hedge
  bindings_le head input := by
    rw [bindings_append, bindings_eq_zero_of_state hstate, Nat.add_zero]
    exact h.bindings_le head input

/-- A data edge may be added into an input port that is declared and free. -/
theorem append_data (h : Slotted nodes edges) (tail : PortRef) {head : NodeId} {input : Nat}
    {target : Node ε σ} (htarget : nodes[head]? = some target) (hinput : input < target.arity.inputs)
    (hfree : boundPort? edges head input = none) :
    Slotted nodes (edges ++ [.data tail head input]) where
  declared tail' head' input' hmem := by
    rcases List.mem_append.mp hmem with hmem | hmem
    · exact h.declared tail' head' input' hmem
    · obtain ⟨rfl, rfl, rfl⟩ := Edge.data.inj (List.mem_singleton.mp hmem)
      exact ⟨target, htarget, hinput⟩
  bindings_le head' input' := by
    have hnew := bindings_data_le tail head head' input input'
    have hold := h.bindings_le head' input'
    rw [bindings_append]
    split_ifs at hnew with hsame
    · obtain ⟨rfl, rfl⟩ := hsame
      rw [bindings_eq_zero_iff.mpr hfree, Nat.zero_add]
      exact hnew
    · omega

end Slotted

theorem Builder.Assembled.slotted {b : Builder ε σ} (h : b.Assembled) :
    Slotted b.nodes b.edges := by
  induction h with
  | new mode => exact ⟨by simp [Builder.new], by simp [Builder.new, bindings]⟩
  | addNode h kind spec group arity ih =>
    exact (ih.append_nodes _).append_state (exists_state_of_mem_stateEdges _ kind group)
  | connect h hstep ih =>
    obtain ⟨⟨target, htarget, hinput⟩, -, hfree, rfl⟩ := connect_eq_ok.mp hstep
    exact ih.append_data _ htarget hinput hfree
  | addStateEdge h hstep ih =>
    obtain ⟨-, -, rfl⟩ := addStateEdge_eq_ok.mp hstep
    exact ih.append_state fun edge hedge ↦ ⟨_, _, List.mem_singleton.mp hedge⟩
  | allocateGroup h spec ih => exact ih
  | enter h context ih => exact ih
  | leave h former ih => exact ih
  | remember h memo ih => exact ih
  | expanded h expansion ih => exact ih

/-- If all data edges enter ports that are declared, what is left to check is that each is bound
once. -/
theorem checkPorts_of_declared {nodes : List (Node ε σ)} {edges : List Edge}
    (hdeclared : ∀ tail head input, Edge.data tail head input ∈ edges →
      ∃ node, nodes[head]? = some node ∧ input < node.arity.inputs) :
    checkPorts nodes edges =
      match nodes.findSome? (misbound? edges) with
      | some e => .error e
      | none => .ok () := by
  have hnone : edges.findSome? (undeclared? nodes) = none := by
    refine List.findSome?_eq_none_iff.mpr fun edge hedge ↦ ?_
    cases edge with
    | state tail head => rfl
    | data tail head input =>
      obtain ⟨node, hnode, hinput⟩ := hdeclared tail head input hedge
      simp [undeclared?, hnode, hinput]
  rw [checkPorts, hnone]
  cases nodes.findSome? (misbound? edges) <;> rfl

namespace Tabled

variable {nodes : List (Node ε σ)} {edges : List Edge}

/-! ### Tables with a row for each node -/

/-- The table of a function on the numbers of nodes. -/
def nodeTable (nodes : List (Node ε σ)) (f : NodeId → α) : List α :=
  nodes.map fun node ↦ f node.id

/-- Where nodes are numbered by position, a row for each node is a row for each number. -/
theorem nodeTable_eq_tabulate (h : Linked nodes edges) (f : NodeId → α) :
    nodeTable nodes f = tabulate nodes.length f := by
  rw [tabulate, ← h.map_id, List.map_map]
  rfl

/-- The table of a function on input ports, with a row for each node. -/
def portTable (nodes : List (Node ε σ)) (f : NodeId → Nat → α) : List (List α) :=
  nodes.map fun node ↦ tabulate node.arity.inputs (f node.id)

/-- A function with another value at one input port. -/
def atPort (f : NodeId → Nat → α) (head : NodeId) (input : Nat) (a : α) : NodeId → Nat → α :=
  Function.update f head (Function.update (f head) input a)

section

variable (hids : ∀ (k : Nat) (node : Node ε σ), nodes[k]? = some node → node.id = k)

include hids

/-- Setting the entry of a node changes it for this node only. -/
theorem set_map_nodes {f g : Node ε σ → α} {id : NodeId} {a : α}
    (hat : ∀ node, nodes[id]? = some node → g node = a)
    (hother : ∀ node, node.id ≠ id → g node = f node) :
    (nodes.map f).set id a = nodes.map g := by
  refine List.ext_getElem? fun k ↦ ?_
  rw [List.getElem?_set, List.length_map, List.getElem?_map, List.getElem?_map]
  cases hnode : nodes[k]? with
  | none =>
    have hout : nodes.length ≤ k := List.getElem?_eq_none_iff.mp hnode
    split_ifs with hk hlt
    · exact absurd hlt (by omega)
    · rfl
    · rfl
  | some node =>
    have hlt : k < nodes.length := (List.getElem?_eq_some_iff.mp hnode).1
    by_cases hk : id = k
    · subst hk
      rw [if_pos rfl, if_pos hlt, Option.map_some, hat node hnode]
    · rw [if_neg hk, Option.map_some, Option.map_some, hother node]
      rw [hids k node hnode]
      exact Ne.symm hk

theorem change_nodeTable (f : NodeId → α) {id : NodeId} (h : id < nodes.length) (g : α → α) :
    change (nodeTable nodes f) id g = .ok (nodeTable nodes (Function.update f id (g (f id)))) := by
  have hget := List.getElem?_eq_getElem h
  have hentry : entry (nodeTable nodes f) id = .ok (f id) := by
    rw [entry, nodeTable, List.getElem?_map, hget, Option.map_some, hids id _ hget]
  rw [change, hentry]
  refine congrArg Except.ok (set_map_nodes hids (fun node hnode ↦ ?_) fun node hnode ↦ ?_)
  · rw [hids id node hnode, Function.update_self]
  · rw [Function.update_of_ne hnode]

theorem getElem?_portTable (f : NodeId → Nat → α) {id : NodeId} {node : Node ε σ}
    (h : nodes[id]? = some node) :
    (portTable nodes f)[id]? = some (tabulate node.arity.inputs (f id)) := by
  rw [portTable, List.getElem?_map, h, Option.map_some, hids id node h]

theorem set_portTable (f : NodeId → Nat → α) {id : NodeId} {node : Node ε σ}
    (h : nodes[id]? = some node) (input : Nat) (a : α) :
    (portTable nodes f).set id ((tabulate node.arity.inputs (f id)).set input a) =
      portTable nodes (atPort f id input a) := by
  refine set_map_nodes hids (fun other hother ↦ ?_) fun other hother ↦ ?_
  · obtain rfl := Option.some.inj (h.symm.trans hother)
    rw [set_tabulate, hids id node h, atPort, Function.update_self]
  · rw [atPort, Function.update_of_ne hother]

end

theorem atPort_apply (f : NodeId → Nat → α) (head : NodeId) (input : Nat) (a : α) (id : NodeId)
    (i : Nat) : atPort f head input a id i = if head = id ∧ input = i then a else f id i := by
  by_cases hid : head = id
  · subst hid
    by_cases hi : input = i
    · subst hi
      rw [atPort, Function.update_self, Function.update_self, if_pos ⟨rfl, rfl⟩]
    · rw [atPort, Function.update_self, Function.update_of_ne (Ne.symm hi), if_neg (hi ·.2)]
  · rw [atPort, Function.update_of_ne (Ne.symm hid), if_neg (hid ·.1)]

/-! ### Counting bindings -/

theorem countBindings_eq (hids : ∀ (k : Nat) (node : Node ε σ), nodes[k]? = some node → node.id = k)
    (hdeclared : ∀ tail head input, Edge.data tail head input ∈ edges →
      ∃ node, nodes[head]? = some node ∧ input < node.arity.inputs)
    (counts : NodeId → Nat → Nat) :
    countBindings nodes edges (portTable nodes counts) =
      .ok (portTable nodes fun id input ↦ counts id input + bindings edges id input) := by
  induction edges generalizing counts with
  | nil => rfl
  | cons edge rest ih =>
    have hrest := ih fun tail head input hmem ↦
      hdeclared tail head input (List.mem_cons_of_mem _ hmem)
    cases edge with
    | state tail head => exact hrest counts
    | data tail head input =>
      obtain ⟨node, hnode, hinput⟩ := hdeclared tail head input List.mem_cons_self
      rw [countBindings, entry, getElem?_portTable hids counts hnode]
      simp only [bind, Except.bind, getElem?_tabulate _ hinput, set_portTable hids counts hnode]
      refine (hrest _).trans (congrArg (fun f ↦ Except.ok (portTable nodes f)) ?_)
      funext id i
      rw [atPort_apply, bindings, bindings, List.countP_cons]
      split_ifs with hsame hfeeds hfeeds
      · obtain ⟨rfl, rfl⟩ := hsame
        omega
      · exact absurd (by simp [Edge.feeds?, hsame]) hfeeds
      · simp [Edge.feeds?, hsame] at hfeeds
      · rfl

theorem misbound?_tabulate (edges : List Edge) (node : Node ε σ) :
    misbound? node (tabulate node.arity.inputs (bindings edges node.id)) =
      Dataflow.misbound? edges node := by
  have hzip : (tabulate node.arity.inputs (bindings edges node.id)).zipIdx =
      (List.range node.arity.inputs).map fun input ↦ (bindings edges node.id input, input) := by
    refine List.ext_getElem (by simp) fun k _ _ ↦ ?_
    simp [tabulate]
  rw [misbound?, hzip, List.find?_map, Option.map_map]
  rfl

/-- Ports are checked by counting as they are by looking at the edges, without a crash. -/
theorem checkPorts_eq_lift
    (hids : ∀ (k : Nat) (node : Node ε σ), nodes[k]? = some node → node.id = k)
    (hdeclared : ∀ tail head input, Edge.data tail head input ∈ edges →
      ∃ node, nodes[head]? = some node ∧ input < node.arity.inputs) :
    checkPorts nodes edges = Halt.lift (Dataflow.checkPorts nodes edges) := by
  have hcounts := countBindings_eq hids hdeclared fun _ _ ↦ 0
  simp only [Nat.zero_add, portTable, ← replicate_eq_tabulate] at hcounts
  have hzip : nodes.zip (nodes.map fun node ↦ tabulate node.arity.inputs (bindings edges node.id)) =
      nodes.map fun node ↦ (node, tabulate node.arity.inputs (bindings edges node.id)) :=
    List.ext_getElem (by simp) (by simp)
  rw [checkPorts, hcounts, checkPorts_of_declared hdeclared]
  simp only [bind, Except.bind, hzip, List.findSome?_map, Function.comp_def, misbound?_tabulate]
  cases nodes.findSome? (Dataflow.misbound? edges) <;> rfl

/-! ### Freezing -/

/-- The tails of the edges into a node, collected in increasing order beside those found. -/
def collectTails (edges : List Edge) (id : NodeId) (found : List NodeId) : List NodeId :=
  (edges.filter (·.head == id)).foldl (fun found edge ↦ insertIncreasing edge.tail found) found

theorem collectTails_cons (edge : Edge) (rest : List Edge) (d : NodeId → List NodeId)
    (id : NodeId) : collectTails (edge :: rest) id (d id) =
      collectTails rest id
        (Function.update d edge.head (insertIncreasing edge.tail (d edge.head)) id) := by
  by_cases hid : edge.head = id
  · subst hid
    rw [collectTails, List.filter_cons, if_pos (beq_self_eq_true _), Function.update_self]
    rfl
  · rw [collectTails, List.filter_cons, if_neg (by simpa using hid),
      Function.update_of_ne (Ne.symm hid)]
    rfl

/-- The tables hold the port bound last to each input port, and the tails of the edges into each
node. -/
theorem enterEdges_eq (hids : ∀ (k : Nat) (node : Node ε σ), nodes[k]? = some node → node.id = k)
    (hheads : ∀ edge ∈ edges, edge.head < nodes.length)
    (hdeclared : ∀ tail head input, Edge.data tail head input ∈ edges →
      ∃ node, nodes[head]? = some node ∧ input < node.arity.inputs)
    (f : NodeId → Nat → Option PortRef) (d : NodeId → List NodeId) :
    enterEdges edges ⟨portTable nodes f, nodeTable nodes d⟩ =
      .ok ⟨portTable nodes fun id input ↦ (feeders edges id input).getLast?.or (f id input),
        nodeTable nodes fun id ↦ collectTails edges id (d id)⟩ := by
  induction edges generalizing f d with
  | nil => rfl
  | cons edge rest ih =>
    have hrest := ih (fun edge hedge ↦ hheads edge (List.mem_cons_of_mem _ hedge))
      fun tail head input hmem ↦ hdeclared tail head input (List.mem_cons_of_mem _ hmem)
    have hhead := hheads edge List.mem_cons_self
    rw [enterEdges, change_nodeTable hids d hhead]
    simp only [collectTails_cons edge rest d]
    cases edge with
    | state tail head => exact hrest f _
    | data tail head input =>
      obtain ⟨node, hnode, hinput⟩ := hdeclared tail head input List.mem_cons_self
      simp only [bind, Except.bind, change, entry, getElem?_portTable hids f hnode,
        getElem?_tabulate _ hinput, pure, Except.pure, set_portTable hids f hnode]
      refine (hrest _ _).trans (congrArg (fun f ↦ Except.ok (NodeTables.mk (portTable nodes f) _)) ?_)
      funext id i
      rw [atPort_apply, feeders, feeders]
      by_cases hsame : head = id ∧ input = i
      · rw [if_pos hsame, List.filterMap_cons_some (by rw [Edge.feeds?, if_pos hsame]),
          List.getLast?_cons]
        cases (rest.filterMap (Edge.feeds? id i)).getLast? <;> rfl
      · rw [if_neg hsame, List.filterMap_cons_none (by rw [Edge.feeds?, if_neg hsame])]

/-- The tables of what a graph tells of its nodes. -/
def tablesOf (g : Graph ε σ) : NodeTables where
  inputs := portTable g.nodes (boundPort? g.edges)
  dependencies := nodeTable g.nodes g.dependencies

/-- The last edge into an input port is the first one, if there is at most one. -/
theorem getLast?_feeders {head : NodeId} {input : Nat} (h : bindings edges head input ≤ 1) :
    (feeders edges head input).getLast? = boundPort? edges head input := by
  rw [bindings_eq_length] at h
  rw [boundPort?_eq_head?]
  match hfeeders : feeders edges head input with
  | [] => rfl
  | [port] => rfl
  | port :: other :: rest =>
    rw [hfeeders, List.length_cons, List.length_cons] at h
    omega

theorem enterEdges_eq_ok (hlinked : Linked nodes edges) (hslotted : Slotted nodes edges) :
    enterEdges edges (.unbound nodes) =
      .ok ⟨portTable nodes (boundPort? edges), nodeTable nodes fun id ↦ collectTails edges id []⟩ := by
  have hrun := enterEdges_eq hlinked.id_eq hlinked.head_lt hslotted.declared (fun _ _ ↦ none)
    fun _ ↦ []
  have hports : (fun id input ↦ (feeders edges id input).getLast?.or none) = boundPort? edges := by
    funext id input
    rw [Option.or_none, getLast?_feeders (hslotted.bindings_le id input)]
  rw [hports] at hrun
  simpa only [NodeTables.unbound, portTable, nodeTable, replicate_eq_tabulate] using hrun

/-- Building with tables gives the same graph or the same error as building, and never crashes. The
tables at the end tell what the graph tells. -/
theorem build_eq_lift {b : Builder ε σ} (h : b.Assembled) :
    build b = Halt.lift (b.build.map fun g ↦ (g, tablesOf g)) := by
  have hlinked := h.linked
  have hslotted := h.slotted
  have hedges : ∀ edge ∈ b.edges, edge.tail < b.nodes.length ∧ edge.head < b.nodes.length :=
    fun edge hedge ↦ ⟨hlinked.tail_lt edge hedge, hlinked.head_lt edge hedge⟩
  rw [build, orderNodes_eq_lift hlinked.id_eq hedges,
    checkPorts_eq_lift hlinked.id_eq hslotted.declared, enterEdges_eq_ok hlinked hslotted,
    Builder.build, validate]
  cases Dataflow.orderNodes b.nodes b.edges with
  | error e => rfl
  | ok order =>
    cases Dataflow.checkPorts b.nodes b.edges with
    | error e => rfl
    | ok u =>
      cases single b.nodes .source with
      | error e => rfl
      | ok source =>
        cases single b.nodes .sink with
        | error e => rfl
        | ok sink => rfl

end Tabled

end Dataflow
