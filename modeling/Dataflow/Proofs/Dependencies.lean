import Dataflow.Proofs.Placement
import Dataflow.Proofs.Validation
import Mathlib.Logic.Relation

/-!
# What depends on what

`Builder.Assembled` are the builders that the operations lead to. Their nodes are numbered by
position, their edges join nodes that exist, and a data edge leaves an output port that is declared
(`Builder.Assembled.linked`). A graph that such a builder is frozen into is moreover ordered and has
all its input ports bound (`Graph.Valid`). `Builder.Reachable` are the builders among them whose
nodes were all added with the ports of their kind and actor, and `Graph.Sound` are their graphs.

A node depends on the tails of the edges into it (`Graph.mem_dependencies`), and a node *precedes*
another if a path of dependencies leads from it to the other. Nodes stand in the order of the graph
only behind those that precede them (`Graph.Valid.pairwise_order`), so of the nodes that are missing
from a set, the first in the order depends only on nodes of the set (`Graph.Valid.exists_ready`).
-/

set_option autoImplicit false
set_option relaxedAutoImplicit false

namespace Dataflow

variable {ε σ : Type}

/-! ### Builders that can be reached -/

/-- The builders that come about by any calls, also of those that give a node ports of its own. -/
inductive Builder.Assembled : Builder ε σ → Prop
  | new (mode : Mode) : Assembled (Builder.new mode)
  | addNode {b : Builder ε σ} (h : Assembled b) (kind : NodeKind) (spec : Spec ε σ)
      (group : Option GroupId) (arity : Arity) :
      Assembled (b.addNodeWithArity kind spec group arity)
  | connect {b after : Builder ε σ} (h : Assembled b) {tail : PortRef} {head : NodeId} {input : Nat}
      (hstep : b.connect tail head input = .ok after) : Assembled after
  | addStateEdge {b after : Builder ε σ} (h : Assembled b) {tail head : NodeId}
      (hstep : b.addStateEdge tail head = .ok after) : Assembled after
  | allocateGroup {b : Builder ε σ} (h : Assembled b) (spec : Spec ε σ) :
      Assembled (b.allocateGroup spec)
  | enter {b : Builder ε σ} (h : Assembled b) (context : Context) : Assembled (b.enter context)
  | leave {b : Builder ε σ} (h : Assembled b) (former : Context) : Assembled (b.leave former)
  | remember {b : Builder ε σ} (h : Assembled b) (memo : List (ExpansionKey × Track)) :
      Assembled { b with memo }
  | expanded {b : Builder ε σ} (h : Assembled b) (expansion : Option Expansion) :
      Assembled { b with expansion }

/-- The builders that come about when nodes are added with the ports of their kind and actor
only. -/
inductive Builder.Reachable : Builder ε σ → Prop
  | new (mode : Mode) : Reachable (Builder.new mode)
  | addNode {b : Builder ε σ} (h : Reachable b) (kind : NodeKind) (spec : Spec ε σ)
      (group : Option GroupId) : Reachable (b.addNode kind spec group)
  | connect {b after : Builder ε σ} (h : Reachable b) {tail : PortRef} {head : NodeId} {input : Nat}
      (hstep : b.connect tail head input = .ok after) : Reachable after
  | addStateEdge {b after : Builder ε σ} (h : Reachable b) {tail head : NodeId}
      (hstep : b.addStateEdge tail head = .ok after) : Reachable after
  | allocateGroup {b : Builder ε σ} (h : Reachable b) (spec : Spec ε σ) :
      Reachable (b.allocateGroup spec)
  | enter {b : Builder ε σ} (h : Reachable b) (context : Context) : Reachable (b.enter context)
  | leave {b : Builder ε σ} (h : Reachable b) (former : Context) : Reachable (b.leave former)
  | remember {b : Builder ε σ} (h : Reachable b) (memo : List (ExpansionKey × Track)) :
      Reachable { b with memo }
  | expanded {b : Builder ε σ} (h : Reachable b) (expansion : Option Expansion) :
      Reachable { b with expansion }

theorem Builder.Reachable.assembled {b : Builder ε σ} (h : b.Reachable) : b.Assembled := by
  induction h with
  | new mode => exact .new mode
  | addNode h kind spec group ih => exact ih.addNode kind spec group _
  | connect h hstep ih => exact ih.connect hstep
  | addStateEdge h hstep ih => exact ih.addStateEdge hstep
  | allocateGroup h spec ih => exact ih.allocateGroup spec
  | enter h context ih => exact ih.enter context
  | leave h former ih => exact ih.leave former
  | remember h memo ih => exact ih.remember memo
  | expanded h expansion ih => exact ih.expanded expansion

/-- Nodes are numbered by position. Edges join nodes that exist, and a data edge leaves an output
port that its tail declares. -/
structure Linked (nodes : List (Node ε σ)) (edges : List Edge) : Prop where
  id_eq : ∀ (k : Nat) (node : Node ε σ), nodes[k]? = some node → node.id = k
  tail_lt : ∀ edge ∈ edges, edge.tail < nodes.length
  head_lt : ∀ edge ∈ edges, edge.head < nodes.length
  port : ∀ (tail : PortRef) (head : NodeId) (input : Nat), Edge.data tail head input ∈ edges →
    ∃ node, nodes[tail.node]? = some node ∧ tail.port < node.arity.outputs

/-- Moreover, nodes have the ports of their kind and actor. -/
structure Wired (nodes : List (Node ε σ)) (edges : List Edge) : Prop
    extends Linked nodes edges where
  arity : ∀ node ∈ nodes, node.arity = node.kind.arity node.spec.arity

namespace Linked

variable {nodes : List (Node ε σ)} {edges : List Edge}

theorem getElem?_id (h : Linked nodes edges) {node : Node ε σ} (hnode : node ∈ nodes) :
    nodes[node.id]? = some node := by
  obtain ⟨k, hk⟩ := List.getElem?_of_mem hnode
  rw [h.id_eq k node hk]
  exact hk

theorem id_lt (h : Linked nodes edges) {node : Node ε σ} (hnode : node ∈ nodes) :
    node.id < nodes.length :=
  (List.getElem?_eq_some_iff.mp (h.getElem?_id hnode)).1

theorem map_id (h : Linked nodes edges) : nodes.map Node.id = List.range nodes.length := by
  refine List.ext_getElem (by simp) fun k hk _ ↦ ?_
  rw [List.length_map] at hk
  rw [List.getElem_map, List.getElem_range]
  exact h.id_eq k _ (List.getElem?_eq_getElem hk)

/-- An edge between nodes that exist may be added if its port is declared. -/
theorem addEdge (h : Linked nodes edges) {edge : Edge} (htail : edge.tail < nodes.length)
    (hhead : edge.head < nodes.length) (hport : ∀ tail head input, edge = .data tail head input →
      ∃ node, nodes[tail.node]? = some node ∧ tail.port < node.arity.outputs) :
    Linked nodes (edges ++ [edge]) where
  id_eq := h.id_eq
  tail_lt other hother := by
    rcases List.mem_append.mp hother with hother | hother
    · exact h.tail_lt other hother
    · rwa [List.mem_singleton.mp hother]
  head_lt other hother := by
    rcases List.mem_append.mp hother with hother | hother
    · exact h.head_lt other hother
    · rwa [List.mem_singleton.mp hother]
  port tail head input hmem := by
    rcases List.mem_append.mp hmem with hmem | hmem
    · exact h.port tail head input hmem
    · exact hport tail head input (List.mem_singleton.mp hmem).symm

/-- A node may be added under the next number. -/
theorem addNode (h : Linked nodes edges) {node : Node ε σ} (hid : node.id = nodes.length) :
    Linked (nodes ++ [node]) edges where
  id_eq k other hother := by
    rw [List.getElem?_append] at hother
    split_ifs at hother with hk
    · exact h.id_eq k other hother
    · obtain ⟨hlt, rfl⟩ := List.getElem?_eq_some_iff.mp hother
      rw [List.length_singleton] at hlt
      have hlast : nodes.length = k := by omega
      rw [List.getElem_singleton, hid]
      exact hlast
  tail_lt edge hedge := by
    rw [List.length_append]
    exact Nat.lt_add_right _ (h.tail_lt edge hedge)
  head_lt edge hedge := by
    rw [List.length_append]
    exact Nat.lt_add_right _ (h.head_lt edge hedge)
  port tail head input hmem := by
    obtain ⟨source, hsource, hlt⟩ := h.port tail head input hmem
    refine ⟨source, ?_, hlt⟩
    rwa [List.getElem?_append_left (List.getElem?_eq_some_iff.mp hsource).1]

end Linked

theorem Builder.Assembled.linked {b : Builder ε σ} (h : b.Assembled) : Linked b.nodes b.edges := by
  induction h with
  | new mode =>
    refine ⟨fun k node hnode ↦ ?_, ?_, ?_, ?_⟩
    · simp [Builder.new] at hnode
    all_goals simp [Builder.new]
  | @addNode b h kind spec group arity ih =>
    have hnew : Linked (b.addNodeWithArity kind spec group arity).nodes b.edges := ih.addNode rfl
    change Linked (b.addNodeWithArity kind spec group arity).nodes
      (b.edges ++ b.stateEdges kind group)
    have hlength : (b.addNodeWithArity kind spec group arity).nodes.length = b.nodes.length + 1 :=
      List.length_append
    -- an added node gets at most one state edge, from a trainer that was there
    rcases hedges : b.stateEdges kind group with _ | ⟨edge, rest⟩
    · rwa [List.append_nil]
    · have hrest : rest = [] := by
        unfold stateEdges at hedges
        split at hedges
        · exact (List.cons.inj hedges).2.symm
        · cases hedges
      rw [hrest]
      have hedge : edge ∈ b.stateEdges kind group := by
        rw [hedges]
        exact List.mem_cons_self
      obtain ⟨trainer, htrainer, -, -, rfl⟩ := mem_stateEdges hedge
      refine hnew.addEdge ?_ ?_ fun tail head input hdata ↦ by cases hdata
      · rw [hlength]
        exact Nat.lt_succ_of_lt (ih.id_lt htrainer)
      · rw [hlength]
        exact Nat.lt_succ_self _
  | connect h hstep ih =>
    obtain ⟨⟨target, htarget, -⟩, ⟨source, hsource, hport⟩, -, rfl⟩ := connect_eq_ok.mp hstep
    refine ih.addEdge (List.getElem?_eq_some_iff.mp hsource).1
      (List.getElem?_eq_some_iff.mp htarget).1 fun tail head input hdata ↦ ?_
    obtain ⟨rfl, -, -⟩ := Edge.data.inj hdata
    exact ⟨source, hsource, hport⟩
  | addStateEdge h hstep ih =>
    obtain ⟨⟨tail, htail⟩, ⟨head, hhead⟩, rfl⟩ := addStateEdge_eq_ok.mp hstep
    exact ih.addEdge (List.getElem?_eq_some_iff.mp htail).1 (List.getElem?_eq_some_iff.mp hhead).1
      fun tail head input hdata ↦ by cases hdata
  | allocateGroup h spec ih => exact ih
  | enter h context ih => exact ih
  | leave h former ih => exact ih
  | remember h memo ih => exact ih
  | expanded h expansion ih => exact ih

theorem Builder.Reachable.wired {b : Builder ε σ} (h : b.Reachable) : Wired b.nodes b.edges := by
  refine ⟨h.assembled.linked, ?_⟩
  induction h with
  | new mode => simp [Builder.new]
  | addNode h kind spec group ih =>
    intro node hnode
    rcases List.mem_append.mp hnode with hnode | hnode
    · exact ih node hnode
    · rw [List.mem_singleton.mp hnode]
  | connect h hstep ih =>
    obtain ⟨-, -, -, rfl⟩ := connect_eq_ok.mp hstep
    exact ih
  | addStateEdge h hstep ih =>
    obtain ⟨-, -, rfl⟩ := addStateEdge_eq_ok.mp hstep
    exact ih
  | allocateGroup h spec ih => exact ih
  | enter h context ih => exact ih
  | leave h former ih => exact ih
  | remember h memo ih => exact ih
  | expanded h expansion ih => exact ih

/-! ### Dependencies -/

theorem mem_insertIncreasing {n m : Nat} {l : List Nat} :
    m ∈ insertIncreasing n l ↔ m = n ∨ m ∈ l := by
  induction l with
  | nil => simp [insertIncreasing]
  | cons first rest ih =>
    rw [insertIncreasing]
    split_ifs with hlt heq
    · rw [List.mem_cons]
    · subst heq
      rw [List.mem_cons]
      exact or_self_left.symm
    · rw [List.mem_cons, ih, List.mem_cons]
      exact or_left_comm

theorem pairwise_insertIncreasing {n : Nat} {l : List Nat} (h : l.Pairwise (· < ·)) :
    (insertIncreasing n l).Pairwise (· < ·) := by
  induction l with
  | nil => simp [insertIncreasing]
  | cons first rest ih =>
    obtain ⟨hfirst, hrest⟩ := List.pairwise_cons.mp h
    rw [insertIncreasing]
    split_ifs with hlt heq
    · refine List.pairwise_cons.mpr ⟨fun m hm ↦ ?_, h⟩
      rcases List.mem_cons.mp hm with rfl | hm
      · exact hlt
      · exact Nat.lt_trans hlt (hfirst m hm)
    · exact h
    · refine List.pairwise_cons.mpr ⟨fun m hm ↦ ?_, ih hrest⟩
      rcases mem_insertIncreasing.mp hm with rfl | hm
      · omega
      · exact hfirst m hm

/-- Collecting tails in increasing order keeps what was collected. -/
theorem mem_foldl_tails {edges : List Edge} {found : List NodeId} {id : NodeId} :
    id ∈ edges.foldl (fun found edge ↦ insertIncreasing edge.tail found) found ↔
      id ∈ found ∨ ∃ edge ∈ edges, edge.tail = id := by
  induction edges generalizing found with
  | nil => simp
  | cons edge rest ih =>
    rw [List.foldl_cons, ih, mem_insertIncreasing, List.exists_mem_cons_iff, or_assoc,
      or_left_comm, eq_comm]

theorem pairwise_foldl_tails (edges : List Edge) {found : List NodeId}
    (h : found.Pairwise (· < ·)) :
    (edges.foldl (fun found edge ↦ insertIncreasing edge.tail found) found).Pairwise (· < ·) := by
  induction edges generalizing found with
  | nil => exact h
  | cons edge rest ih => exact ih (pairwise_insertIncreasing h)

/-- The tail of an edge stands before its head. -/
theorem Orders.idxOf_lt {n : Nat} {edges : List Edge} {order : List NodeId}
    (h : Orders n edges order) {edge : Edge} (hedge : edge ∈ edges) (hhead : edge.head < n) :
    order.idxOf edge.tail < order.idxOf edge.head := by
  have hmem : edge.head ∈ order := h.perm.mem_iff.mpr (List.mem_range.mpr hhead)
  obtain ⟨front, back, horder⟩ := List.append_of_mem hmem
  have htail := h.tail_mem front back edge.head horder edge hedge rfl
  have hnodup := h.perm.symm.nodup List.nodup_range
  rw [horder] at hnodup ⊢
  exact idxOf_lt_of_mem_front hnodup htail

namespace Graph

variable {g : Graph ε σ}

/-- A node depends on the tails of the edges into it. -/
theorem mem_dependencies {id other : NodeId} :
    other ∈ g.dependencies id ↔ ∃ edge ∈ g.edges, edge.head = id ∧ edge.tail = other := by
  unfold dependencies
  rw [mem_foldl_tails]
  simp [and_assoc]

theorem pairwise_dependencies (g : Graph ε σ) (id : NodeId) :
    (g.dependencies id).Pairwise (· < ·) :=
  pairwise_foldl_tails _ List.Pairwise.nil

theorem nodup_dependencies (g : Graph ε σ) (id : NodeId) : (g.dependencies id).Nodup :=
  (g.pairwise_dependencies id).imp Nat.ne_of_lt

/-- The nodes that feed the inputs of a node are among its dependencies. -/
theorem mem_dependencies_of_mem_inputs {id : NodeId} {port : PortRef} (h : port ∈ g.inputs id) :
    port.node ∈ g.dependencies id := by
  unfold inputs at h
  split at h
  · obtain ⟨input, -, hbound⟩ := List.mem_filterMap.mp h
    obtain ⟨edge, hedge, hfeeds⟩ := List.exists_of_findSome?_eq_some hbound
    refine mem_dependencies.mpr ⟨edge, hedge, ?_⟩
    cases edge with
    | data tail head i =>
      rw [Edge.feeds?] at hfeeds
      split_ifs at hfeeds with hboth
      rw [← Option.some.inj hfeeds]
      exact ⟨hboth.1, rfl⟩
    | state tail head => cases hfeeds
  · cases h

/-- A path of dependencies leads from one node to another. -/
def Precedes (g : Graph ε σ) : NodeId → NodeId → Prop :=
  Relation.TransGen fun first second ↦ first ∈ g.dependencies second

/-- What validation and the builder guarantee together, whatever ports nodes were given. -/
structure Valid (g : Graph ε σ) : Prop where
  linked : Linked g.nodes g.edges
  orders : Orders g.nodes.length g.edges g.order
  saturated : Saturated g.nodes g.edges

/-- Moreover, nodes have the ports of their kind and actor. -/
structure Sound (g : Graph ε σ) : Prop extends g.Valid where
  arity : ∀ node ∈ g.nodes, node.arity = node.kind.arity node.spec.arity

theorem Sound.wired (h : g.Sound) : Wired g.nodes g.edges :=
  ⟨h.linked, h.arity⟩

theorem valid_of_build {b : Builder ε σ} (h : b.Assembled) (hbuild : b.build = .ok g) :
    g.Valid := by
  obtain ⟨found, hvalid, rfl⟩ := Builder.build_eq_ok.mp hbuild
  obtain ⟨horder, hports, -, -⟩ := validate_eq_ok hvalid
  exact ⟨h.linked, orders_of_topologicalSort (topologicalSort_of_orderNodes horder),
    saturated_of_checkPorts hports⟩

theorem sound_of_build {b : Builder ε σ} (h : b.Reachable) (hbuild : b.build = .ok g) :
    g.Sound := by
  refine ⟨valid_of_build h.assembled hbuild, ?_⟩
  obtain ⟨found, -, rfl⟩ := Builder.build_eq_ok.mp hbuild
  exact h.wired.arity

namespace Valid

theorem nodup_order (h : g.Valid) : g.order.Nodup :=
  h.orders.perm.symm.nodup List.nodup_range

theorem mem_order (h : g.Valid) {id : NodeId} : id ∈ g.order ↔ id < g.nodes.length := by
  rw [h.orders.perm.mem_iff, List.mem_range]

/-- In front of a node in the order stand all nodes that it depends on, and not the node itself. -/
theorem front_of_order (h : g.Valid) {front back : List NodeId} {id : NodeId}
    (horder : g.order = front ++ id :: back) :
    id < g.nodes.length ∧ id ∉ front ∧ ∀ other ∈ g.dependencies id, other ∈ front := by
  have hmem : id ∈ g.order := horder ▸ List.mem_append_right _ List.mem_cons_self
  refine ⟨h.mem_order.mp hmem, notMem_front_of_nodup (horder ▸ h.nodup_order), ?_⟩
  intro other hother
  obtain ⟨edge, hedge, hhead, rfl⟩ := mem_dependencies.mp hother
  exact h.orders.tail_mem front back id horder edge hedge hhead

theorem lt_of_mem_dependencies (h : g.Valid) {id other : NodeId}
    (hmem : other ∈ g.dependencies id) :
    other < g.nodes.length := by
  obtain ⟨edge, hedge, -, rfl⟩ := mem_dependencies.mp hmem
  exact h.linked.tail_lt edge hedge

/-- A dependency stands before its dependents in the order. -/
theorem idxOf_lt_of_mem_dependencies (h : g.Valid) {id other : NodeId}
    (hmem : other ∈ g.dependencies id) : g.order.idxOf other < g.order.idxOf id := by
  obtain ⟨edge, hedge, rfl, rfl⟩ := mem_dependencies.mp hmem
  exact h.orders.idxOf_lt hedge (h.linked.head_lt edge hedge)

theorem idxOf_lt_of_precedes (h : g.Valid) {first second : NodeId}
    (hpath : g.Precedes first second) :
    g.order.idxOf first < g.order.idxOf second := by
  induction hpath with
  | single hmem => exact h.idxOf_lt_of_mem_dependencies hmem
  | tail _ hmem ih => exact Nat.lt_trans ih (h.idxOf_lt_of_mem_dependencies hmem)

/-- A node never stands in the order before one that precedes it. -/
theorem pairwise_order (h : g.Valid) : g.order.Pairwise fun first second ↦
    ¬ g.Precedes second first := by
  refine List.pairwise_iff_getElem.mpr fun i j hi hj hij hpath ↦ ?_
  have hlt := h.idxOf_lt_of_precedes hpath
  rw [h.nodup_order.idxOf_getElem, h.nodup_order.idxOf_getElem] at hlt
  exact Nat.lt_asymm hij hlt

/-- If a node is missing from a set, then so is one that depends on nodes of the set only. -/
theorem exists_ready (h : g.Valid) {done : List NodeId} {id : NodeId} (hid : id < g.nodes.length)
    (hmissing : id ∉ done) :
    ∃ ready < g.nodes.length, ready ∉ done ∧ ∀ other ∈ g.dependencies ready, other ∈ done := by
  -- by induction on the position in the order: look at a missing dependency, if there is one
  induction hrank : g.order.idxOf id using Nat.strongRecOn generalizing id with
  | ind rank ih =>
    by_cases hready : ∀ other ∈ g.dependencies id, other ∈ done
    · exact ⟨id, hid, hmissing, hready⟩
    · push Not at hready
      obtain ⟨other, hother, hgone⟩ := hready
      have hlt := h.idxOf_lt_of_mem_dependencies hother
      rw [hrank] at hlt
      exact ih _ hlt (h.lt_of_mem_dependencies hother) hgone rfl

end Valid

end Graph

end Dataflow
