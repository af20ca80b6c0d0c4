import Dataflow.Proofs.Building
import Mathlib.Data.List.Basic
import Mathlib.Tactic.SplitIfs

/-!
# Placing nodes

A `Placement` is a node to be added together with the ports its inputs are bound to. `Builder.place`
adds the node, the state edge it gets as an applier, and one data edge for each input. A graph that
is made by placing nodes one after another can be read back from its placements: the node of number
`k` is the `k`-th placement (`getElem?_placeAll`), and each of its inputs is bound once, to the port
of that placement (`feeders_placeAll`), whatever is placed later. If every placement reads ports of
earlier nodes only, every edge goes from a lower to a higher node (`Ascending.placeAll`).
-/

set_option autoImplicit false
set_option relaxedAutoImplicit false

namespace Dataflow

variable {ε σ : Type}

/-- A node to be added, and the ports its inputs are bound to, in order. -/
structure Placement (ε σ : Type) where
  kind : NodeKind
  spec : Spec ε σ
  group : Option GroupId
  inputs : List PortRef

namespace Placement

/-- The node of a placement under a number. -/
def node (p : Placement ε σ) (id : NodeId) : Node ε σ :=
  ⟨id, p.kind, p.spec, p.group, p.kind.arity p.spec.arity⟩

/-- The node declares all the input ports that are bound. -/
def Fits (p : Placement ε σ) : Prop :=
  p.inputs.length ≤ (p.kind.arity p.spec.arity).inputs

/-- The node reads only ports of nodes below a number. -/
def Below (n : Nat) (p : Placement ε σ) : Prop :=
  ∀ port ∈ p.inputs, port.node < n

/-- Placed from a number on, every node reads only ports of nodes before it. -/
def Grounded (n : Nat) (ps : List (Placement ε σ)) : Prop :=
  ∀ k (p : Placement ε σ), ps[k]? = some p → p.Below (n + k)

end Placement

/-- The data edges that bind ports, in order, to the input ports of a node from `input` on. -/
def wires (head : NodeId) : Nat → List PortRef → List Edge
  | _, [] => []
  | input, port :: rest => .data port head input :: wires head (input + 1) rest

theorem eq_data_of_mem_wires {head : NodeId} {input : Nat} {ports : List PortRef} {edge : Edge}
    (h : edge ∈ wires head input ports) : ∃ port ∈ ports, ∃ i, edge = .data port head i := by
  induction ports generalizing input with
  | nil => simp [wires] at h
  | cons port rest ih =>
    rcases List.mem_cons.mp h with rfl | h
    · exact ⟨port, List.mem_cons_self, input, rfl⟩
    · obtain ⟨other, hother, i, hedge⟩ := ih h
      exact ⟨other, List.mem_cons_of_mem _ hother, i, hedge⟩

theorem head_of_mem_wires {head : NodeId} {input : Nat} {ports : List PortRef} {edge : Edge}
    (h : edge ∈ wires head input ports) : edge.head = head := by
  obtain ⟨port, -, i, rfl⟩ := eq_data_of_mem_wires h
  rfl

theorem tail_of_mem_wires {head : NodeId} {input : Nat} {ports : List PortRef} {edge : Edge}
    (h : edge ∈ wires head input ports) : ∃ port ∈ ports, edge.tail = port.node := by
  obtain ⟨port, hport, i, rfl⟩ := eq_data_of_mem_wires h
  exact ⟨port, hport, rfl⟩

/-! ### The ports bound to an input -/

/-- The ports that edges bring to an input port, in the order of the edges. -/
def feeders (edges : List Edge) (head : NodeId) (input : Nat) : List PortRef :=
  edges.filterMap (Edge.feeds? head input)

theorem boundPort?_eq_head? (edges : List Edge) (head : NodeId) (input : Nat) :
    boundPort? edges head input = (feeders edges head input).head? :=
  List.head?_filterMap.symm

theorem bindings_eq_length (edges : List Edge) (head : NodeId) (input : Nat) :
    bindings edges head input = (feeders edges head input).length :=
  List.length_filterMap_eq_countP.symm

theorem feeders_append (front back : List Edge) (head : NodeId) (input : Nat) :
    feeders (front ++ back) head input = feeders front head input ++ feeders back head input :=
  List.filterMap_append

/-- Edges into other nodes bring nothing to a node. -/
theorem feeders_eq_nil {edges : List Edge} {head : NodeId} (input : Nat)
    (h : ∀ edge ∈ edges, edge.head ≠ head) : feeders edges head input = [] := by
  rw [feeders, List.filterMap_eq_nil_iff]
  intro edge hedge
  have hne := h edge hedge
  cases edge with
  | data tail other i => exact if_neg fun heq ↦ hne heq.1
  | state tail other => rfl

theorem feeders_wires_of_lt (head : NodeId) {start input : Nat} (ports : List PortRef)
    (h : input < start) : feeders (wires head start ports) head input = [] := by
  induction ports generalizing start with
  | nil => rfl
  | cons port rest ih =>
    have hne : ¬ start = input := by omega
    rw [wires, feeders, List.filterMap_cons_none (by simp [Edge.feeds?, hne])]
    exact ih (Nat.lt_succ_of_lt h)

theorem feeders_wires (head : NodeId) (start offset : Nat) (ports : List PortRef) :
    feeders (wires head start ports) head (start + offset) = ports[offset]?.toList := by
  induction ports generalizing start offset with
  | nil => rfl
  | cons port rest ih =>
    cases offset with
    | zero =>
      rw [wires, feeders, List.filterMap_cons_some (b := port) (by simp [Edge.feeds?])]
      exact congrArg (port :: ·) (feeders_wires_of_lt head rest (Nat.lt_succ_self start))
    | succ offset =>
      have hnext : start + (offset + 1) = start + 1 + offset := by omega
      rw [wires, feeders, List.filterMap_cons_none (by simp [Edge.feeds?]), hnext,
        List.getElem?_cons_succ]
      exact ih (start + 1) offset

namespace Builder

/-! ### One placement -/

/-- Adds a node and binds its inputs. -/
def place (b : Builder ε σ) (p : Placement ε σ) : Builder ε σ :=
  { b.addNode p.kind p.spec p.group with
    edges := (b.addNode p.kind p.spec p.group).edges ++ wires b.nodes.length 0 p.inputs }

theorem nodes_place (b : Builder ε σ) (p : Placement ε σ) :
    (b.place p).nodes = b.nodes ++ [p.node b.nodes.length] := rfl

theorem edges_place (b : Builder ε σ) (p : Placement ε σ) :
    (b.place p).edges =
      b.edges ++ b.stateEdges p.kind p.group ++ wires b.nodes.length 0 p.inputs := rfl

@[simp] theorem length_nodes_place (b : Builder ε σ) (p : Placement ε σ) :
    (b.place p).nodes.length = b.nodes.length + 1 := by
  rw [nodes_place, List.length_append, List.length_singleton]

/-- A state edge that an added node gets comes from a trainer of its group. -/
theorem mem_stateEdges {b : Builder ε σ} {kind : NodeKind} {group : Option GroupId} {edge : Edge}
    (h : edge ∈ b.stateEdges kind group) :
    ∃ trainer ∈ b.nodes, trainer.kind = .trainer ∧ trainer.group = group ∧
      edge = .state trainer.id b.nodes.length := by
  unfold stateEdges at h
  split at h
  · rename_i trainer htrainer
    obtain ⟨g, rfl, hlast⟩ := Option.bind_eq_some_iff.mp htrainer
    obtain ⟨node, hnode, rfl⟩ := Option.map_eq_some_iff.mp hlast
    have hmem := List.mem_of_getLast? hnode
    simp only [List.mem_filter, Bool.and_eq_true, beq_iff_eq] at hmem
    exact ⟨node, hmem.1, hmem.2.1, hmem.2.2, List.mem_singleton.mp h⟩
  · simp at h

/-- Every edge that a placement adds enters the node placed. -/
theorem head_of_mem_edges_place {b : Builder ε σ} {p : Placement ε σ} {edge : Edge}
    (h : edge ∈ b.stateEdges p.kind p.group ++ wires b.nodes.length 0 p.inputs) :
    edge.head = b.nodes.length := by
  rcases List.mem_append.mp h with h | h
  · obtain ⟨trainer, -, -, -, rfl⟩ := mem_stateEdges h
    rfl
  · exact head_of_mem_wires h

theorem feeders_place_of_lt {b : Builder ε σ} (p : Placement ε σ) {id : NodeId} (input : Nat)
    (h : id < b.nodes.length) :
    feeders (b.place p).edges id input = feeders b.edges id input := by
  have hnew : feeders (b.stateEdges p.kind p.group ++ wires b.nodes.length 0 p.inputs) id input =
      [] := by
    refine feeders_eq_nil input fun edge hedge ↦ ?_
    rw [head_of_mem_edges_place hedge]
    exact Nat.ne_of_gt h
  rw [edges_place, List.append_assoc, feeders_append, hnew, List.append_nil]

theorem feeders_place_self {b : Builder ε σ} (p : Placement ε σ) (input : Nat)
    (h : ∀ edge ∈ b.edges, edge.head < b.nodes.length) :
    feeders (b.place p).edges b.nodes.length input = p.inputs[input]?.toList := by
  have hstate : feeders (b.stateEdges p.kind p.group) b.nodes.length input = [] := by
    rw [feeders, List.filterMap_eq_nil_iff]
    intro edge hedge
    obtain ⟨trainer, -, -, -, rfl⟩ := mem_stateEdges hedge
    rfl
  have hold : feeders b.edges b.nodes.length input = [] :=
    feeders_eq_nil input fun edge hedge ↦ Nat.ne_of_lt (h edge hedge)
  rw [edges_place, feeders_append, feeders_append, hstate, hold, List.append_nil, List.nil_append]
  simpa using feeders_wires b.nodes.length 0 input p.inputs

/-! ### Placements one after another -/

/-- Places nodes in order. -/
def placeAll (b : Builder ε σ) (ps : List (Placement ε σ)) : Builder ε σ :=
  ps.foldl place b

@[simp] theorem placeAll_nil (b : Builder ε σ) : b.placeAll [] = b := rfl

@[simp] theorem placeAll_cons (b : Builder ε σ) (p : Placement ε σ) (ps : List (Placement ε σ)) :
    b.placeAll (p :: ps) = (b.place p).placeAll ps := rfl

theorem placeAll_append (b : Builder ε σ) (front back : List (Placement ε σ)) :
    b.placeAll (front ++ back) = (b.placeAll front).placeAll back :=
  List.foldl_append

@[simp] theorem length_nodes_placeAll (b : Builder ε σ) (ps : List (Placement ε σ)) :
    (b.placeAll ps).nodes.length = b.nodes.length + ps.length := by
  induction ps generalizing b with
  | nil => rfl
  | cons p ps ih =>
    rw [placeAll_cons, ih, length_nodes_place, List.length_cons]
    omega

/-- The nodes of a builder after placing, in order. -/
theorem nodes_placeAll (b : Builder ε σ) (ps : List (Placement ε σ)) :
    (b.placeAll ps).nodes = b.nodes ++ ps.mapIdx fun k p ↦ p.node (b.nodes.length + k) := by
  induction ps generalizing b with
  | nil => simp
  | cons p ps ih =>
    rw [placeAll_cons, ih, nodes_place, List.mapIdx_cons, List.append_assoc, List.singleton_append,
      List.length_append, List.length_singleton, Nat.add_zero]
    congr 3
    funext k q
    rw [Nat.add_right_comm, Nat.add_assoc]

/-- The `k`-th placement is the `k`-th of the nodes added. -/
theorem getElem?_placeAll (b : Builder ε σ) (ps : List (Placement ε σ)) (k : Nat) :
    (b.placeAll ps).nodes[b.nodes.length + k]? =
      ps[k]?.map fun p ↦ p.node (b.nodes.length + k) := by
  rw [nodes_placeAll, List.getElem?_append_right (Nat.le_add_right _ _), Nat.add_sub_cancel_left,
    List.getElem?_mapIdx]

/-- Placed into a new builder, the `k`-th placement is the `k`-th node. -/
theorem getElem?_placeAll_new (mode : Mode) (ps : List (Placement ε σ)) (k : Nat) :
    ((Builder.new mode).placeAll ps).nodes[k]? = ps[k]?.map fun p ↦ p.node k := by
  simpa [new] using getElem?_placeAll (new mode) ps k

theorem feeders_placeAll_of_lt {b : Builder ε σ} (ps : List (Placement ε σ)) {id : NodeId}
    (input : Nat) (h : id < b.nodes.length) :
    feeders (b.placeAll ps).edges id input = feeders b.edges id input := by
  induction ps generalizing b with
  | nil => rfl
  | cons p ps ih =>
    rw [placeAll_cons, ih (Nat.lt_of_lt_of_eq (Nat.lt_succ_of_lt h) (length_nodes_place b p).symm),
      feeders_place_of_lt p input h]

theorem head_lt_of_place {b : Builder ε σ} (h : ∀ edge ∈ b.edges, edge.head < b.nodes.length)
    (p : Placement ε σ) : ∀ edge ∈ (b.place p).edges, edge.head < (b.place p).nodes.length := by
  intro edge hedge
  rw [length_nodes_place]
  rw [edges_place, List.append_assoc] at hedge
  rcases List.mem_append.mp hedge with hedge | hedge
  · exact Nat.lt_succ_of_lt (h edge hedge)
  · exact Nat.lt_succ_of_le (Nat.le_of_eq (head_of_mem_edges_place hedge))

/-- Each input of the `k`-th of the nodes added gets the port of its placement and no other. -/
theorem feeders_placeAll {b : Builder ε σ} (h : ∀ edge ∈ b.edges, edge.head < b.nodes.length)
    {ps : List (Placement ε σ)} {k : Nat} {p : Placement ε σ} (hp : ps[k]? = some p) (input : Nat) :
    feeders (b.placeAll ps).edges (b.nodes.length + k) input = p.inputs[input]?.toList := by
  induction ps generalizing b k with
  | nil => simp at hp
  | cons q ps ih =>
    rw [placeAll_cons]
    cases k with
    | zero =>
      obtain rfl : q = p := by simpa using hp
      rw [Nat.add_zero, feeders_placeAll_of_lt ps input
        (Nat.lt_of_lt_of_eq (Nat.lt_succ_self _) (length_nodes_place b q).symm)]
      exact feeders_place_self q input h
    | succ k =>
      have hnext := ih (head_lt_of_place h q) (k := k) (by simpa using hp)
      rw [length_nodes_place] at hnext
      rw [← hnext, Nat.add_assoc, Nat.add_comm 1 k]

/-- The inputs of the `k`-th of the nodes added are bound to the ports of its placement. -/
theorem boundPort?_placeAll {b : Builder ε σ} (h : ∀ edge ∈ b.edges, edge.head < b.nodes.length)
    {ps : List (Placement ε σ)} {k : Nat} {p : Placement ε σ} (hp : ps[k]? = some p) (input : Nat) :
    boundPort? (b.placeAll ps).edges (b.nodes.length + k) input = p.inputs[input]? := by
  rw [boundPort?_eq_head?, feeders_placeAll h hp]
  cases p.inputs[input]? <;> rfl

/-- Each input of the `k`-th of the nodes added is bound once. -/
theorem bindings_placeAll {b : Builder ε σ} (h : ∀ edge ∈ b.edges, edge.head < b.nodes.length)
    {ps : List (Placement ε σ)} {k : Nat} {p : Placement ε σ} (hp : ps[k]? = some p) {input : Nat}
    (hinput : input < p.inputs.length) :
    bindings (b.placeAll ps).edges (b.nodes.length + k) input = 1 := by
  rw [bindings_eq_length, feeders_placeAll h hp, List.getElem?_eq_getElem hinput]
  rfl

/-- An edge of a builder after placing was there before, or a placement has added it. -/
theorem cases_edges_placeAll {b : Builder ε σ} {ps : List (Placement ε σ)} {edge : Edge}
    (h : edge ∈ (b.placeAll ps).edges) :
    edge ∈ b.edges ∨ ∃ front p back, ps = front ++ p :: back ∧
      edge ∈ (b.placeAll front).stateEdges p.kind p.group ++
        wires (b.placeAll front).nodes.length 0 p.inputs := by
  induction ps generalizing b with
  | nil => exact .inl h
  | cons p ps ih =>
    rcases ih h with hold | ⟨front, q, back, rfl, hadded⟩
    · rw [edges_place, List.append_assoc] at hold
      exact (List.mem_append.mp hold).imp_right fun hadded ↦ ⟨[], p, ps, rfl, hadded⟩
    · exact .inr ⟨p :: front, q, back, rfl, hadded⟩

theorem stateEdges_congr {b c : Builder ε σ} (h : b.nodes = c.nodes) (kind : NodeKind)
    (group : Option GroupId) : b.stateEdges kind group = c.stateEdges kind group := by
  have htrainer : b.trainer? = c.trainer? := by
    funext g
    unfold trainer?
    rw [h]
  unfold stateEdges
  rw [htrainer, h]

/-- Placing looks at nodes and edges only. -/
theorem placeAll_congr {b c : Builder ε σ} (hnodes : b.nodes = c.nodes) (hedges : b.edges = c.edges)
    (ps : List (Placement ε σ)) :
    (b.placeAll ps).nodes = (c.placeAll ps).nodes ∧
      (b.placeAll ps).edges = (c.placeAll ps).edges := by
  induction ps generalizing b c with
  | nil => exact ⟨hnodes, hedges⟩
  | cons p ps ih =>
    refine ih ?_ ?_
    · rw [nodes_place, nodes_place, hnodes]
    · rw [edges_place, edges_place, hedges, stateEdges_congr hnodes, hnodes]

/-! ### Edges go upwards -/

/-- Nodes are numbered by their position, and every edge goes from a lower to a higher node. -/
structure Ascending (b : Builder ε σ) : Prop where
  id_eq : ∀ (i : Nat) (node : Node ε σ), b.nodes[i]? = some node → node.id = i
  tail_lt : ∀ edge ∈ b.edges, edge.tail < edge.head
  head_lt : ∀ edge ∈ b.edges, edge.head < b.nodes.length

theorem Ascending.id_lt {b : Builder ε σ} (h : b.Ascending) {node : Node ε σ}
    (hnode : node ∈ b.nodes) :
    node.id < b.nodes.length := by
  obtain ⟨i, hi⟩ := List.getElem?_of_mem hnode
  rw [h.id_eq i node hi]
  exact (List.getElem?_eq_some_iff.mp hi).1

theorem ascending_new (mode : Mode) : (Builder.new mode : Builder ε σ).Ascending where
  id_eq := by simp [new]
  tail_lt := by simp [new]
  head_lt := by simp [new]

theorem Ascending.place {b : Builder ε σ} (h : b.Ascending) {p : Placement ε σ}
    (hp : p.Below b.nodes.length) : (b.place p).Ascending where
  id_eq := by
    intro i node hnode
    rw [nodes_place, List.getElem?_append] at hnode
    split_ifs at hnode with hi
    · exact h.id_eq i node hnode
    · obtain ⟨hlt, rfl⟩ := List.getElem?_eq_some_iff.mp hnode
      rw [List.length_singleton] at hlt
      have hlast : b.nodes.length = i := by omega
      rw [List.getElem_singleton]
      exact hlast
  tail_lt := by
    intro edge hedge
    rw [edges_place] at hedge
    rcases List.mem_append.mp hedge with hedge | hedge
    · rcases List.mem_append.mp hedge with hedge | hedge
      · exact h.tail_lt edge hedge
      · obtain ⟨trainer, htrainer, -, -, rfl⟩ := mem_stateEdges hedge
        exact h.id_lt htrainer
    · obtain ⟨port, hport, htail⟩ := tail_of_mem_wires hedge
      rw [htail, head_of_mem_wires hedge]
      exact hp port hport
  head_lt := head_lt_of_place h.head_lt p

theorem Ascending.placeAll {b : Builder ε σ} (h : b.Ascending) {ps : List (Placement ε σ)}
    (hps : Placement.Grounded b.nodes.length ps) : (b.placeAll ps).Ascending := by
  induction ps generalizing b with
  | nil => exact h
  | cons p ps ih =>
    refine ih (h.place (hps 0 p rfl)) fun k q hq ↦ ?_
    have hbelow := hps (k + 1) q (by simpa using hq)
    rwa [length_nodes_place, Nat.add_assoc, Nat.add_comm 1 k]

end Builder

namespace Build

/-! ### Adding a node and binding its inputs -/

/-- Binding ports adds their data edges, and succeeds only if the node declares enough inputs. -/
theorem run_connectFrom_ok {head : NodeId} {ports : List PortRef} {input : Nat}
    {b last : Builder ε σ} {u : Unit} (h : run (connectFrom head ports input) b = (.ok u, last)) :
    last = { b with edges := b.edges ++ wires head input ports } ∧
      ∀ target, b.nodes[head]? = some target → input ≤ target.arity.inputs →
        input + ports.length ≤ target.arity.inputs := by
  induction ports generalizing input b with
  | nil =>
    rw [connectFrom, run_pure] at h
    rw [wires, List.append_nil]
    exact ⟨(Prod.mk.inj h).2.symm, fun target _ hinput ↦ hinput⟩
  | cons port rest ih =>
    rw [connectFrom, run_bind_ok] at h
    obtain ⟨_, middle, hport, hrest⟩ := h
    obtain ⟨⟨declared, hdeclared, hlt⟩, -, -, rfl⟩ :=
      Builder.connect_eq_ok.mp (run_attempt_ok.mp hport)
    obtain ⟨rfl, hfits⟩ := ih hrest
    refine ⟨?_, fun target htarget _ ↦ ?_⟩
    · rw [wires, List.append_assoc, List.singleton_append]
    · obtain rfl : declared = target := Option.some.inj (hdeclared.symm.trans htarget)
      have hle := hfits declared htarget hlt
      rw [List.length_cons]
      omega

/-- Binding ports to the leading inputs of the node just added completes a placement. -/
theorem run_connectAll_ok {p : Placement ε σ} {b last : Builder ε σ} {u : Unit}
    (h : run (connectAll p.inputs b.nodes.length) (b.addNode p.kind p.spec p.group) =
      (.ok u, last)) :
    last = b.place p ∧ p.Fits := by
  obtain ⟨hlast, hfits⟩ := run_connectFrom_ok h
  refine ⟨hlast, ?_⟩
  have hadded : (b.addNode p.kind p.spec p.group).nodes[b.nodes.length]? =
      some (p.node b.nodes.length) := List.getElem?_concat_length
  rw [Placement.Fits, ← Nat.zero_add p.inputs.length]
  exact hfits _ hadded (Nat.zero_le _)

theorem connectFrom_append (head : NodeId) (front back : List PortRef) (input : Nat) :
    (connectFrom head (front ++ back) input : Build ε σ Unit) =
      connectFrom head front input >>= fun _ ↦ connectFrom head back (input + front.length) := by
  induction front generalizing input with
  | nil => rfl
  | cons port rest ih =>
    rw [List.cons_append, connectFrom, connectFrom, ih, bind_assoc, List.length_cons, Nat.add_assoc,
      Nat.add_comm 1]

/-- Binding ports to the leading inputs of the node just added and one more port to the next input
completes a placement. -/
theorem run_connect_last_ok {p : Placement ε σ} {ports : List PortRef} {port : PortRef}
    {input : Nat} (hinputs : p.inputs = ports ++ [port]) (hinput : ports.length = input)
    {b middle last : Builder ε σ} {u v : Unit}
    (h : run (connectAll ports b.nodes.length) (b.addNode p.kind p.spec p.group) = (.ok u, middle))
    (h' : run (connect port b.nodes.length input) middle = (.ok v, last)) :
    last = b.place p ∧ p.Fits := by
  refine run_connectAll_ok (u := ()) ?_
  rw [hinputs, connectAll, connectFrom_append, run_bind_ok]
  refine ⟨u, middle, h, ?_⟩
  rw [Nat.zero_add, hinput, connectFrom, run_bind_ok]
  exact ⟨v, last, h', rfl⟩

end Build

end Dataflow
