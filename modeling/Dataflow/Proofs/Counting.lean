import Dataflow.Graph.Tabled
import Dataflow.Proofs.Ordering
import Mathlib.Logic.Function.Basic

/-!
# Ordering by counting

Nodes that are ordered by counting down the arcs into them (`Tabled.orderNodes`) come in the order
in which free nodes are placed. What connects the two is that, at each turn of the loop, a counter
tells how many of the remaining arcs enter its node, and the queue holds the free ones among the
nodes that wait (`Tabled.release_eq`, `Tabled.placeReady_eq`). So no counter is taken below zero,
however many arcs run in parallel, and the loop ends with no node in the queue.
-/

set_option autoImplicit false
set_option relaxedAutoImplicit false

namespace Dataflow

/-! ### Failures without a crash -/

namespace Halt

variable {δ α β : Type}

@[simp] theorem lift_eq_ok {result : Except δ α} {a : α} : lift result = .ok a ↔ result = .ok a := by
  cases result <;> simp [lift]

theorem lift_eq_error {result : Except δ α} {halt : Halt δ} :
    lift result = .error halt ↔ ∃ e, result = .error e ∧ halt = .error e := by
  cases result <;> simp [lift, eq_comm]

end Halt

namespace Tabled

variable {ε σ α : Type} {count : Nat} {node : NodeId}

/-! ### Tables -/

/-- The table of a function on nodes. -/
def tabulate (count : Nat) (f : NodeId → α) : List α :=
  (List.range count).map f

@[simp] theorem length_tabulate (f : NodeId → α) : (tabulate count f).length = count := by
  simp [tabulate]

theorem getElem?_tabulate (f : NodeId → α) (h : node < count) :
    (tabulate count f)[node]? = some (f node) := by
  simp [tabulate, h]

theorem entry_tabulate (f : NodeId → α) (h : node < count) :
    entry (tabulate count f) node = .ok (f node) := by
  rw [entry, getElem?_tabulate f h]

theorem set_tabulate (f : NodeId → α) (node : NodeId) (a : α) :
    (tabulate count f).set node a = tabulate count (Function.update f node a) := by
  refine List.ext_getElem? fun id ↦ ?_
  rw [List.getElem?_set, length_tabulate]
  by_cases hid : id < count
  · by_cases hnode : node = id
    · subst hnode
      rw [if_pos rfl, if_pos hid, getElem?_tabulate _ hid, Function.update_self]
    · rw [if_neg hnode, getElem?_tabulate _ hid, getElem?_tabulate _ hid,
        Function.update_of_ne (Ne.symm hnode)]
  · have hout : ∀ f : NodeId → α, (tabulate count f)[id]? = none := fun f ↦
      List.getElem?_eq_none (by simpa using hid)
    rw [hout, hout]
    split_ifs with hnode hlt
    · exact absurd (hnode ▸ hlt) hid
    · rfl
    · rfl

theorem change_tabulate (f : NodeId → α) (h : node < count) (g : α → α) :
    change (tabulate count f) node g = .ok (tabulate count (Function.update f node (g (f node)))) := by
  rw [change, entry_tabulate f h, ← set_tabulate]
  rfl

theorem tabulate_congr {f g : NodeId → α} (h : ∀ id < count, f id = g id) :
    tabulate count f = tabulate count g :=
  List.map_congr_left fun id hid ↦ h id (List.mem_range.mp hid)

theorem replicate_eq_tabulate (a : α) : List.replicate count a = tabulate count fun _ ↦ a := by
  simp [tabulate]

/-! ### What the tables hold -/

/-- How many arcs enter a node. -/
def degree (arcs : List Arc) (node : NodeId) : Nat :=
  arcs.countP (·.2 == node)

/-- Where the arcs lead that leave a node. -/
def heads (arcs : List Arc) (node : NodeId) : List NodeId :=
  (arcs.filter (·.1 == node)).map Prod.snd

theorem enterArcs_eq {arcs : List Arc} (h : ∀ arc ∈ arcs, arc.1 < count ∧ arc.2 < count)
    (degrees : NodeId → Nat) (successors : NodeId → List NodeId) :
    enterArcs arcs ⟨tabulate count degrees, tabulate count successors⟩ =
      .ok ⟨tabulate count fun id ↦ degrees id + degree arcs id,
        tabulate count fun id ↦ successors id ++ heads arcs id⟩ := by
  induction arcs generalizing degrees successors with
  | nil => simp [enterArcs, degree, heads]
  | cons arc rest ih =>
    obtain ⟨⟨htail, hhead⟩, hrest⟩ := List.forall_mem_cons.mp h
    obtain ⟨tail, head⟩ := arc
    rw [enterArcs, change_tabulate degrees hhead, change_tabulate successors htail]
    refine (ih hrest _ _).trans (congrArg Except.ok (congrArg₂ ArcTables.mk ?_ ?_))
    · refine tabulate_congr fun id _ ↦ ?_
      by_cases hid : id = head
      · subst hid
        simp only [Function.update_self, degree, List.countP_cons, beq_self_eq_true, if_true]
        omega
      · simp [Function.update_of_ne hid, degree, Ne.symm hid]
    · refine tabulate_congr fun id _ ↦ ?_
      by_cases hid : id = tail
      · subst hid
        simp [heads]
      · simp [Function.update_of_ne hid, heads, Ne.symm hid]

theorem isFree_eq_degree (arcs : List Arc) (node : NodeId) :
    isFree arcs node = decide (degree arcs node = 0) := by
  rw [Bool.eq_iff_iff, decide_eq_true_eq, degree, List.countP_eq_zero]
  simp [isFree]

/-! ### Taking arcs away -/

theorem enqueue_of_forall_lt {ready : List NodeId} (h : ∀ other ∈ ready, node < other) :
    enqueue node ready = node :: ready := by
  cases ready with
  | nil => rfl
  | cons first rest => rw [enqueue, if_pos (h first List.mem_cons_self)]

/-- A node that becomes free is put where it stands among the free ones. -/
theorem enqueue_filter {waiting : List NodeId} {before after : NodeId → Bool}
    (hsorted : waiting.Pairwise (· < ·)) (hmem : node ∈ waiting) (hbefore : before node = false)
    (hafter : after node = true) (hsame : ∀ other, other ≠ node → after other = before other) :
    enqueue node (waiting.filter before) = waiting.filter after := by
  induction waiting with
  | nil => cases hmem
  | cons first rest ih =>
    obtain ⟨hfirst, hrest⟩ := List.pairwise_cons.mp hsorted
    rcases List.mem_cons.mp hmem with rfl | hmem
    · have hkept : rest.filter after = rest.filter before :=
        List.filter_congr fun other hother ↦ hsame other (Nat.ne_of_gt (hfirst other hother))
      rw [List.filter_cons_of_neg (by rw [hbefore]; exact Bool.false_ne_true),
        List.filter_cons_of_pos hafter, hkept]
      exact enqueue_of_forall_lt fun other hother ↦ hfirst other (List.mem_filter.mp hother).1
    · have hlt := hfirst node hmem
      rw [List.filter_cons, List.filter_cons, hsame first (Nat.ne_of_lt hlt)]
      split_ifs
      · rw [enqueue, if_neg (Nat.lt_asymm hlt), ih hrest hmem]
      · exact ih hrest hmem

/-- Where counters tell how often nodes are named, besides other counts, taking one from the counter
of the first node leaves how often the others are named. -/
theorem set_tabulate_count (first : NodeId) (rest : List NodeId) (others : NodeId → Nat) :
    (tabulate count fun id ↦ (first :: rest).count id + others id).set first
        (rest.count first + others first) =
      tabulate count fun id ↦ rest.count id + others id := by
  rw [set_tabulate]
  refine tabulate_congr fun id _ ↦ ?_
  by_cases hid : id = first
  · rw [hid, Function.update_self]
  · rw [Function.update_of_ne hid, List.count_cons_of_ne (Ne.symm hid)]

/-- Taking away arcs that lead to waiting nodes leaves the counters at the number of other arcs, and
the queue with the nodes that no other arc enters. -/
theorem release_eq {waiting : List NodeId} (hsorted : waiting.Pairwise (· < ·))
    (hlt : ∀ id ∈ waiting, id < count) (others : NodeId → Nat) {heads : List NodeId}
    (hheads : ∀ head ∈ heads, head ∈ waiting) :
    release heads (tabulate count fun id ↦ heads.count id + others id)
        (waiting.filter fun id ↦ heads.count id + others id = 0) =
      .ok (tabulate count others, waiting.filter fun id ↦ others id = 0) := by
  induction heads with
  | nil => simp [release]
  | cons head rest ih =>
    obtain ⟨hhead, hrest⟩ := List.forall_mem_cons.mp hheads
    have hcount : (head :: rest).count head + others head = rest.count head + others head + 1 := by
      rw [List.count_cons_self]
      omega
    have hother : ∀ id, id ≠ head → (head :: rest).count id = rest.count id := fun id hid ↦
      List.count_cons_of_ne (Ne.symm hid)
    rw [release, entry_tabulate _ (hlt head hhead), hcount]
    refine Eq.trans ?_ (ih hrest)
    change release rest _ _ = _
    rw [set_tabulate_count]
    congr 1
    split_ifs with hzero
    · refine enqueue_filter hsorted hhead ?_ ?_ fun id hid ↦ ?_
      · rw [decide_eq_false_iff_not, hcount]
        exact Nat.succ_ne_zero _
      · rw [decide_eq_true_eq, hzero]
      · rw [hother id hid]
    · refine List.filter_congr fun id _ ↦ ?_
      by_cases hid : id = head
      · rw [hid, hcount, decide_eq_false hzero, decide_eq_false (Nat.succ_ne_zero _)]
      · rw [hother id hid]

/-! ### The loop -/

/-- Nodes that wait, in increasing order, and the arcs between them, which the table of successors
knows. -/
structure Queued (count : Nat) (successors : List (List NodeId)) (waiting : List NodeId)
    (arcs : List Arc) : Prop where
  sorted : waiting.Pairwise (· < ·)
  lt : ∀ id ∈ waiting, id < count
  joins : ∀ arc ∈ arcs, arc.1 ∈ waiting ∧ arc.2 ∈ waiting
  known : ∀ id ∈ waiting, successors[id]? = some (heads arcs id)

variable {successors : List (List NodeId)} {waiting : List NodeId} {arcs : List Arc}

/-- No arc enters a free node, so it can be taken away with the arcs that leave it. -/
theorem Queued.place (h : Queued count successors waiting arcs)
    (hfree : isFree arcs node = true) :
    Queued count successors (waiting.erase node) (arcs.filter (·.1 != node)) where
  sorted := h.sorted.sublist List.erase_sublist
  lt id hid := h.lt id (List.mem_of_mem_erase hid)
  joins arc harc := by
    obtain ⟨harc, htail⟩ := List.mem_filter.mp harc
    have hhead := List.all_eq_true.mp hfree arc harc
    exact ⟨(List.mem_erase_of_ne (bne_iff_ne.mp htail)).mpr (h.joins arc harc).1,
      (List.mem_erase_of_ne (bne_iff_ne.mp hhead)).mpr (h.joins arc harc).2⟩
  known id hid := by
    have hdistinct : waiting.Nodup := h.sorted.imp Nat.ne_of_lt
    obtain ⟨hne, hid⟩ := hdistinct.mem_erase_iff.mp hid
    rw [h.known id hid, heads, heads, List.filter_filter]
    refine congrArg _ (congrArg _ (List.filter_congr fun arc _ ↦ ?_))
    by_cases harc : arc.1 = id
    · simp [harc, hne]
    · simp [harc]

/-- The arcs into a node are those that leave a node and the others. -/
theorem degree_eq_count_add (arcs : List Arc) (node id : NodeId) :
    degree arcs id = (heads arcs node).count id + degree (arcs.filter (·.1 != node)) id := by
  rw [degree, List.countP_eq_countP_filter_add arcs _ (·.1 == node), heads, List.count,
    List.countP_map]
  rfl

/-- If no node is free, the counters above zero are those of the nodes that wait. -/
theorem Queued.degree_pos_iff (h : Queued count successors waiting arcs)
    (hbusy : waiting.filter (isFree arcs) = []) (id : NodeId) :
    0 < degree arcs id ↔ id ∈ waiting := by
  constructor
  · intro hpos
    obtain ⟨arc, harc, hhead⟩ := List.countP_pos_iff.mp hpos
    rw [← beq_iff_eq.mp hhead]
    exact (h.joins arc harc).2
  · intro hid
    have hnot := List.filter_eq_nil_iff.mp hbusy id hid
    rw [isFree_eq_degree, decide_eq_true_eq] at hnot
    exact Nat.pos_of_ne_zero hnot

/-- Taking away the arcs that leave the first free node leaves the counters and the queue right for
the others. -/
theorem Queued.release_heads (h : Queued count successors waiting arcs) {ready : List NodeId}
    (hready : waiting.filter (isFree arcs) = node :: ready) :
    release (heads arcs node) (tabulate count (degree arcs)) ready =
      .ok (tabulate count (degree (arcs.filter (·.1 != node))),
        (waiting.erase node).filter (isFree (arcs.filter (·.1 != node)))) := by
  have hfree : isFree arcs node = true :=
    (List.mem_filter.mp (hready ▸ List.mem_cons_self : node ∈ waiting.filter (isFree arcs))).2
  have hplaced := h.place hfree
  have hdegree : degree arcs = fun id ↦
      (heads arcs node).count id + degree (arcs.filter (·.1 != node)) id :=
    funext fun id ↦ degree_eq_count_add arcs node id
  have hrest : ready = (waiting.erase node).filter fun id ↦
      (heads arcs node).count id + degree (arcs.filter (·.1 != node)) id = 0 := by
    have hready := congrArg (List.erase · node) hready
    rw [List.erase_cons_head, List.erase_filter] at hready
    rw [← hready]
    exact List.filter_congr fun id _ ↦ by rw [isFree_eq_degree, hdegree]
  have hleads : ∀ head ∈ heads arcs node, head ∈ waiting.erase node := by
    intro head hhead
    obtain ⟨arc, harc, rfl⟩ := List.mem_map.mp hhead
    have harc := (List.mem_filter.mp harc).1
    have hother := List.all_eq_true.mp hfree arc harc
    exact (List.mem_erase_of_ne (bne_iff_ne.mp hother)).mpr (h.joins arc harc).2
  have hqueue : (waiting.erase node).filter (isFree (arcs.filter (·.1 != node))) =
      (waiting.erase node).filter fun id ↦ degree (arcs.filter (·.1 != node)) id = 0 :=
    List.filter_congr fun id _ ↦ isFree_eq_degree _ id
  rw [hdegree, hrest, hqueue]
  exact release_eq hplaced.sorted hplaced.lt _ hleads

/-- The loop places the nodes that are placed one free node after the other, and leaves the counters
of just the others above zero. -/
theorem placeReady_eq {fuel : Nat} (h : Queued count successors waiting arcs)
    (hfuel : waiting.length ≤ fuel) :
    ∃ left : NodeId → Nat,
      placeReady successors fuel (tabulate count (degree arcs)) (waiting.filter (isFree arcs)) =
        .ok ((placeFree fuel waiting arcs).1, tabulate count left) ∧
      ∀ id, 0 < left id ↔ id ∈ (placeFree fuel waiting arcs).2 := by
  induction fuel generalizing waiting arcs with
  | zero =>
    obtain rfl := List.eq_nil_of_length_eq_zero (Nat.le_zero.mp hfuel)
    exact ⟨degree arcs, rfl, h.degree_pos_iff rfl⟩
  | succ fuel ih =>
    rw [placeFree, ← List.head?_filter]
    rcases hready : waiting.filter (isFree arcs) with _ | ⟨next, ready⟩
    · exact ⟨degree arcs, rfl, h.degree_pos_iff hready⟩
    · have hnext : next ∈ waiting.filter (isFree arcs) := by
        rw [hready]
        exact List.mem_cons_self
      obtain ⟨hmem, hfree⟩ := List.mem_filter.mp hnext
      have hlength : (waiting.erase next).length ≤ fuel := by
        rw [List.length_erase_of_mem hmem]
        omega
      obtain ⟨left, hrun, hleft⟩ := ih (h.place hfree) hlength
      refine ⟨left, ?_, hleft⟩
      rw [placeReady, entry, h.known next hmem]
      change ((release (heads arcs next) _ _).bind _ : Except _ _) = _
      rw [h.release_heads hready]
      change ((placeReady successors fuel _ _).bind _ : Except _ _) = _
      rw [hrun]
      rfl

/-! ### Nodes left over -/

theorem blocked_eq {nodes : List (Node ε σ)} (left : NodeId → Nat)
    (h : ∀ node ∈ nodes, node.id < count) :
    blocked (tabulate count left) nodes = .ok (nodes.filter fun node ↦ 0 < left node.id) := by
  induction nodes with
  | nil => rfl
  | cons node rest ih =>
    obtain ⟨hnode, hrest⟩ := List.forall_mem_cons.mp h
    rw [blocked, entry_tabulate left hnode, ih hrest, List.filter_cons]
    by_cases hleft : 0 < left node.id
    all_goals simp [hleft, bind, Except.bind, pure, Except.pure]

/-! ### Both orders -/

variable {nodes : List (Node ε σ)} {edges : List Edge}

/-- The arcs along edges between nodes that exist. -/
theorem queued_range {arcs : List Arc} (h : ∀ arc ∈ arcs, arc.1 < count ∧ arc.2 < count) :
    Queued count (tabulate count (heads arcs)) (List.range count) arcs where
  sorted := List.pairwise_lt_range
  lt _ hid := List.mem_range.mp hid
  joins arc harc := ⟨List.mem_range.mpr (h arc harc).1, List.mem_range.mpr (h arc harc).2⟩
  known _ hid := getElem?_tabulate _ (List.mem_range.mp hid)

/-- Counters that are above zero for the nodes that are not placed pick out just these. -/
theorem filter_left_eq (hids : ∀ (k : Nat) (node : Node ε σ), nodes[k]? = some node → node.id = k)
    (htails : ∀ edge ∈ edges, edge.tail < nodes.length) {left : NodeId → Nat}
    (hleft : ∀ id, 0 < left id ↔ id ∈ (topologicalSort nodes.length (edges.map Edge.arc)).2) :
    nodes.filter (fun node ↦ 0 < left node.id) =
      (topologicalSort nodes.length (edges.map Edge.arc)).2.filterMap (nodes[·]?) := by
  classical
  have harcs : ∀ arc ∈ edges.map Edge.arc, arc.1 < nodes.length := List.forall_mem_map.mpr htails
  rw [← filter_trapped hids htails]
  refine List.filter_congr fun node hnode ↦ ?_
  have hsnd := topologicalSort_snd harcs
  obtain ⟨k, hk⟩ := List.getElem?_of_mem hnode
  obtain rfl := hids k node hk
  rw [decide_eq_decide, hleft, hsnd, List.mem_filter, decide_eq_true_eq]
  exact and_iff_right (List.mem_range.mpr (List.getElem?_eq_some_iff.mp hk).1)

/-- The nodes are ordered by counting as they are by placing free nodes, without a crash. -/
theorem orderNodes_eq_lift (hids : ∀ (k : Nat) (node : Node ε σ), nodes[k]? = some node → node.id = k)
    (hedges : ∀ edge ∈ edges, edge.tail < nodes.length ∧ edge.head < nodes.length) :
    orderNodes nodes edges = Halt.lift (Dataflow.orderNodes nodes edges) := by
  have harcs : ∀ arc ∈ edges.map Edge.arc, arc.1 < nodes.length ∧ arc.2 < nodes.length :=
    List.forall_mem_map.mpr hedges
  have hlt : ∀ node ∈ nodes, node.id < nodes.length := by
    intro node hnode
    obtain ⟨k, hk⟩ := List.getElem?_of_mem hnode
    rw [hids k node hk]
    exact (List.getElem?_eq_some_iff.mp hk).1
  have htables := enterArcs_eq harcs (fun _ ↦ 0) fun _ ↦ []
  simp only [Nat.zero_add, List.nil_append, ← replicate_eq_tabulate] at htables
  have hready : (List.range nodes.length).filter (fun node ↦
      (tabulate nodes.length (degree (edges.map Edge.arc)))[node]? = some 0) =
        (List.range nodes.length).filter (isFree (edges.map Edge.arc)) := by
    refine List.filter_congr fun id hid ↦ ?_
    rw [getElem?_tabulate _ (List.mem_range.mp hid), isFree_eq_degree]
    simp
  obtain ⟨left, hrun, hleft⟩ := placeReady_eq (queued_range harcs)
    (Nat.le_of_eq List.length_range)
  have hlength := (perm_placeFree nodes.length (List.range nodes.length)
    (edges.map Edge.arc)).length_eq
  rw [List.length_append, List.length_range] at hlength
  have hstuck := filter_left_eq hids (fun edge hedge ↦ (hedges edge hedge).1) hleft
  rw [orderNodes, htables]
  simp only [bind, Except.bind, hready, hrun, blocked_eq left hlt, hstuck]
  rw [Dataflow.orderNodes, topologicalSort]
  rcases hsort : placeFree nodes.length (List.range nodes.length) (edges.map Edge.arc) with
    ⟨placed, _ | ⟨first, rest⟩⟩
  · rw [hsort, List.length_nil, Nat.add_zero] at hlength
    rw [if_neg (Nat.not_lt.mpr (Nat.le_of_eq hlength.symm))]
    rfl
  · rw [hsort, List.length_cons] at hlength
    rw [if_pos (by omega)]
    rfl

/-- Ordering by counting is exact. It never crashes, and comes out as placing free nodes does. It
succeeds just if there is no cycle. Then the order holds every node once and the tail of every edge
before its head, and any other such order comes later lexicographically. Otherwise the nodes on a
cycle or behind one are named, by increasing number. -/
theorem orderNodes_exact (hids : ∀ (k : Nat) (node : Node ε σ), nodes[k]? = some node → node.id = k)
    (hedges : ∀ edge ∈ edges, edge.tail < nodes.length ∧ edge.head < nodes.length) :
    orderNodes nodes edges = Halt.lift (Dataflow.orderNodes nodes edges) ∧
    ((∃ order, orderNodes nodes edges = .ok order) ↔
      ∀ id, ¬ Arc.Path (edges.map Edge.arc) id id) ∧
    (∀ order, orderNodes nodes edges = .ok order → Orders nodes.length edges order ∧
      ∀ other, Orders nodes.length edges other → other ≠ order →
        List.Lex (· < ·) order other) ∧
    (∀ halt, orderNodes nodes edges = .error halt → ∃ stuck : List (Node ε σ),
      halt = .error (.cyclicGraph (stuck.map Node.label)) ∧ stuck.Pairwise (·.id < ·.id) ∧
      ∀ node, node ∈ stuck ↔ node ∈ nodes ∧ Arc.Trapped (edges.map Edge.arc) node.id) := by
  have htails : ∀ edge ∈ edges, edge.tail < nodes.length := fun edge hedge ↦ (hedges edge hedge).1
  have hlift := orderNodes_eq_lift hids hedges
  refine ⟨hlift, ?_, fun order horder ↦ ?_, fun halt hhalt ↦ ?_⟩
  · rw [← exists_order_iff hids htails, hlift]
    exact exists_congr fun order ↦ Halt.lift_eq_ok
  · rw [hlift, Halt.lift_eq_ok] at horder
    have hsort := topologicalSort_of_orderNodes horder
    exact ⟨orders_of_topologicalSort hsort, fun other hother hne ↦ hother.lex hsort hne⟩
  · rw [hlift] at hhalt
    obtain ⟨e, he, rfl⟩ := Halt.lift_eq_error.mp hhalt
    obtain ⟨stuck, rfl, hstuck⟩ := orderNodes_eq_error hids htails he
    exact ⟨stuck, rfl, hstuck⟩

/-- Parallel edges do no harm. An edge from a node to itself or one back leaves all nodes over that
it stops, here all but the last. -/
theorem orderNodes_exact_knotted :
    let nodes : List (Node Unit Unit) :=
      (List.range 5).map fun id ↦ ⟨id, .applier, Builtin.collector, none, ⟨2, 2⟩⟩
    let straight : List Edge := [.state 2 0, .data ⟨2, 0⟩ 1 0, .data ⟨2, 1⟩ 1 1, .state 4 3]
    let knotted := straight ++ [.state 0 2, .data ⟨3, 0⟩ 3 0]
    let named := ["n0:collector", "n1:collector", "n2:collector", "n3:collector"]
    (orderNodes nodes straight = .ok [2, 0, 1, 4, 3] ∧ Orders 5 straight [2, 0, 1, 4, 3] ∧
      ∀ other, Orders 5 straight other → other ≠ [2, 0, 1, 4, 3] →
        List.Lex (· < ·) [2, 0, 1, 4, 3] other) ∧
    (orderNodes nodes knotted = .error (.error (.cyclicGraph named)) ∧
      ∃ stuck : List (Node Unit Unit), stuck.map Node.label = named ∧
        ∀ node, node ∈ stuck ↔ node ∈ nodes ∧ Arc.Trapped (knotted.map Edge.arc) node.id) := by
  intro nodes straight knotted named
  have hids : ∀ (k : Nat) (node : Node Unit Unit), nodes[k]? = some node → node.id = k := by
    intro k node hnode
    simp only [nodes, List.getElem?_map, Option.map_eq_some_iff] at hnode
    obtain ⟨id, hid, rfl⟩ := hnode
    exact (List.getElem?_eq_some_iff.mp hid).2.symm.trans (List.getElem_range _)
  have hstraight : orderNodes nodes straight = .ok [2, 0, 1, 4, 3] := by decide
  have hknotted : orderNodes nodes knotted = .error (.error (.cyclicGraph named)) := by
    decide +kernel
  have hends : ∀ edge ∈ knotted, edge.tail < nodes.length ∧ edge.head < nodes.length := by decide
  have hfirst : ∀ edge ∈ straight, edge.tail < nodes.length ∧ edge.head < nodes.length :=
    fun edge hedge ↦ hends edge (List.mem_append_left _ hedge)
  obtain ⟨-, -, horders, -⟩ := orderNodes_exact hids hfirst
  obtain ⟨-, -, -, hnamed⟩ := orderNodes_exact hids hends
  obtain ⟨stuck, heq, -, hstuck⟩ := hnamed _ hknotted
  refine ⟨⟨hstraight, horders _ hstraight⟩, hknotted, stuck, ?_, hstuck⟩
  exact (FlowError.cyclicGraph.inj (Halt.error.inj heq)).symm

end Tabled

end Dataflow
