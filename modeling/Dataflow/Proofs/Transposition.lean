import Dataflow.Proofs.Scheduling
import Dataflow.Proofs.Tabulation
import Mathlib.Data.List.Sort

/-!
# Tasks and the edges of a graph

The tasks of a graph say of each node what the edges say (`TaskGraph.Represents`), and no other tasks
do (`TaskGraph.Represents.unique`). How many edges join the same two nodes makes no difference. A
node depends on the other once, and therefore stands once among its dependents, so among the
dependents of all nodes it stands once for each node that it depends on
(`Graph.count_flatMap_dependents`).

Hence counters that start at the number of dependencies come out even. While distinct tasks
complete, in whatever order, no counter is taken below zero, and each tells how many dependencies
are missing (`Tabled.countCompleted_pendingCounts`). The distributed runner keeps the same counters
(`Distributed.Tallied.countCompleted_eq`).

Compiling with the tables that a graph is frozen with gives these tasks and never crashes
(`Tabled.compile_tablesOf`).
-/

set_option autoImplicit false
set_option relaxedAutoImplicit false

namespace Dataflow

variable {ε σ : Type} {g : Graph ε σ} {count : Nat}

/-! ### Dependencies and dependents -/

namespace Graph

variable {id : NodeId}

/-- A node stands among the dependents of some nodes once for each of them that it depends on. -/
theorem count_flatMap_dependents (hid : id < g.nodes.length) (ids : List NodeId) :
    (ids.flatMap g.dependents).count id = ids.countP (· ∈ g.dependencies id) := by
  induction ids with
  | nil => rfl
  | cons first rest ih =>
    rw [List.flatMap_cons, List.count_append, ih, (g.nodup_dependents first).count,
      List.countP_cons, Nat.add_comm]
    simp only [mem_dependents, hid, true_and, decide_eq_true_eq]

namespace Valid

/-- Of all nodes, a node depends on its dependencies. -/
theorem filter_mem_dependencies (h : g.Valid) (id : NodeId) :
    (List.range g.nodes.length).filter (· ∈ g.dependencies id) = g.dependencies id := by
  refine (List.pairwise_lt_range.filter _).eq_of_mem_iff (g.pairwise_dependencies id) fun other ↦ ?_
  rw [List.mem_filter, List.mem_range, decide_eq_true_eq]
  exact and_iff_right_of_imp h.lt_of_mem_dependencies

theorem mem_dependencyPairs (h : g.Valid) {arc : Arc} :
    arc ∈ g.dependencyPairs ↔ arc ∈ g.edges.map Edge.arc := by
  obtain ⟨tail, head⟩ := arc
  rw [dependencyPairs, List.mem_flatMap, List.mem_map]
  constructor
  · rintro ⟨node, -, hpair⟩
    obtain ⟨other, hother, heq⟩ := List.mem_map.mp hpair
    obtain ⟨edge, hedge, hhead, rfl⟩ := mem_dependencies.mp hother
    refine ⟨edge, hedge, ?_⟩
    rw [← heq, ← hhead, Edge.arc]
  · rintro ⟨edge, hedge, heq⟩
    have hhead := h.linked.head_lt edge hedge
    have hid := h.linked.id_eq edge.head _ (List.getElem?_eq_getElem hhead)
    refine ⟨g.nodes[edge.head], List.getElem_mem hhead, List.mem_map.mpr ⟨edge.tail, ?_, ?_⟩⟩
    · exact mem_dependencies.mpr ⟨edge, hedge, hid.symm, rfl⟩
    · rw [hid, ← heq, Edge.arc]

theorem nodup_dependencyPairs (h : g.Valid) : g.dependencyPairs.Nodup := by
  have hids : (g.nodes.map Node.id).Nodup := h.linked.map_id ▸ List.nodup_range
  -- pairs of one node differ in the dependency, pairs of two nodes in the node
  refine List.nodup_flatMap.mpr ⟨fun node _ ↦ ?_, (List.pairwise_map.mp hids).imp ?_⟩
  · exact (g.nodup_dependencies node.id).map fun _ _ heq ↦ congrArg Prod.fst heq
  · intro node other hne pair hpair hpair'
    obtain ⟨_, -, rfl⟩ := List.mem_map.mp hpair
    obtain ⟨_, -, heq⟩ := List.mem_map.mp hpair'
    exact hne (congrArg Prod.snd heq).symm

/-- No dependency is missing when all nodes have run. -/
theorem missing_eq_zero_of_perm (h : g.Valid) {all : List NodeId}
    (hall : all.Perm (List.range g.nodes.length)) (id : NodeId) : g.missing all id = 0 :=
  missing_eq_zero.mpr fun _ hother ↦
    hall.mem_iff.mpr (List.mem_range.mpr (h.lt_of_mem_dependencies hother))

end Valid

/-- The task of a node. -/
def task (g : Graph ε σ) (id : NodeId) : Task :=
  ⟨id, g.order.idxOf id, g.dependencies id, g.dependents id⟩

end Graph

/-! ### What tasks say of a graph -/

/-- Tasks represent a graph if they say of each node just what the edges say. -/
structure TaskGraph.Represents (tasks : TaskGraph) (g : Graph ε σ) : Prop where
  /-- There is one task for each node, by increasing number. -/
  nodes : tasks.map Task.node = List.range g.nodes.length
  dependencies_increasing : ∀ task ∈ tasks, task.dependencies.Pairwise (· < ·)
  /-- A task depends on the tails of the edges into its node. -/
  mem_dependencies : ∀ task ∈ tasks, ∀ id,
    id ∈ task.dependencies ↔ ∃ edge ∈ g.edges, edge.head = task.node ∧ edge.tail = id
  dependents_increasing : ∀ task ∈ tasks, task.dependents.Pairwise (· < ·)
  /-- The dependents are the dependencies seen from the other end. -/
  mem_dependents : ∀ task ∈ tasks, ∀ id,
    id ∈ task.dependents ↔ ∃ other ∈ tasks, other.node = id ∧ task.node ∈ other.dependencies
  /-- A counter starts at the number of times that one will be taken from it. -/
  pendingCounts : tasks.pendingCounts =
    tasks.map fun task ↦ (tasks.flatMap Task.dependents).count task.node
  order : g.order.Perm (List.range g.nodes.length)
  /-- The ranks, by node, are the inverse of the order. -/
  ranks : ∀ (position : Nat) (id : NodeId),
    (tasks.map Task.rank)[id]? = some position ↔ g.order[position]? = some id
  /-- What a task depends on is a task of lower rank. -/
  dependency : ∀ task ∈ tasks, ∀ id ∈ task.dependencies,
    ∃ other ∈ tasks, other.node = id ∧ task.node ∈ other.dependents ∧ other.rank < task.rank
  /-- Each pair of a dependency and its task comes from an edge, and each edge gives one. -/
  dependencyPairs : tasks.dependencyPairs.toFinset = (g.edges.map Edge.arc).toFinset
  nodup_dependencyPairs : tasks.dependencyPairs.Nodup

namespace TaskGraph

variable {tasks tasks' : TaskGraph}

theorem compile_eq (hg : g.Valid) : compile g = (List.range g.nodes.length).map g.task := by
  refine List.ext_getElem? fun k ↦ ?_
  by_cases hk : k < g.nodes.length
  · rw [getElem?_compile hg hk, List.getElem?_map, List.getElem?_range hk]
    rfl
  · rw [List.getElem?_eq_none (by rw [length_compile]; omega),
      List.getElem?_eq_none (by simp; omega)]

theorem mem_compile (hg : g.Valid) {task : Task} :
    task ∈ compile g ↔ ∃ id < g.nodes.length, g.task id = task := by
  simp only [compile_eq hg, List.mem_map, List.mem_range]

theorem dependencyPairs_compile (hg : g.Valid) :
    (compile g).dependencyPairs = g.dependencyPairs := by
  rw [compile_eq hg, dependencyPairs, List.flatMap_map, Graph.dependencyPairs, ← hg.linked.map_id,
    List.flatMap_map]
  rfl

theorem pendingCounts_compile (hg : g.Valid) :
    (compile g).pendingCounts =
      Tabled.tabulate g.nodes.length fun id ↦ (g.dependencies id).length := by
  rw [compile_eq hg, pendingCounts, List.map_map]
  rfl

theorem count_dependents_compile (hg : g.Valid) {id : NodeId} (hid : id < g.nodes.length) :
    ((compile g).flatMap Task.dependents).count id = (g.dependencies id).length := by
  have hdependents : (compile g).flatMap Task.dependents =
      (List.range g.nodes.length).flatMap g.dependents := by
    rw [compile_eq hg, List.flatMap_map]
    rfl
  rw [hdependents, Graph.count_flatMap_dependents hid, List.countP_eq_length_filter,
    hg.filter_mem_dependencies]

theorem ranks_compile (hg : g.Valid) (position : Nat) (id : NodeId) :
    ((compile g).map Task.rank)[id]? = some position ↔ g.order[position]? = some id := by
  have hranks : (compile g).map Task.rank = Tabled.tabulate g.nodes.length g.order.idxOf := by
    rw [compile_eq hg, List.map_map]
    rfl
  rw [hranks]
  constructor
  · intro hrank
    have hid : id < g.nodes.length := by
      simpa using (List.getElem?_eq_some_iff.mp hrank).1
    rw [Tabled.getElem?_tabulate _ hid] at hrank
    rw [← Option.some.inj hrank]
    exact List.getElem?_idxOf (hg.mem_order.mpr hid)
  · intro horder
    have hid : id < g.nodes.length := hg.mem_order.mp (List.mem_of_getElem? horder)
    obtain ⟨hposition, rfl⟩ := List.getElem?_eq_some_iff.mp horder
    rw [Tabled.getElem?_tabulate _ hid, hg.nodup_order.idxOf_getElem]

theorem represents_compile (hg : g.Valid) : (compile g).Represents g where
  nodes := map_node_compile hg
  dependencies_increasing task htask := by
    obtain ⟨id, -, rfl⟩ := (mem_compile hg).mp htask
    exact g.pairwise_dependencies id
  mem_dependencies task htask other := by
    obtain ⟨id, -, rfl⟩ := (mem_compile hg).mp htask
    exact Graph.mem_dependencies
  dependents_increasing task htask := by
    obtain ⟨id, -, rfl⟩ := (mem_compile hg).mp htask
    exact g.pairwise_dependents id
  mem_dependents task htask other := by
    obtain ⟨id, -, rfl⟩ := (mem_compile hg).mp htask
    simp only [mem_compile hg]
    refine Graph.mem_dependents.trans ⟨?_, ?_⟩
    · rintro ⟨hother, hmem⟩
      exact ⟨g.task other, ⟨other, hother, rfl⟩, rfl, hmem⟩
    · rintro ⟨_, ⟨k, hk, rfl⟩, rfl, hmem⟩
      exact ⟨hk, hmem⟩
  pendingCounts := List.map_congr_left fun task htask ↦ by
    obtain ⟨id, hid, rfl⟩ := (mem_compile hg).mp htask
    exact (count_dependents_compile hg hid).symm
  order := hg.orders.perm
  ranks := ranks_compile hg
  dependency task htask other hother := by
    obtain ⟨id, hid, rfl⟩ := (mem_compile hg).mp htask
    have hexists : g.task other ∈ compile g :=
      (mem_compile hg).mpr ⟨other, hg.lt_of_mem_dependencies hother, rfl⟩
    exact ⟨g.task other, hexists, rfl, Graph.mem_dependents.mpr ⟨hid, hother⟩,
      hg.idxOf_lt_of_mem_dependencies hother⟩
  dependencyPairs := by
    ext arc
    rw [List.mem_toFinset, List.mem_toFinset, dependencyPairs_compile hg, hg.mem_dependencyPairs]
  nodup_dependencyPairs := by
    rw [dependencyPairs_compile hg]
    exact hg.nodup_dependencyPairs

/-! ### No other tasks represent a graph -/

attribute [ext] Task

namespace Represents

variable (h : tasks.Represents g) (h' : tasks'.Represents g)

include h

theorem length_eq : tasks.length = g.nodes.length := by
  rw [← List.length_map Task.node, h.nodes, List.length_range]

theorem node_getElem {k : Nat} (hk : k < tasks.length) : tasks[k].node = k := by
  have hnode := List.getElem_of_eq h.nodes (by simpa using hk)
  rwa [List.getElem_map, List.getElem_range] at hnode

theorem order_rank {k : Nat} (hk : k < tasks.length) : g.order[tasks[k].rank]? = some k := by
  refine (h.ranks _ _).mp ?_
  rw [List.getElem?_map, List.getElem?_eq_getElem hk, Option.map_some]

/-- The dependents of a task are the heads of the edges that leave its node. -/
theorem mem_dependents_iff {task : Task} (htask : task ∈ tasks) {id : NodeId} :
    id ∈ task.dependents ↔
      id < g.nodes.length ∧ ∃ edge ∈ g.edges, edge.head = id ∧ edge.tail = task.node := by
  rw [h.mem_dependents task htask]
  constructor
  · rintro ⟨other, hother, rfl, hmem⟩
    have hnode : other.node ∈ tasks.map Task.node := List.mem_map_of_mem hother
    rw [h.nodes, List.mem_range] at hnode
    exact ⟨hnode, (h.mem_dependencies other hother task.node).mp hmem⟩
  · rintro ⟨hid, hedge⟩
    have hnode : id ∈ tasks.map Task.node := h.nodes ▸ List.mem_range.mpr hid
    obtain ⟨other, hother, rfl⟩ := List.mem_map.mp hnode
    exact ⟨other, hother, rfl, (h.mem_dependencies other hother task.node).mpr hedge⟩

include h'

theorem unique : tasks = tasks' := by
  refine List.ext_getElem (h.length_eq.trans h'.length_eq.symm) fun k hk hk' ↦ ?_
  have htask : tasks[k] ∈ tasks := List.getElem_mem hk
  have htask' : tasks'[k] ∈ tasks' := List.getElem_mem hk'
  have hnode : tasks[k].node = tasks'[k].node :=
    (h.node_getElem hk).trans (h'.node_getElem hk').symm
  have hrank : tasks[k].rank = tasks'[k].rank := by
    have hposition := (h'.ranks _ _).mpr (h.order_rank hk)
    rw [List.getElem?_map, List.getElem?_eq_getElem hk', Option.map_some] at hposition
    exact (Option.some.inj hposition).symm
  -- lists of nodes that increase are equal if they have the same members
  have hdependencies : tasks[k].dependencies = tasks'[k].dependencies := by
    refine (h.dependencies_increasing _ htask).eq_of_mem_iff
      (h'.dependencies_increasing _ htask') fun id ↦ ?_
    rw [h.mem_dependencies _ htask, h'.mem_dependencies _ htask', hnode]
  have hdependents : tasks[k].dependents = tasks'[k].dependents := by
    refine (h.dependents_increasing _ htask).eq_of_mem_iff
      (h'.dependents_increasing _ htask') fun id ↦ ?_
    rw [h.mem_dependents_iff htask, h'.mem_dependents_iff htask', hnode]
  exact Task.ext hnode hrank hdependencies hdependents

end Represents

end TaskGraph

namespace Tabled

/-! ### Filling tables -/

/-- The ranks of nodes are their positions. -/
theorem enterRanks_eq {order : List NodeId} (hnodup : order.Nodup) (hlt : ∀ id ∈ order, id < count)
    (position : Nat) (f : NodeId → Nat) :
    enterRanks order position (tabulate count f) =
      .ok (tabulate count fun id ↦ if id ∈ order then position + order.idxOf id else f id) := by
  induction order generalizing position f with
  | nil => simp [enterRanks]
  | cons first rest ih =>
    obtain ⟨hfirst, hrest⟩ := List.nodup_cons.mp hnodup
    obtain ⟨hlt, hlts⟩ := List.forall_mem_cons.mp hlt
    rw [enterRanks, change_tabulate f hlt]
    refine (ih hrest hlts (position + 1) _).trans (congrArg Except.ok (tabulate_congr fun id _ ↦ ?_))
    by_cases hid : id = first
    · subst hid
      rw [if_neg hfirst, Function.update_self, if_pos List.mem_cons_self, List.idxOf_cons_self,
        Nat.add_zero]
    · have hmem : id ∈ first :: rest ↔ id ∈ rest := by simp [hid]
      rw [Function.update_of_ne hid, List.idxOf_cons_ne _ (Ne.symm hid), Nat.succ_eq_add_one]
      simp only [hmem, Nat.add_assoc, Nat.add_comm 1]

/-- Of nodes without repetition, each gets the dependent once. -/
theorem enterDependent_eq (id : NodeId) {before : List NodeId} (hnodup : before.Nodup)
    (hlt : ∀ other ∈ before, other < count) (f : NodeId → List NodeId) :
    enterDependent id before (tabulate count f) =
      .ok (tabulate count fun other ↦ f other ++ if other ∈ before then [id] else []) := by
  induction before generalizing f with
  | nil => simp [enterDependent]
  | cons first rest ih =>
    obtain ⟨hfirst, hrest⟩ := List.nodup_cons.mp hnodup
    obtain ⟨hlt, hlts⟩ := List.forall_mem_cons.mp hlt
    rw [enterDependent, change_tabulate f hlt]
    refine (ih hrest hlts _).trans (congrArg Except.ok (tabulate_congr fun other _ ↦ ?_))
    by_cases hother : other = first
    · subst hother
      simp [hfirst]
    · simp [hother]

/-- The dependents of a node are those nodes, in order, that depend on it. -/
theorem transpose_eq {dependencies : NodeId → List NodeId}
    (hnodup : ∀ id, (dependencies id).Nodup)
    (hlt : ∀ id, ∀ other ∈ dependencies id, other < count) {nodes : List (Node ε σ)}
    (hnodes : ∀ node ∈ nodes, node.id < count) (f : NodeId → List NodeId) :
    transpose (tabulate count dependencies) nodes (tabulate count f) =
      .ok (tabulate count fun id ↦
        f id ++ (nodes.map Node.id).filter fun other ↦ (dependencies other).contains id) := by
  induction nodes generalizing f with
  | nil => simp [transpose]
  | cons node rest ih =>
    obtain ⟨hnode, hrest⟩ := List.forall_mem_cons.mp hnodes
    have henter := enterDependent_eq node.id (hnodup node.id) (hlt node.id) f
    rw [transpose, entry_tabulate dependencies hnode]
    simp only [bind, Except.bind, henter]
    refine (ih hrest _).trans (congrArg Except.ok (tabulate_congr fun id _ ↦ ?_))
    by_cases hid : id ∈ dependencies node.id <;> simp [hid]

theorem collectTasks_eq (rank : NodeId → Nat) (dependencies dependents : NodeId → List NodeId)
    {nodes : List (Node ε σ)} (hnodes : ∀ node ∈ nodes, node.id < count) :
    collectTasks (tabulate count rank) (tabulate count dependencies)
        (nodes.map fun node ↦ (node, dependents node.id)) =
      .ok ((nodes.map Node.id).map fun id ↦ ⟨id, rank id, dependencies id, dependents id⟩) := by
  induction nodes with
  | nil => rfl
  | cons node rest ih =>
    obtain ⟨hnode, hrest⟩ := List.forall_mem_cons.mp hnodes
    rw [List.map_cons, collectTasks, entry_tabulate rank hnode, entry_tabulate dependencies hnode,
      ih hrest]
    rfl

/-- Compiling with the tables of a graph never crashes, and gives its tasks. -/
theorem compile_tablesOf (hg : g.Valid) : compile g (tablesOf g) = .ok (TaskGraph.compile g) := by
  have hids : ∀ node ∈ g.nodes, node.id < g.nodes.length := fun node hnode ↦ hg.linked.id_lt hnode
  have hranks : enterRanks g.order 0 (List.replicate g.nodes.length 0) =
      .ok (tabulate g.nodes.length g.order.idxOf) := by
    rw [replicate_eq_tabulate,
      enterRanks_eq hg.nodup_order (fun id hid ↦ hg.mem_order.mp hid) 0 fun _ ↦ 0]
    refine congrArg Except.ok (tabulate_congr fun id hid ↦ ?_)
    rw [if_pos (hg.mem_order.mpr hid), Nat.zero_add]
  have hdependents : transpose (tabulate g.nodes.length g.dependencies) g.nodes
      (List.replicate g.nodes.length []) = .ok (tabulate g.nodes.length g.dependents) := by
    rw [replicate_eq_tabulate, transpose_eq g.nodup_dependencies
      (fun _ _ ↦ hg.lt_of_mem_dependencies) hids fun _ ↦ [], hg.linked.map_id]
    rfl
  have hzip : g.nodes.zip (tabulate g.nodes.length g.dependents) =
      g.nodes.map fun node ↦ (node, g.dependents node.id) := by
    rw [← nodeTable_eq_tabulate hg.linked]
    exact List.ext_getElem (by simp [nodeTable]) (by simp [nodeTable])
  have htasks := collectTasks_eq g.order.idxOf g.dependencies g.dependents hids
  rw [hg.linked.map_id] at htasks
  rw [compile, tablesOf, nodeTable_eq_tabulate hg.linked]
  simp only [bind, Except.bind, hranks, hdependents, hzip, htasks, TaskGraph.compile_eq hg]
  rfl

/-! ### Counting down -/

/-- Counters that stand at how often their tasks are named, besides other counts, are left at the
other counts. -/
theorem countDown_eq {ids : List NodeId} (hlt : ∀ id ∈ ids, id < count) (others : NodeId → Nat) :
    countDown ids (tabulate count fun id ↦ ids.count id + others id) =
      .ok (tabulate count others) := by
  induction ids with
  | nil => simp [countDown]
  | cons first rest ih =>
    obtain ⟨hfirst, hrest⟩ := List.forall_mem_cons.mp hlt
    have hcount : (first :: rest).count first + others first =
        rest.count first + others first + 1 := by
      rw [List.count_cons_self]
      omega
    rw [countDown, entry_tabulate _ hfirst, hcount]
    refine Eq.trans ?_ (ih hrest)
    exact congrArg (countDown rest) (set_tabulate_count first rest others)

/-- Counters that tell how many dependencies are missing still do when tasks have completed that had
not before. -/
theorem countCompleted_missing (hg : g.Valid) {ids : List NodeId}
    (hlt : ∀ id ∈ ids, id < g.nodes.length) (done : List NodeId) (hnodup : (done ++ ids).Nodup) :
    countCompleted (TaskGraph.compile g) ids (tabulate g.nodes.length (g.missing done)) =
      .ok (tabulate g.nodes.length (g.missing (done ++ ids))) := by
  induction ids generalizing done with
  | nil => rw [countCompleted, List.append_nil]
  | cons first rest ih =>
    obtain ⟨hfirst, hrest⟩ := List.forall_mem_cons.mp hlt
    have hfresh : first ∉ done := notMem_front_of_nodup hnodup
    rw [List.append_cons] at hnodup ⊢
    -- what is missing before exceeds what is missing after by one for each dependent
    have hmissing : tabulate g.nodes.length (g.missing done) =
        tabulate g.nodes.length fun id ↦
          (g.dependents first).count id + g.missing (done ++ [first]) id := by
      refine tabulate_congr fun id hid ↦ ?_
      rw [Graph.missing_snoc hfresh, Nat.add_comm, (g.nodup_dependents first).count]
      simp only [Graph.mem_dependents, hid, true_and]
    have hlts : ∀ id ∈ g.dependents first, id < g.nodes.length := fun id hid ↦
      (Graph.mem_dependents.mp hid).1
    have hdown := countDown_eq hlts (g.missing (done ++ [first]))
    rw [countCompleted, entry, TaskGraph.getElem?_compile hg hfirst, hmissing]
    simp only [bind, Except.bind, hdown]
    exact ih hrest (done ++ [first]) hnodup

/-- From the start on, counters tell how many dependencies are missing while distinct tasks
complete. -/
theorem countCompleted_pendingCounts (hg : g.Valid) {done : List NodeId} (hnodup : done.Nodup)
    (hlt : ∀ id ∈ done, id < g.nodes.length) :
    countCompleted (TaskGraph.compile g) done (TaskGraph.compile g).pendingCounts =
      .ok (tabulate g.nodes.length (g.missing done)) := by
  have hstart : (fun id ↦ (g.dependencies id).length) = g.missing [] := by
    ext id
    simp [Graph.missing]
  rw [TaskGraph.pendingCounts_compile hg, hstart]
  exact countCompleted_missing hg hlt [] hnodup

end Tabled

/-- The distributed runner, whose counters stop at zero, never takes one from a counter at zero. -/
theorem Distributed.Tallied.countCompleted_eq (hg : g.Valid) {s : Progress ε σ}
    {done : List NodeId} (h : Tallied g s done) :
    Tabled.countCompleted (TaskGraph.compile g) done (TaskGraph.compile g).pendingCounts =
      .ok s.pending := by
  have hpending : s.pending = Tabled.tabulate g.nodes.length (g.missing done) := by
    refine List.ext_getElem? fun id ↦ ?_
    by_cases hid : id < g.nodes.length
    · rw [h.pending id hid, Tabled.getElem?_tabulate _ hid]
    · rw [List.getElem?_eq_none (by rw [h.length_pending]; omega),
        List.getElem?_eq_none (by rw [Tabled.length_tabulate]; omega)]
  rw [hpending]
  exact Tabled.countCompleted_pendingCounts hg h.begun.nodup h.begun.lt

namespace Builder

variable {b : Builder ε σ}

/-! ### Compiling what a builder is frozen into -/

/-- Compiling is exact. For any graph that a builder is frozen into, however many edges run in
parallel, filling tables does not crash and gives the tasks of the graph. These represent the graph,
and no others do. The pairs of a dependency and a node that either tells are the arcs of the edges.
When distinct tasks complete, in whatever order, no counter is taken below zero and each tells how
many dependencies are missing; when all have completed, all stand at zero. -/
theorem Assembled.compile_exact (h : b.Assembled) (hbuild : b.build = .ok g) :
    (∃ tables, Tabled.build b = .ok (g, tables) ∧
      Tabled.compile g tables = .ok (TaskGraph.compile g)) ∧
    ((TaskGraph.compile g).Represents g ∧
      ∀ tasks : TaskGraph, tasks.Represents g → tasks = TaskGraph.compile g) ∧
    (g.dependencyPairs = (TaskGraph.compile g).dependencyPairs ∧
      g.dependencyPairs.toFinset = (g.edges.map Edge.arc).toFinset) ∧
    (∀ done : List NodeId, done.Nodup → (∀ id ∈ done, id < g.nodes.length) →
      Tabled.countCompleted (TaskGraph.compile g) done (TaskGraph.compile g).pendingCounts =
        .ok (Tabled.tabulate g.nodes.length (g.missing done))) ∧
    ∀ all : List NodeId, all.Perm (List.range g.nodes.length) →
      Tabled.countCompleted (TaskGraph.compile g) all (TaskGraph.compile g).pendingCounts =
        .ok (List.replicate g.nodes.length 0) := by
  have hg : g.Valid := Graph.valid_of_build h hbuild
  have hrepresents := TaskGraph.represents_compile hg
  have hpairs := TaskGraph.dependencyPairs_compile hg
  refine ⟨⟨Tabled.tablesOf g, ?_, Tabled.compile_tablesOf hg⟩,
    ⟨hrepresents, fun tasks htasks ↦ htasks.unique hrepresents⟩,
    ⟨hpairs.symm, hpairs ▸ hrepresents.dependencyPairs⟩,
    fun done ↦ Tabled.countCompleted_pendingCounts hg, fun all hall ↦ ?_⟩
  · rw [Tabled.build_eq_lift h, hbuild]
    rfl
  · have hlt : ∀ id ∈ all, id < g.nodes.length := fun id hid ↦
      List.mem_range.mp (hall.mem_iff.mp hid)
    rw [Tabled.countCompleted_pendingCounts hg (hall.symm.nodup List.nodup_range) hlt,
      Tabled.replicate_eq_tabulate]
    exact congrArg Except.ok
      (Tabled.tabulate_congr fun id _ ↦ hg.missing_eq_zero_of_perm hall id)

/-- A builder whose source comes last and feeds the first node, which also waits for it. -/
def plait : Builder Unit Unit :=
  { mode := .apply
    context := ⟨0, .apply⟩
    nodes := [⟨0, .applier, Builtin.collector, none, ⟨2, 1⟩⟩,
      ⟨1, .sink, Builtin.collector, none, ⟨1, 1⟩⟩, ⟨2, .source, Builtin.collector, none, ⟨0, 2⟩⟩]
    edges := [.data ⟨2, 0⟩ 0 0, .data ⟨2, 1⟩ 0 1, .state 2 0, .state 2 1, .data ⟨0, 0⟩ 1 0] }

/-- The graph that it is frozen into. -/
def plaited : Graph Unit Unit :=
  { mode := .apply, nodes := plait.nodes, edges := plait.edges, groups := [], order := [2, 0, 1]
    source := 2, sink := 1 }

theorem assembled_plait : plait.Assembled := by
  have hnodes : ({ plait with edges := [] } : Builder Unit Unit).Assembled :=
    (((Assembled.new .apply).addNode .applier Builtin.collector none ⟨2, 1⟩).addNode .sink
      Builtin.collector none ⟨1, 1⟩).addNode .source Builtin.collector none ⟨0, 2⟩
  have hfed : ({ plait with edges := [.data ⟨2, 0⟩ 0 0, .data ⟨2, 1⟩ 0 1] } :
      Builder Unit Unit).Assembled :=
    (hnodes.connect (rfl : Builder.connect _ ⟨2, 0⟩ 0 0 = .ok _)).connect
      (rfl : Builder.connect _ ⟨2, 1⟩ 0 1 = .ok _)
  have hbehind : ({ plait with
      edges := [.data ⟨2, 0⟩ 0 0, .data ⟨2, 1⟩ 0 1, .state 2 0, .state 2 1] } :
      Builder Unit Unit).Assembled :=
    (hfed.addStateEdge (rfl : Builder.addStateEdge _ 2 0 = .ok _)).addStateEdge
      (rfl : Builder.addStateEdge _ 2 1 = .ok _)
  exact hbehind.connect (rfl : Builder.connect _ ⟨0, 0⟩ 1 0 = .ok plait)

/-- Three edges from the source to the first node are one dependency, and so one dependent. The
counters come out even also if tasks complete before those they depend on. -/
theorem Assembled.compile_exact_plaited :
    let tasks : TaskGraph := [⟨0, 1, [2], [1]⟩, ⟨1, 2, [0, 2], []⟩, ⟨2, 0, [], [0, 1]⟩]
    (plait.Assembled ∧ plait.build = .ok plaited) ∧
      (tasks.Represents plaited ∧ ∀ others : TaskGraph, others.Represents plaited → others = tasks) ∧
      plaited.dependencyPairs.toFinset = {(2, 0), (2, 1), (0, 1)} ∧
      Tabled.countCompleted tasks [2] [1, 2, 0] = .ok [0, 1, 0] ∧
      Tabled.countCompleted tasks [1, 0, 2] [1, 2, 0] = .ok [0, 0, 0] := by
  intro tasks
  have hbuild : plait.build = .ok plaited := rfl
  have htasks : TaskGraph.compile plaited = tasks := by decide
  obtain ⟨-, hexact, ⟨-, harcs⟩, hcounts, hall⟩ := assembled_plait.compile_exact hbuild
  rw [htasks] at hexact hcounts hall
  refine ⟨⟨assembled_plait, hbuild⟩, hexact, ?_, ?_, ?_⟩
  · rw [harcs]
    decide
  · exact hcounts [2] (by decide) (by decide)
  · exact hall [1, 0, 2] (by decide)

end Builder

end Dataflow
