import Dataflow.Proofs.Interleaving
import Dataflow.Run.Distributed
import Mathlib.Data.List.Perm.Basic

/-!
# What the distributed runner keeps track of

A run of the distributed runner is followed by the list of the nodes that have completed, in the
order in which they did. Whatever actors do, its counters say how many dependencies of a node are
missing from the list, and the nodes that are ready or in flight are exactly those that wait for
nothing else (`Distributed.Tallied`, `Graph.Ready`). If actors keep to themselves, nodes in flight
have moreover been given the inputs they would get now, because nothing they depend on is still to
come (`Distributed.Follows`).

`Distributed.result_turn` is the step: while nodes are missing, a turn never gets stuck. Either one
more node runs, or one that could run fails, and the run ends with its error.
`Distributed.result_turns` is the whole run: all nodes have run, each after its dependencies, or
some node that could run has failed.
-/

set_option autoImplicit false
set_option relaxedAutoImplicit false

namespace Dataflow

variable {ε σ : Type}

/-! ### Tasks -/

namespace Graph

variable {g : Graph ε σ} {done : List NodeId} {id : NodeId}

/-- The nodes that depend on a node. -/
def dependents (g : Graph ε σ) (id : NodeId) : List NodeId :=
  (List.range g.nodes.length).filter fun other ↦ (g.dependencies other).contains id

theorem mem_dependents {other : NodeId} :
    other ∈ g.dependents id ↔ other < g.nodes.length ∧ id ∈ g.dependencies other := by
  simp [dependents]

theorem pairwise_dependents (g : Graph ε σ) (id : NodeId) : (g.dependents id).Pairwise (· < ·) :=
  List.pairwise_lt_range.filter _

theorem nodup_dependents (g : Graph ε σ) (id : NodeId) : (g.dependents id).Nodup :=
  (g.pairwise_dependents id).imp Nat.ne_of_lt

/-- A node has not run, but all that it depends on has. -/
structure Ready (g : Graph ε σ) (done : List NodeId) (id : NodeId) : Prop where
  lt : id < g.nodes.length
  fresh : id ∉ done
  ready : ∀ other ∈ g.dependencies id, other ∈ done

theorem Begun.ready_snoc (h : g.Begun done) (hid : g.Ready done id) : g.Begun (done ++ [id]) :=
  h.snoc hid.lt hid.fresh hid.ready

/-- How many dependencies of a node have not run. -/
def missing (g : Graph ε σ) (done : List NodeId) (id : NodeId) : Nat :=
  (g.dependencies id).countP (· ∉ done)

theorem missing_eq_zero : g.missing done id = 0 ↔ ∀ other ∈ g.dependencies id, other ∈ done := by
  unfold missing
  rw [List.countP_eq_zero]
  simp

/-- A node waits for one node less when that node has run. -/
theorem missing_snoc {ended : NodeId} (hfresh : ended ∉ done) :
    g.missing done id =
      g.missing (done ++ [ended]) id + if ended ∈ g.dependencies id then 1 else 0 := by
  have hnodup := g.nodup_dependencies id
  unfold missing
  generalize g.dependencies id = before at hnodup ⊢
  induction before with
  | nil => rfl
  | cons first rest ih =>
    obtain ⟨hfirst, hrest⟩ := List.nodup_cons.mp hnodup
    rw [List.countP_cons, List.countP_cons, ih hrest]
    by_cases hsame : first = ended
    · subst hsame
      simp [hfirst, hfresh]
    · have hother : ended ∈ first :: rest ↔ ended ∈ rest := by
        simp [Ne.symm hsame]
      have hkept : first ∉ done ++ [ended] ↔ first ∉ done := by
        simp [hsame]
      simp only [hother, hkept]
      omega

theorem Ready.self_notMem_dependencies (h : g.Ready done id) : id ∉ g.dependencies id :=
  fun hmem ↦ h.fresh (h.ready id hmem)

/-- When a node has run, those nodes are ready that depend on it and miss nothing any more, and
those that were ready besides it. -/
theorem Begun.ready_snoc_iff (h : g.Begun done) (hready : g.Ready done id) {other : NodeId} :
    g.Ready (done ++ [id]) other ↔
      (other ∈ g.dependents id ∧ g.missing (done ++ [id]) other = 0) ∨
        (g.Ready done other ∧ other ≠ id) := by
  rw [missing_eq_zero, mem_dependents]
  constructor
  · intro hother
    by_cases hmem : id ∈ g.dependencies other
    · exact .inl ⟨⟨hother.lt, hmem⟩, hother.ready⟩
    · refine .inr ⟨⟨hother.lt, fun hdone ↦ hother.fresh (List.mem_append_left _ hdone),
        fun before hbefore ↦ ?_⟩, fun hsame ↦ hother.fresh ?_⟩
      · rcases List.mem_append.mp (hother.ready before hbefore) with hdone | hdone
        · exact hdone
        · rw [List.mem_singleton.mp hdone] at hbefore
          exact absurd hbefore hmem
      · rw [hsame]
        exact List.mem_append_right _ List.mem_cons_self
  · rintro (⟨⟨hlt, hmem⟩, hall⟩ | ⟨hother, hne⟩)
    · refine ⟨hlt, fun hdone ↦ ?_, hall⟩
      rcases List.mem_append.mp hdone with hdone | hdone
      · exact hready.fresh (h.closed other hdone id hmem)
      · rw [List.mem_singleton.mp hdone] at hmem
        exact hready.self_notMem_dependencies hmem
    · refine ⟨hother.lt, fun hdone ↦ ?_,
        fun before hbefore ↦ List.mem_append_left _ (hother.ready before hbefore)⟩
      rcases List.mem_append.mp hdone with hdone | hdone
      · exact hother.fresh hdone
      · exact hne (List.mem_singleton.mp hdone)

end Graph

/-- The task of a node. -/
theorem TaskGraph.getElem?_compile {g : Graph ε σ} (hg : g.Valid) {id : NodeId}
    (hid : id < g.nodes.length) :
    (TaskGraph.compile g)[id]? =
      some ⟨id, g.order.idxOf id, g.dependencies id, g.dependents id⟩ := by
  have hnode : g.nodes[id]? = some g.nodes[id] := List.getElem?_eq_getElem hid
  have hself : g.nodes[id].id = id := hg.linked.id_eq id _ hnode
  have hdependents : g.dependents id =
      ((g.nodes.map fun node ↦ (node.id, g.dependencies node.id)).filter
        fun entry ↦ entry.2.contains id).map Prod.fst := by
    unfold Graph.dependents
    rw [← hg.linked.map_id, List.filter_map, List.filter_map, List.map_map]
    rfl
  simp only [TaskGraph.compile, List.getElem?_map, hnode, Option.map_some, hself, hdependents]

theorem TaskGraph.length_compile (g : Graph ε σ) :
    (TaskGraph.compile g).length = g.nodes.length := by
  simp [TaskGraph.compile]

theorem TaskGraph.map_node_compile {g : Graph ε σ} (hg : g.Valid) :
    (TaskGraph.compile g).map Task.node = List.range g.nodes.length := by
  refine List.ext_getElem? fun k ↦ ?_
  by_cases hk : k < g.nodes.length
  · rw [List.getElem?_map, getElem?_compile hg hk, List.getElem?_range hk]
    rfl
  · rw [List.getElem?_eq_none (by simp [length_compile]; omega),
      List.getElem?_eq_none (by simp; omega)]

/-- At the start, the nodes without dependencies are ready. -/
theorem TaskGraph.mem_initial {g : Graph ε σ} (hg : g.Valid) {id : NodeId} :
    id ∈ ((TaskGraph.compile g).filter (·.dependencies.isEmpty)).map Task.node ↔
      g.Ready [] id := by
  constructor
  · intro hmem
    obtain ⟨task, htask, rfl⟩ := List.mem_map.mp hmem
    obtain ⟨htask, hempty⟩ := List.mem_filter.mp htask
    obtain ⟨k, hk⟩ := List.getElem?_of_mem htask
    have hlt : k < g.nodes.length := length_compile g ▸ (List.getElem?_eq_some_iff.mp hk).1
    rw [getElem?_compile hg hlt] at hk
    obtain rfl := Option.some.inj hk
    have hnone : g.dependencies k = [] := List.isEmpty_iff.mp hempty
    refine ⟨hlt, List.not_mem_nil, fun other hother ↦ ?_⟩
    change other ∈ g.dependencies k at hother
    rwa [hnone] at hother
  · intro hready
    refine List.mem_map.mpr ⟨_, List.mem_filter.mpr
      ⟨List.mem_of_getElem? (getElem?_compile hg hready.lt), ?_⟩, rfl⟩
    rw [List.isEmpty_iff]
    exact List.eq_nil_iff_forall_not_mem.mpr fun other hother ↦
      List.not_mem_nil (hready.ready other hother)

/-- Pushing a task adds its node to the queue. -/
theorem ReadyQueue.perm_push (task : Task) (queue : ReadyQueue) :
    ((queue.push task).map Prod.snd).Perm (task.node :: queue.map Prod.snd) := by
  induction queue with
  | nil => exact List.Perm.refl _
  | cons entry rest ih =>
    obtain ⟨rank, node⟩ := entry
    rw [push]
    split_ifs
    · exact List.Perm.refl _
    · exact (ih.cons node).trans (List.Perm.swap _ _ _)

theorem ReadyQueue.perm_foldl_push (tasks : List Task) (queue : ReadyQueue) :
    ((tasks.foldl (fun queue task ↦ queue.push task) queue).map Prod.snd).Perm
      (tasks.map Task.node ++ queue.map Prod.snd) := by
  induction tasks generalizing queue with
  | nil => exact List.Perm.refl _
  | cons task rest ih =>
    refine (ih (queue.push task)).trans ?_
    exact ((perm_push task queue).append_left _).trans List.perm_middle

namespace Distributed

/-! ### Releasing dependents -/

/-- The nodes that may run: those ready and those in flight. -/
def Progress.available (s : Progress ε σ) : List NodeId :=
  s.ready.map Prod.snd ++ s.running.map fun job ↦ job.node.id

/-- Nodes have been released: each waits for one node less, and those that wait for none are
ready. -/
structure Released (count : Nat) (s after : Progress ε σ) (ids : List NodeId) : Prop where
  pending : ∀ k < count,
    after.pending[k]? = s.pending[k]?.map fun left ↦ if k ∈ ids then left - 1 else left
  ready : (after.ready.map Prod.snd).Perm
    (s.ready.map Prod.snd ++ ids.filter fun k ↦ s.pending.getD k 0 - 1 = 0)
  length_pending : after.pending.length = s.pending.length
  running : after.running = s.running
  produced : after.produced = s.produced
  completed : after.completed = s.completed

section Release

variable {g : Graph ε σ} {s after : Progress ε σ} {id : NodeId} {ids : List NodeId}

theorem released_nil (count : Nat) (s : Progress ε σ) : Released count s s [] where
  pending k _ := by
    cases s.pending[k]? <;> simp
  ready := by simp
  length_pending := rfl
  running := rfl
  produced := rfl
  completed := rfl

theorem released_release (hg : g.Valid) (s : Progress ε σ) (hid : id < g.nodes.length)
    (hlength : s.pending.length = g.nodes.length) :
    Released g.nodes.length s (release (TaskGraph.compile g) s id) [id] := by
  have htask := TaskGraph.getElem?_compile hg hid
  have hset : ∀ k < g.nodes.length, (s.pending.set id (s.pending.getD id 0 - 1))[k]? =
      s.pending[k]?.map fun left ↦ if k ∈ [id] then left - 1 else left := by
    intro k hk
    by_cases hsame : k = id
    · subst hsame
      rw [List.getElem?_set_self (by omega), List.getElem?_eq_getElem (by omega)]
      simp [List.getD_eq_getElem?_getD,
        List.getElem?_eq_getElem (show k < s.pending.length by omega)]
    · rw [List.getElem?_set_ne (Ne.symm hsame)]
      cases s.pending[k]? <;> simp [hsame]
  unfold release
  rw [htask]
  cases hleft : s.pending.getD id 0 - 1 with
  | zero =>
    rw [hleft] at hset
    refine ⟨hset, ?_, List.length_set, rfl, rfl, rfl⟩
    refine (ReadyQueue.perm_push _ s.ready).trans ?_
    rw [List.filter_cons_of_pos (by rw [hleft]; rfl), List.filter_nil]
    exact (List.perm_append_singleton id _).symm
  | succ left =>
    rw [hleft] at hset
    refine ⟨hset, ?_, List.length_set, rfl, rfl, rfl⟩
    rw [List.filter_cons_of_neg (by rw [hleft]; simp), List.filter_nil, List.append_nil]
    exact List.Perm.refl _

theorem Released.trans {count : Nat} {mid : Progress ε σ} {rest : List NodeId}
    (h : Released count s mid [id]) (hrest : Released count mid after rest) (hid : id ∉ rest)
    (hlt : ∀ k ∈ rest, k < count) : Released count s after (id :: rest) where
  pending k hk := by
    rw [hrest.pending k hk, h.pending k hk, Option.map_map]
    congr 1
    funext left
    by_cases hsame : k = id
    · subst hsame
      simp [hid]
    · simp [hsame]
  ready := by
    have hkept : rest.filter (fun k ↦ mid.pending.getD k 0 - 1 = 0) =
        rest.filter fun k ↦ s.pending.getD k 0 - 1 = 0 := by
      refine List.filter_congr fun k hk ↦ ?_
      have hne : k ≠ id := fun hsame ↦ hid (hsame ▸ hk)
      rw [List.getD_eq_getElem?_getD, List.getD_eq_getElem?_getD, h.pending k (hlt k hk)]
      cases s.pending[k]? <;> simp [hne]
    refine hrest.ready.trans ?_
    rw [hkept]
    refine (h.ready.append_right _).trans ?_
    rw [List.append_assoc, ← List.filter_append]
    exact List.Perm.refl _
  length_pending := hrest.length_pending.trans h.length_pending
  running := hrest.running.trans h.running
  produced := hrest.produced.trans h.produced
  completed := hrest.completed.trans h.completed

theorem released_foldl (hg : g.Valid) (s : Progress ε σ) (hnodup : ids.Nodup)
    (hids : ∀ k ∈ ids, k < g.nodes.length) (hlength : s.pending.length = g.nodes.length) :
    Released g.nodes.length s (ids.foldl (release (TaskGraph.compile g)) s) ids := by
  induction ids generalizing s with
  | nil => exact released_nil _ s
  | cons id rest ih =>
    obtain ⟨hid, hrest⟩ := List.nodup_cons.mp hnodup
    have hlt : ∀ k ∈ rest, k < g.nodes.length := fun k hk ↦ hids k (List.mem_cons_of_mem _ hk)
    have hfirst := released_release hg s (hids id List.mem_cons_self) hlength
    have hkept := hfirst.length_pending.trans hlength
    exact hfirst.trans (ih (release (TaskGraph.compile g) s id) hrest hlt hkept) hid hlt

/-- Completing a node releases its dependents. -/
theorem released_complete (hg : g.Valid) (s : Progress ε σ) (hid : id < g.nodes.length)
    (hlength : s.pending.length = g.nodes.length) (outputs : List Payload) :
    Released g.nodes.length
      { s with produced := s.produced.record id outputs, completed := s.completed + 1 }
      (complete (TaskGraph.compile g) s id outputs) (g.dependents id) := by
  unfold complete
  rw [TaskGraph.getElem?_compile hg hid]
  exact released_foldl hg _ (g.nodup_dependents id)
    (fun k hk ↦ (Graph.mem_dependents.mp hk).1) hlength

end Release

/-! ### What the counters say -/

/-- The counters of a run are right when these nodes have completed, in this order: they say how
many dependencies of each node are missing, and the nodes that are ready or in flight are exactly
those that wait for nothing else. -/
structure Tallied (g : Graph ε σ) (s : Progress ε σ) (done : List NodeId) : Prop where
  begun : g.Begun done
  completed : s.completed = done.length
  pending : ∀ id < g.nodes.length, s.pending[id]? = some (g.missing done id)
  length_pending : s.pending.length = g.nodes.length
  nodup : s.available.Nodup
  mem_available : ∀ id, id ∈ s.available ↔ g.Ready done id

/-- The nodes that may run at the start are those of the tasks without dependencies. -/
theorem Progress.perm_available_start (tasks : TaskGraph) :
    (Progress.start tasks : Progress ε σ).available.Perm
      ((tasks.filter (·.dependencies.isEmpty)).map Task.node) := by
  have hperm := ReadyQueue.perm_foldl_push (tasks.filter (·.dependencies.isEmpty)) []
  rw [List.map_nil, List.append_nil] at hperm
  have havailable : (Progress.start tasks : Progress ε σ).available =
      (Progress.start tasks : Progress ε σ).ready.map Prod.snd := List.append_nil _
  rwa [havailable]

theorem tallied_start {g : Graph ε σ} (hg : g.Valid) :
    Tallied g (.start (TaskGraph.compile g) : Progress ε σ) [] := by
  have havailable : (Progress.start (TaskGraph.compile g) : Progress ε σ).available.Perm _ :=
    Progress.perm_available_start _
  refine ⟨g.begun_nil, rfl, fun id hid ↦ ?_, ?_, ?_, fun id ↦ ?_⟩
  · change ((TaskGraph.compile g).map (·.dependencies.length))[id]? = _
    rw [List.getElem?_map, TaskGraph.getElem?_compile hg hid]
    simp [Graph.missing]
  · change ((TaskGraph.compile g).map (·.dependencies.length)).length = _
    rw [List.length_map, TaskGraph.length_compile]
  · rw [havailable.nodup_iff]
    refine List.Nodup.sublist (List.filter_sublist.map Task.node) ?_
    rw [TaskGraph.map_node_compile hg]
    exact List.nodup_range
  · rw [havailable.mem_iff]
    exact TaskGraph.mem_initial hg

section Tallied

variable {g : Graph ε σ} {s : Progress ε σ} {done : List NodeId} {id : NodeId}

theorem Progress.available_of_ready {rank : Nat} {rest : ReadyQueue}
    (hqueue : s.ready = (rank, id) :: rest) :
    s.available = id :: (rest.map Prod.snd ++ s.running.map (·.node.id)) := by
  unfold available
  rw [hqueue]
  rfl

/-- The first node of the queue may run. -/
theorem Tallied.ready_head (h : Tallied g s done) {rank : Nat} {rest : ReadyQueue}
    (hqueue : s.ready = (rank, id) :: rest) : g.Ready done id :=
  (h.mem_available id).mp (Progress.available_of_ready hqueue ▸ List.mem_cons_self)

/-- Starting a task moves its node from the queue to the tasks in flight. -/
theorem Tallied.starts (h : Tallied g s done) {rank : Nat} {rest : ReadyQueue}
    (hqueue : s.ready = (rank, id) :: rest) (started : Job ε σ) (hstarted : started.node.id = id) :
    Tallied g { s with ready := rest, running := s.running ++ [started] } done := by
  have hperm : ({ s with ready := rest, running := s.running ++ [started] } :
      Progress ε σ).available.Perm s.available := by
    rw [Progress.available_of_ready hqueue]
    unfold Progress.available
    rw [List.map_append, ← List.append_assoc]
    change (_ ++ [started.node.id]).Perm _
    rw [hstarted]
    exact List.perm_append_singleton id _
  exact ⟨h.begun, h.completed, h.pending, h.length_pending, hperm.nodup_iff.mpr h.nodup,
    fun k ↦ hperm.mem_iff.trans (h.mem_available k)⟩

/-- The nodes that may run besides one that is in flight. -/
def Progress.besides (s : Progress ε σ) (position : Nat) : List NodeId :=
  s.ready.map Prod.snd ++ (s.running.eraseIdx position).map (·.node.id)

theorem Progress.perm_available {position : Nat} {ended : Job ε σ}
    (hended : s.running[position]? = some ended) :
    s.available.Perm (ended.node.id :: s.besides position) := by
  obtain ⟨hposition, rfl⟩ := List.getElem?_eq_some_iff.mp hended
  have hrunning := (List.getElem_cons_eraseIdx_perm hposition).map (·.node.id)
  rw [List.map_cons] at hrunning
  exact (hrunning.symm.append_left _).trans List.perm_middle

theorem Tallied.ready_running (h : Tallied g s done) {job : Job ε σ} (hjob : job ∈ s.running) :
    g.Ready done job.node.id :=
  (h.mem_available _).mp (List.mem_append_right _ (List.mem_map_of_mem hjob))

theorem Tallied.nodup_besides (h : Tallied g s done) {position : Nat} {ended : Job ε σ}
    (hended : s.running[position]? = some ended) :
    ended.node.id ∉ s.besides position ∧ (s.besides position).Nodup :=
  List.nodup_cons.mp ((Progress.perm_available hended).nodup_iff.mp h.nodup)

theorem Tallied.mem_besides (h : Tallied g s done) {position : Nat} {ended : Job ε σ}
    (hended : s.running[position]? = some ended) {other : NodeId} :
    other ∈ s.besides position ↔ g.Ready done other ∧ other ≠ ended.node.id := by
  have hgone := (h.nodup_besides hended).1
  rw [← h.mem_available, (Progress.perm_available hended).mem_iff, List.mem_cons]
  constructor
  · intro hother
    exact ⟨.inr hother, fun hsame ↦ hgone (hsame ▸ hother)⟩
  · rintro ⟨hsame | hother, hne⟩
    · exact absurd hsame hne
    · exact hother

/-- Once the dependents of a node in flight have been released, those nodes may run that miss
nothing any more, and those that might run besides it. -/
theorem Tallied.perm_released (h : Tallied g s done) {position : Nat} {ended : Job ε σ}
    (hended : s.running[position]? = some ended) {after : Progress ε σ} {p : Produced}
    {completed : Nat} (hreleased : Released g.nodes.length
      { s with running := s.running.eraseIdx position, produced := p, completed } after
      (g.dependents ended.node.id)) :
    after.available.Perm
      ((g.dependents ended.node.id).filter
        (fun other ↦ g.missing (done ++ [ended.node.id]) other = 0) ++ s.besides position) := by
  have hready := h.ready_running (List.mem_of_getElem? hended)
  have hnewly : (g.dependents ended.node.id).filter (fun k ↦ s.pending.getD k 0 - 1 = 0) =
      (g.dependents ended.node.id).filter
        fun k ↦ g.missing (done ++ [ended.node.id]) k = 0 := by
    refine List.filter_congr fun k hk ↦ ?_
    obtain ⟨hlt, hmem⟩ := Graph.mem_dependents.mp hk
    rw [List.getD_eq_getElem?_getD, h.pending k hlt, Option.getD_some,
      Graph.missing_snoc hready.fresh, if_pos hmem, Nat.add_sub_cancel]
  have hperm := hreleased.ready
  rw [hnewly] at hperm
  unfold Progress.available Progress.besides
  rw [hreleased.running, ← List.append_assoc]
  exact (hperm.trans List.perm_append_comm).append_right _

theorem Tallied.released (h : Tallied g s done) (hg : g.Valid) {position : Nat} {ended : Job ε σ}
    (hended : s.running[position]? = some ended) (outputs : List Payload) :
    Released g.nodes.length
      { s with running := s.running.eraseIdx position,
               produced := s.produced.record ended.node.id outputs, completed := s.completed + 1 }
      (complete (TaskGraph.compile g) { s with running := s.running.eraseIdx position }
        ended.node.id outputs) (g.dependents ended.node.id) :=
  released_complete hg { s with running := s.running.eraseIdx position }
    (h.ready_running (List.mem_of_getElem? hended)).lt h.length_pending outputs

/-- When a task in flight completes, its dependents are released. -/
theorem Tallied.complete (h : Tallied g s done) (hg : g.Valid) {position : Nat} {ended : Job ε σ}
    (hended : s.running[position]? = some ended) (outputs : List Payload) :
    Tallied g (complete (TaskGraph.compile g) { s with running := s.running.eraseIdx position }
      ended.node.id outputs) (done ++ [ended.node.id]) := by
  have hready := h.ready_running (List.mem_of_getElem? hended)
  have hreleased := h.released hg hended outputs
  have havailable := h.perm_released hended hreleased
  refine ⟨h.begun.ready_snoc hready, ?_, fun k hk ↦ ?_, ?_, ?_, fun k ↦ ?_⟩
  · rw [hreleased.completed, h.completed, List.length_append]
    rfl
  · rw [hreleased.pending k hk, h.pending k hk, Option.map_some, Graph.missing_snoc hready.fresh]
    by_cases hmem : ended.node.id ∈ g.dependencies k
    · rw [if_pos hmem, if_pos (Graph.mem_dependents.mpr ⟨hk, hmem⟩), Nat.add_sub_cancel]
    · rw [if_neg hmem, if_neg fun hdependent ↦ hmem (Graph.mem_dependents.mp hdependent).2,
        Nat.add_zero]
  · exact hreleased.length_pending.trans h.length_pending
  · rw [havailable.nodup_iff]
    refine List.nodup_append.mpr ⟨(g.nodup_dependents _).filter _, (h.nodup_besides hended).2,
      fun k hk other hother hsame ↦ ?_⟩
    subst hsame
    have hmem := (Graph.mem_dependents.mp (List.mem_filter.mp hk).1).2
    exact hready.fresh (((h.mem_besides hended).mp hother).1.ready _ hmem)
  · rw [havailable.mem_iff, List.mem_append, h.mem_besides hended, List.mem_filter,
      decide_eq_true_eq]
    exact (h.begun.ready_snoc_iff hready).symm

theorem exists_notMem_of_length_lt {count : Nat} (h : done.length < count) :
    ∃ id < count, id ∉ done := by
  by_contra hall
  push Not at hall
  have hle := List.Nodup.length_le_of_subset List.nodup_range
    fun id hid ↦ hall id (List.mem_range.mp hid)
  rw [List.length_range] at hle
  omega

/-- While nodes are missing, some task is in flight once the idle workers have been given work. -/
theorem Tallied.running_pos (h : Tallied g s done) (hg : g.Valid) {workers : Nat}
    (hworkers : 1 ≤ workers) (hfilled : s.ready = [] ∨ workers ≤ s.running.length)
    (hid : id < g.nodes.length) (hmissing : id ∉ done) : 0 < s.running.length := by
  rcases hfilled with hnone | hfull
  · obtain ⟨ready, hlt, hfresh, hall⟩ := hg.exists_ready hid hmissing
    have hmem := (h.mem_available ready).mpr ⟨hlt, hfresh, hall⟩
    unfold Progress.available at hmem
    rw [hnone, List.map_nil, List.nil_append] at hmem
    obtain ⟨job, hjob, -⟩ := List.mem_map.mp hmem
    exact List.length_pos_of_mem hjob
  · omega

end Tallied

/-! ### Starting tasks -/

/-- How starting ready tasks goes: the first of the queue starts while workers are idle, until no
more can start or one is refused. -/
inductive Filling (g : Graph ε σ) (context : RunContext ε) (workers : Nat) :
    Progress ε σ → List (Job ε σ) → Progress ε σ → Option FlowError → Prop
  | full {s : Progress ε σ} (hfull : s.ready = [] ∨ workers ≤ s.running.length) :
      Filling g context workers s [] s none
  | starts {s after : Progress ε σ} {rank : Nat} {id : NodeId} {rest : ReadyQueue} {first : Job ε σ}
      {started : List (Job ε σ)} {fault : Option FlowError} (hidle : s.running.length < workers)
      (hqueue : s.ready = (rank, id) :: rest) (hjob : job g context s.produced id = .ok first)
      (hrest : Filling g context workers { s with ready := rest, running := s.running ++ [first] }
        started after fault) : Filling g context workers s (first :: started) after fault
  | refused {s : Progress ε σ} {rank : Nat} {id : NodeId} {rest : ReadyQueue} {e : FlowError}
      (hqueue : s.ready = (rank, id) :: rest) (hjob : job g context s.produced id = .error e) :
      Filling g context workers s [] { s with ready := rest } (some e)

theorem exists_filling (g : Graph ε σ) (context : RunContext ε) (workers : Nat)
    (s : Progress ε σ) : ∃ started after fault,
      fill g context workers s.ready.length s = (after, fault) ∧
        Filling g context workers s started after fault := by
  induction hfuel : s.ready.length generalizing s with
  | zero => exact ⟨[], s, none, rfl, .full (.inl (List.eq_nil_of_length_eq_zero hfuel))⟩
  | succ fuel ih =>
    rw [fill]
    by_cases hidle : s.running.length < workers
    · rw [if_pos hidle]
      cases hqueue : s.ready with
      | nil => exact ⟨[], s, none, rfl, .full (.inl hqueue)⟩
      | cons entry rest =>
        obtain ⟨rank, id⟩ := entry
        dsimp only
        cases hjob : job g context s.produced id with
        | error e => exact ⟨[], _, some e, rfl, .refused hqueue hjob⟩
        | ok first =>
          have hrest : rest.length = fuel := by
            rw [hqueue, List.length_cons] at hfuel
            exact Nat.succ.inj hfuel
          obtain ⟨started, after, fault, hfill, hfilling⟩ :=
            ih { s with ready := rest, running := s.running ++ [first] } hrest
          exact ⟨first :: started, after, fault, hfill, .starts hidle hqueue hjob hfilling⟩
    · rw [if_neg hidle]
      exact ⟨[], s, none, rfl, .full (.inr (Nat.le_of_not_lt hidle))⟩

/-! ### Following a run -/

/-- A run has come from a moment to another by completing nodes in this order. -/
structure Follows (g : Graph ε σ) (binding : Binding) (start : Moment ε σ) (s : Progress ε σ)
    (done : List NodeId) (now : Moment ε σ) : Prop where
  begun : g.Begun done
  ran : RunsAll g binding done start now
  produced : s.produced = now.produced
  completed : s.completed = done.length
  pending : ∀ id < g.nodes.length, s.pending[id]? = some (g.missing done id)
  length_pending : s.pending.length = g.nodes.length
  nodup : s.available.Nodup
  mem_available : ∀ id, id ∈ s.available ↔ g.Ready done id
  running : ∀ job ∈ s.running, ∃ bound,
    Called g binding now job.node.id job.node job.actor bound job.inputs

variable {g : Graph ε σ} {binding : Binding} {start now : Moment ε σ} {s : Progress ε σ}
  {done : List NodeId} {id : NodeId}

theorem Follows.tallied (h : Follows g binding start s done now) : Tallied g s done :=
  ⟨h.begun, h.completed, h.pending, h.length_pending, h.nodup, h.mem_available⟩

theorem Tallied.follows (h : Tallied g s done) (hran : RunsAll g binding done start now)
    (hproduced : s.produced = now.produced) (hrunning : ∀ job ∈ s.running, ∃ bound,
      Called g binding now job.node.id job.node job.actor bound job.inputs) :
    Follows g binding start s done now :=
  ⟨h.begun, hran, hproduced, h.completed, h.pending, h.length_pending, h.nodup, h.mem_available,
    hrunning⟩

theorem follows_start (hg : g.Sound) (binding : Binding) (w : World ε σ) :
    Follows g binding ⟨.nothing, w⟩ (.start (TaskGraph.compile g)) [] ⟨.nothing, w⟩ :=
  (tallied_start hg.toValid).follows (.nil _) rfl fun _ hjob ↦ nomatch hjob

/-- A node that is ready is given its inputs and its instance. -/
theorem Follows.exists_called (h : Follows g binding start s done now) (hg : g.Sound)
    (hfits : binding.Fits g start.world) (hready : g.Ready done id) :
    ∃ node actor bound inputs, Called g binding now id node actor bound inputs :=
  Dataflow.exists_called hg (h.ran.fits hfits) hready.lt fun other hother ↦
    (h.ran.delivered hg).1 other (hready.ready other hother)

/-- A node that is ready can be started. -/
theorem Follows.exists_job {context : RunContext ε} (h : Follows g context.binding start s done now)
    (hg : g.Sound) (hfits : context.binding.Fits g start.world) (hready : g.Ready done id) :
    ∃ first bound, job g context s.produced id = .ok first ∧ first.node.id = id ∧
      Called g context.binding now id first.node first.actor bound first.inputs := by
  obtain ⟨node, actor, bound, inputs, hcalled⟩ := h.exists_called hg hfits hready
  refine ⟨⟨node, actor, inputs⟩, bound, ?_, hg.wired.id_eq id node hcalled.node_eq, hcalled⟩
  unfold job
  rw [hcalled.node_eq, h.produced]
  dsimp only
  rw [hcalled.prepare_eq hg rfl]
  rfl

/-- Starting tasks never fails, and it stops only when enough are in flight or none is ready. -/
theorem Follows.filling {context : RunContext ε} {workers : Nat} {started : List (Job ε σ)}
    {after : Progress ε σ} {fault : Option FlowError}
    (hfilling : Filling g context workers s started after fault) (hg : g.Sound)
    (hfits : context.binding.Fits g start.world) (h : Follows g context.binding start s done now) :
    fault = none ∧ Follows g context.binding start after done now ∧
      (after.ready = [] ∨ workers ≤ after.running.length) := by
  induction hfilling with
  | full hfull => exact ⟨rfl, h, hfull⟩
  | starts hidle hqueue hjob hrest ih =>
    obtain ⟨first, bound, hfirst, hself, hcalled⟩ :=
      h.exists_job hg hfits (h.tallied.ready_head hqueue)
    obtain rfl := Except.ok.inj (hjob.symm.trans hfirst)
    refine ih ((h.tallied.starts hqueue _ hself).follows h.ran h.produced fun other hother ↦ ?_)
    rcases List.mem_append.mp hother with hother | hother
    · exact h.running other hother
    · rw [List.mem_singleton.mp hother, hself]
      exact ⟨bound, hcalled⟩
  | refused hqueue hjob =>
    obtain ⟨first, bound, hfirst, -⟩ := h.exists_job hg hfits (h.tallied.ready_head hqueue)
    cases hjob.symm.trans hfirst

/-- A task in flight has completed: its dependents are released. -/
theorem Follows.complete (h : Follows g binding start s done now) (hg : g.Sound)
    (hfits : binding.Fits g start.world) {position : Nat} {ended : Job ε σ}
    (hended : s.running[position]? = some ended) {next : Moment ε σ} {outputs : List Payload}
    (hruns : Runs g binding ended.node.id now next)
    (houtputs : next.produced = now.produced.record ended.node.id outputs) :
    Follows g binding start
      (complete (TaskGraph.compile g) { s with running := s.running.eraseIdx position }
        ended.node.id outputs) (done ++ [ended.node.id]) next := by
  have hready := h.tallied.ready_running (List.mem_of_getElem? hended)
  have hreleased := h.tallied.released hg.toValid hended outputs
  refine (h.tallied.complete hg.toValid hended outputs).follows (h.ran.snoc hruns) ?_
    fun job hjob ↦ ?_
  · rw [hreleased.produced, houtputs, h.produced]
  · rw [hreleased.running] at hjob
    obtain ⟨bound, hcalled⟩ := h.running job (List.mem_of_mem_eraseIdx hjob)
    refine hcalled.after_runs hruns (fun hmem ↦ ?_) ((h.ran.snoc hruns).fits hfits)
    have hk := (h.tallied.mem_besides hended).mp
      (List.mem_append_right _ (List.mem_map_of_mem hjob))
    exact hready.fresh (hk.1.ready _ hmem)

/-! ### The exits of a turn -/

/-- Where there is no cancellation, none is noticed. -/
theorem not_notices_of_live {context : RunContext ε} {env : Environment ε}
    (h : context.cancelled env = false) (turn : Nat) : context.notices turn env = false := by
  rw [RunContext.notices, h, Bool.false_and]

section Exits

variable {g : Graph ε σ} {context : RunContext ε} {workers : Nat} {s filled : Progress ε σ}
  {w : World ε σ}

theorem result_turn_of_fault (tasks : TaskGraph) {e : FlowError}
    (hfill : fill g context workers s.ready.length s = (filled, some e)) (w : World ε σ) :
    Flow.result (turn g context tasks workers s) w =
      (.error (.error e), (Action.result (drain context.schedule filled.running) w).2) := by
  simp only [turn, hfill, Flow.result_bind, Flow.result_lift, Flow.result_fail]

theorem result_turn_of_cancelled (tasks : TaskGraph)
    (hfill : fill g context workers s.ready.length s = (filled, none))
    (hcancelled : context.cancelled w.environment = true) :
    Flow.result (turn g context tasks workers s) w =
      (.error (.error .cancelled),
        (Action.result (drain context.schedule filled.running) w).2.told
          (.runCancelled name g.mode)) := by
  simp only [turn, hfill, Flow.result_bind, Flow.result_get, hcancelled, if_true, stopCancelled,
    Flow.result_lift, Flow.result_tell, Flow.result_fail]

theorem result_turn_of_idle (tasks : TaskGraph)
    (hfill : fill g context workers s.ready.length s = (filled, none))
    (hlive : context.cancelled w.environment = false)
    (hidle : filled.running[context.schedule.next filled.completed % filled.running.length]? =
      none) :
    Flow.result (turn g context tasks workers s) w =
      (.error (.error (.internal "no runnable tasks left before completion")), w) := by
  simp only [turn, hfill, Flow.result_bind, Flow.result_get, hlive, Bool.false_eq_true, if_false,
    hidle, Flow.result_fail]

/-- What a turn gives in which tasks start and the one that the schedule names finishes. -/
theorem result_turn_of_ended (tasks : TaskGraph) {ended : Job ε σ}
    (hfill : fill g context workers s.ready.length s = (filled, none))
    (hlive : context.cancelled w.environment = false) {position : Nat}
    (hposition : context.schedule.next filled.completed % filled.running.length = position)
    (hended : filled.running[position]? = some ended)
    {outcome : Except (Halt FlowError) (List Payload)} {after : World ε σ}
    (hexecute : Action.result (execute ended.node ended.actor ended.inputs) w = (outcome, after)) :
    Flow.result (turn g context tasks workers s) w =
      let others := filled.running.eraseIdx position
      let drained := (Action.result (drain context.schedule others) after).2
      match context.notices filled.completed after.environment, outcome with
      | true, _ => (.error (.error .cancelled), drained.told (.runCancelled name g.mode))
      | false, .ok outputs =>
        (.ok (complete tasks { filled with running := others } ended.node.id outputs), after)
      | false, .error .crash =>
        (.error (.error (.internal "task failed to complete: the task crashed")), drained)
      | false, .error (.error e) =>
        (.error (.error e), drained.told (.nodeFailed name ended.node.label e.message)) := by
  by_cases hnoticed : context.notices filled.completed after.environment = true
  · simp only [turn, hfill, Flow.result_bind, Flow.result_get, hlive, Bool.false_eq_true, if_false,
      hposition, hended, Flow.result_lift, hexecute, hnoticed, if_true, stopCancelled,
      Flow.result_tell, Flow.result_fail]
  · rw [Bool.not_eq_true] at hnoticed
    rcases outcome with (e | _) | outputs <;>
      simp only [turn, hfill, Flow.result_bind, Flow.result_get, hlive, Bool.false_eq_true,
        if_false, hposition, hended, Flow.result_lift, hexecute, hnoticed, Flow.result_tell,
        Flow.result_fail, Flow.result_pure]

end Exits

/-! ### Turns -/

/-- The error that a run ends with when a task stops: that of its actor, or, if the task has
crashed, that it has. -/
def reported (label : String) : Halt ActorError → FlowError
  | .error e => .ofActor label e
  | .crash => .internal "task failed to complete: the task crashed"

/-- A node that can run fails, and this is the error reported for it. -/
def Fails (g : Graph ε σ) (binding : Binding) (now : Moment ε σ) (id : NodeId) (e : FlowError) :
    Prop :=
  ∃ node actor bound inputs halt, Called g binding now id node actor bound inputs ∧
    (node.work bound now.world.environment inputs).1 = .error halt ∧ e = reported node.label halt

section Turns

variable {context : RunContext ε} {workers : Nat}

/-- While nodes are missing, a turn lets one more node run, or ends the run with the error of a node
that could run. -/
theorem result_turn (hg : g.Sound) (hfits : context.binding.Fits g start.world)
    (hlive : context.cancelled start.world.environment = false) (hworkers : 1 ≤ workers)
    (h : Follows g context.binding start s done now) (hid : id < g.nodes.length)
    (hmissing : id ∉ done) :
    (∃ after ended next, Follows g context.binding start after (done ++ [ended]) next ∧
      Flow.result (turn g context (TaskGraph.compile g) workers s) now.world =
        (.ok after, next.world)) ∨
    ∃ failed e last, g.Ready done failed ∧ Fails g context.binding now failed e ∧
      Flow.result (turn g context (TaskGraph.compile g) workers s) now.world =
        (.error (.error e), last) := by
  obtain ⟨started, filled, fault, hfill, hfilling⟩ := exists_filling g context workers s
  obtain ⟨rfl, hfollows, hbusy⟩ := h.filling hfilling hg hfits
  have hpos := hfollows.tallied.running_pos hg.toValid hworkers hbusy hid hmissing
  have hlt := Nat.mod_lt (context.schedule.next filled.completed) hpos
  have hended := List.getElem?_eq_getElem hlt
  generalize filled.running[context.schedule.next filled.completed % filled.running.length] = ended
    at hended
  obtain ⟨bound, hcalled⟩ := hfollows.running ended (List.mem_of_getElem? hended)
  have hnow := hfollows.ran.fits hfits
  obtain ⟨actor', bound', hactor', hbound', hisolated⟩ :=
    hnow.bound ended.node.id (List.getElem?_eq_some_iff.mp hcalled.node_eq).1
  obtain rfl := Option.some.inj (hactor'.symm.trans hcalled.actor_eq)
  obtain rfl := Option.some.inj (hbound'.symm.trans hcalled.bound_eq)
  have hexecute := result_execute hbound' hisolated ended.node ended.inputs
  have hquiet : context.cancelled now.world.environment = false := by
    rw [hfollows.ran.environment]
    exact hlive
  have hlater : context.notices filled.completed (now.world.setFit ended.actor
      (ended.node.work bound' now.world.environment ended.inputs).2.fit).environment = false :=
    not_notices_of_live hquiet filled.completed
  cases hwork : (ended.node.work bound' now.world.environment ended.inputs).1 with
  | ok outputs =>
    rw [hwork] at hexecute
    have hturn := result_turn_of_ended (TaskGraph.compile g) hfill hquiet rfl hended hexecute
    simp only [hlater, Halt.mapError] at hturn
    have hruns := Runs.intro hcalled hwork
    exact .inl ⟨_, ended.node.id, _, hfollows.complete hg hfits hended hruns rfl, hturn⟩
  | error halt =>
    rw [hwork] at hexecute
    have hturn := result_turn_of_ended (TaskGraph.compile g) hfill hquiet rfl hended hexecute
    simp only [hlater, Halt.mapError] at hturn
    have hready := hfollows.tallied.ready_running (List.mem_of_getElem? hended)
    have hfails : Fails g context.binding now ended.node.id (reported ended.node.label halt) :=
      ⟨ended.node, ended.actor, bound', ended.inputs, halt, hcalled, hwork, rfl⟩
    cases halt with
    | crash => exact .inr ⟨ended.node.id, _, _, hready, hfails, hturn⟩
    | error e => exact .inr ⟨ended.node.id, _, _, hready, hfails, hturn⟩

/-- A run goes on until all nodes have run, each after its dependencies, unless a node that could
run fails. -/
theorem result_turns (hg : g.Sound) (hfits : context.binding.Fits g start.world)
    (hlive : context.cancelled start.world.environment = false) (hworkers : 1 ≤ workers)
    {left : Nat} (h : Follows g context.binding start s done now)
    (hleft : done.length + left = g.nodes.length) :
    (∃ last all final, g.Begun all ∧ all.length = g.nodes.length ∧
      RunsAll g context.binding all start final ∧ last.produced = final.produced ∧
      Flow.result (turns g context (TaskGraph.compile g) workers left s) now.world =
        (.ok last, final.world)) ∨
    ∃ before at' failed e last, g.Begun before ∧ RunsAll g context.binding before start at' ∧
      g.Ready before failed ∧ Fails g context.binding at' failed e ∧
      Flow.result (turns g context (TaskGraph.compile g) workers left s) now.world =
        (.error (.error e), last) := by
  induction left generalizing s done now with
  | zero => exact .inl ⟨s, done, now, h.begun, hleft, h.ran, h.produced, rfl⟩
  | succ left ih =>
    obtain ⟨id, hid, hmissing⟩ :=
      exists_notMem_of_length_lt (by omega : done.length < g.nodes.length)
    rw [turns, Flow.result_bind]
    rcases result_turn hg hfits hlive hworkers h hid hmissing with
      ⟨after, ended, next, hnext, hturn⟩ | ⟨failed, e, last, hready, hfails, hturn⟩
    · rw [hturn]
      exact ih hnext (by rw [List.length_append, List.length_singleton]; omega)
    · rw [hturn]
      exact .inr ⟨done, now, failed, e, last, h.begun, h.ran, hready, hfails, rfl⟩

end Turns

end Distributed

end Dataflow
