import Dataflow.Graph.Basic
import Mathlib.Data.List.Basic
import Mathlib.Tactic.SplitIfs

/-!
# What validation establishes

A graph that passes validation can be run. Its order holds every node once, and each node after the
tails of all edges into it (`Orders`, `orders_of_topologicalSort`). Every declared input port of a
node is bound (`Saturated`). Source and sink are the only nodes of their kind (`id_of_single`).

If all edges go from lower to higher nodes, the order is just the node order
(`topologicalSort_of_ascending`).
-/

set_option autoImplicit false
set_option relaxedAutoImplicit false

namespace Dataflow

variable {ε σ : Type}

/-! ### Placing free nodes -/

/-- The nodes placed and those still waiting are the nodes that waited. -/
theorem perm_placeFree (fuel : Nat) (waiting : List NodeId) (arcs : List Arc) :
    ((placeFree fuel waiting arcs).1 ++ (placeFree fuel waiting arcs).2).Perm waiting := by
  induction fuel generalizing waiting arcs with
  | zero => exact List.Perm.refl waiting
  | succ fuel ih =>
    rw [placeFree]
    cases hfree : waiting.find? (isFree arcs) with
    | none => exact List.Perm.refl waiting
    | some node =>
      have hmem : node ∈ waiting := List.mem_of_find?_eq_some hfree
      exact ((ih (waiting.erase node) _).cons node).trans (List.perm_cons_erase hmem).symm

/-- What stands in a list without repetition does not stand in front of itself. -/
theorem notMem_front_of_nodup {α : Type} {front back : List α} {a : α}
    (h : (front ++ a :: back).Nodup) : a ∉ front :=
  fun hmem ↦ (List.nodup_append.mp h).2.2 a hmem a List.mem_cons_self rfl

/-- What stands in front of a node comes before it. -/
theorem idxOf_lt_of_mem_front {front back : List NodeId} {tail head : NodeId}
    (hnodup : (front ++ head :: back).Nodup) (htail : tail ∈ front) :
    (front ++ head :: back).idxOf tail < (front ++ head :: back).idxOf head := by
  rw [List.idxOf_append_of_mem htail,
    List.idxOf_append_of_notMem (notMem_front_of_nodup hnodup), List.idxOf_cons_self, Nat.add_zero]
  exact List.idxOf_lt_length_of_mem htail

/-- A node is placed after the tails of all arcs that enter it. -/
theorem tail_mem_of_placeFree {fuel : Nat} {waiting : List NodeId} {arcs : List Arc}
    {front back : List NodeId} {head : NodeId}
    (h : (placeFree fuel waiting arcs).1 = front ++ head :: back) {arc : Arc} (harc : arc ∈ arcs)
    (hhead : arc.2 = head) : arc.1 ∈ front := by
  induction fuel generalizing waiting arcs front with
  | zero => simp [placeFree] at h
  | succ fuel ih =>
    rw [placeFree] at h
    cases hfree : waiting.find? (isFree arcs) with
    | none => simp [hfree] at h
    | some node =>
      rw [hfree] at h
      cases front with
      | nil =>
        -- the first node placed is free, so no arc enters it
        obtain ⟨rfl, -⟩ := List.cons.inj h
        have hfree : isFree arcs node = true := List.find?_some hfree
        have hnone := List.all_eq_true.mp hfree arc harc
        simp [hhead] at hnone
      | cons first front =>
        obtain ⟨rfl, hrest⟩ := List.cons.inj h
        by_cases htail : arc.1 = node
        · rw [htail]
          exact List.mem_cons_self
        · have hkept : arc ∈ arcs.filter (·.1 != node) := by
            simp [harc, htail]
          exact List.mem_cons_of_mem _ (ih hrest hkept)

/-- Nodes of which each arc enters a higher one are placed in their own order. -/
theorem placeFree_range' (fuel start count : Nat) {arcs : List Arc} (hfuel : count ≤ fuel)
    (hlow : ∀ arc ∈ arcs, start ≤ arc.1) (hup : ∀ arc ∈ arcs, arc.1 < arc.2) :
    placeFree fuel (List.range' start count) arcs = (List.range' start count, []) := by
  induction fuel generalizing start count arcs with
  | zero =>
    obtain rfl : count = 0 := by omega
    rfl
  | succ fuel ih =>
    cases count with
    | zero => rfl
    | succ count =>
      have hfree : isFree arcs start = true := by
        refine List.all_eq_true.mpr fun arc harc ↦ ?_
        have h₁ : start ≤ arc.1 := hlow arc harc
        have h₂ := hup arc harc
        rw [bne_iff_ne]
        exact Nat.ne_of_gt (Nat.lt_of_le_of_lt h₁ h₂)
      have hlow' : ∀ arc ∈ arcs.filter (·.1 != start), start + 1 ≤ arc.1 := by
        intro arc harc
        obtain ⟨hmem, hne⟩ := List.mem_filter.mp harc
        exact Nat.lt_of_le_of_ne (hlow arc hmem) (Ne.symm (bne_iff_ne.mp hne))
      have hup' : ∀ arc ∈ arcs.filter (·.1 != start), arc.1 < arc.2 := fun arc harc ↦
        hup arc (List.mem_filter.mp harc).1
      have hrest := ih (start + 1) count (by omega) hlow' hup'
      rw [List.range'_succ, placeFree, List.find?_cons_of_pos hfree]
      simp only [List.erase_cons_head, hrest]

/-- If every arc enters a higher node, the nodes are ordered by their number. -/
theorem topologicalSort_of_ascending (count : Nat) {arcs : List Arc}
    (h : ∀ arc ∈ arcs, arc.1 < arc.2) : topologicalSort count arcs = (List.range count, []) := by
  unfold topologicalSort
  rw [List.range_eq_range']
  exact placeFree_range' count 0 count (Nat.le_refl _) (fun _ _ ↦ Nat.zero_le _) h

/-! ### The order of a graph -/

/-- An order holds every node once, and each node after the tails of all edges into it. -/
structure Orders (count : Nat) (edges : List Edge) (order : List NodeId) : Prop where
  perm : order.Perm (List.range count)
  tail_mem : ∀ (front back : List NodeId) (head : NodeId), order = front ++ head :: back →
    ∀ edge ∈ edges, edge.head = head → edge.tail ∈ front

theorem topologicalSort_of_orderNodes {nodes : List (Node ε σ)} {edges : List Edge}
    {order : List NodeId} (h : orderNodes nodes edges = .ok order) :
    topologicalSort nodes.length (edges.map Edge.arc) = (order, []) := by
  unfold orderNodes at h
  rcases hsort : topologicalSort nodes.length (edges.map Edge.arc) with ⟨placed, _ | ⟨stuck, rest⟩⟩
  · rw [hsort] at h
    obtain rfl : placed = order := Except.ok.inj h
    rfl
  · rw [hsort] at h
    cases h

theorem orders_of_topologicalSort {count : Nat} {edges : List Edge} {order : List NodeId}
    (h : topologicalSort count (edges.map Edge.arc) = (order, [])) : Orders count edges order where
  perm := by
    have hperm := perm_placeFree count (List.range count) (edges.map Edge.arc)
    rw [topologicalSort] at h
    rwa [h, List.append_nil] at hperm
  tail_mem := by
    intro front back head horder edge hedge hhead
    rw [topologicalSort] at h
    have harc : edge.arc ∈ edges.map Edge.arc := List.mem_map_of_mem hedge
    exact tail_mem_of_placeFree ((congrArg Prod.fst h).trans horder) harc hhead

/-! ### Ports -/

/-- Every input port that a node declares is bound. -/
def Saturated (nodes : List (Node ε σ)) (edges : List Edge) : Prop :=
  ∀ node ∈ nodes, ∀ input < node.arity.inputs, (boundPort? edges node.id input).isSome = true

theorem saturated_of_checkPorts {nodes : List (Node ε σ)} {edges : List Edge}
    (h : checkPorts nodes edges = .ok ()) : Saturated nodes edges := by
  have hnone : nodes.findSome? (misbound? edges) = none := by
    unfold checkPorts at h
    split at h <;> simp_all
  intro node hnode input hinput
  have hfaulty := List.findSome?_eq_none_iff.mp hnone node hnode
  have hone : bindings edges node.id input = 1 := by
    rw [misbound?, Option.map_eq_none_iff, List.find?_eq_none] at hfaulty
    simpa using hfaulty input (List.mem_range.mpr hinput)
  have hpos : 0 < bindings edges node.id input := by
    rw [hone]
    exact Nat.one_pos
  obtain ⟨edge, hedge, hfeeds⟩ := List.countP_pos_iff.mp hpos
  rw [boundPort?, List.findSome?_isSome_iff]
  exact ⟨edge, hedge, hfeeds⟩

/-- What `validate` has checked when it succeeds. -/
theorem validate_eq_ok {nodes : List (Node ε σ)} {edges : List Edge} {found : Validated}
    (h : validate nodes edges = .ok found) :
    orderNodes nodes edges = .ok found.order ∧ checkPorts nodes edges = .ok () ∧
      single nodes .source = .ok found.source ∧ single nodes .sink = .ok found.sink := by
  unfold validate at h
  cases horder : orderNodes nodes edges with
  | error e => simp [horder, bind, Except.bind] at h
  | ok order =>
    cases hports : checkPorts nodes edges with
    | error e => simp [horder, hports, bind, Except.bind] at h
    | ok u =>
      cases hsource : single nodes .source with
      | error e => simp [horder, hports, hsource, bind, Except.bind] at h
      | ok source =>
        cases hsink : single nodes .sink with
        | error e => simp [horder, hports, hsource, hsink, bind, Except.bind] at h
        | ok sink =>
          obtain rfl : Validated.mk order source sink = found := by
            simpa [horder, hports, hsource, hsink, bind, Except.bind, pure, Except.pure] using h
          exact ⟨rfl, rfl, rfl, rfl⟩

/-- A node of the kind that stands alone is the one that is found. -/
theorem id_of_single {nodes : List (Node ε σ)} {kind : NodeKind} {id : NodeId}
    (h : single nodes kind = .ok id) {node : Node ε σ} (hnode : node ∈ nodes)
    (hkind : node.kind = kind) : node.id = id := by
  unfold single at h
  have hmem : node ∈ nodes.filter (·.kind == kind) := by
    simp [hnode, hkind]
  split at h
  · rename_i only honly
    rw [honly, List.mem_singleton] at hmem
    rw [hmem]
    exact Except.ok.inj h
  · cases h
  · cases h

end Dataflow
