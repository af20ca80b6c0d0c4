import Dataflow.Proofs.Validation
import Mathlib.Data.Fintype.EquivFin
import Mathlib.Data.Fintype.Sets
import Mathlib.Logic.Relation

/-!
# Which nodes can be ordered, and in which order

A node is trapped if it lies on a cycle of arcs or behind one (`Arc.Trapped`). Placing free nodes
leaves exactly the trapped ones (`topologicalSort_snd`): a node that waits in vain has an arc from
another such node, so going back from it one comes to a cycle; and a node that is placed stands
behind all nodes from which a path leads to it, so none of these lies on a cycle.

Among all lists that hold the same nodes with every tail before its head, the one that is built is
the first in lexicographic order (`lex_of_placeFree`): its first node is the lowest free one, and any
such list begins with a free node.
-/

set_option autoImplicit false
set_option relaxedAutoImplicit false

namespace Dataflow

variable {ε σ : Type}

/-! ### Paths and cycles -/

namespace Arc

/-- A path of arcs, of at least one, leads from one node to another. -/
def Path (arcs : List Arc) : NodeId → NodeId → Prop :=
  Relation.TransGen fun first second ↦ (first, second) ∈ arcs

/-- A node lies on a cycle, or a path leads to it from one that does. -/
def Trapped (arcs : List Arc) (node : NodeId) : Prop :=
  ∃ other, Path arcs other other ∧ (other = node ∨ Path arcs other node)

variable {arcs : List Arc} {first second node : NodeId}

theorem Trapped.path (h : Trapped arcs first) (hpath : Path arcs first second) :
    Trapped arcs second := by
  obtain ⟨other, hcycle, rfl | hother⟩ := h
  · exact ⟨other, hcycle, .inr hpath⟩
  · exact ⟨other, hcycle, .inr (hother.trans hpath)⟩

/-- Finitely many nodes of which each has an arc from one of them are all trapped. -/
theorem trapped_of_forall_exists {nodes : List NodeId}
    (h : ∀ node ∈ nodes, ∃ other ∈ nodes, (other, node) ∈ arcs) (hnode : node ∈ nodes) :
    Trapped arcs node := by
  -- paths to nodes that are not trapped are a well-founded relation, so one can go back along them
  let Before (a b : {id // id ∈ nodes}) : Prop := Path arcs a.1 b.1 ∧ ¬ Trapped arcs b.1
  have htrans : IsTrans _ Before := ⟨fun _ _ _ hab hbc ↦ ⟨hab.1.trans hbc.1, hbc.2⟩⟩
  have hirrefl : Std.Irrefl Before := ⟨fun a hcycle ↦ hcycle.2 ⟨a.1, hcycle.1, .inl rfl⟩⟩
  have hwf := Finite.wellFounded_of_trans_of_irrefl Before
  refine hwf.induction (C := fun a ↦ Trapped arcs a.1) ⟨node, hnode⟩ fun a ih ↦ ?_
  by_contra hfree
  obtain ⟨other, hother, harc⟩ := h a.1 a.2
  have hpath : Path arcs other a.1 := .single harc
  exact hfree ((ih ⟨other, hother⟩ ⟨hpath, hfree⟩).path hpath)

end Arc

/-! ### What is left over -/

variable {arcs : List Arc} {fuel : Nat} {waiting : List NodeId} {node : NodeId}

/-- The tail of an arc is placed before its head. -/
theorem idxOf_lt_of_arc (hnodup : waiting.Nodup) {arc : Arc} (harc : arc ∈ arcs)
    (hplaced : arc.2 ∈ (placeFree fuel waiting arcs).1) :
    arc.1 ∈ (placeFree fuel waiting arcs).1 ∧ (placeFree fuel waiting arcs).1.idxOf arc.1 <
      (placeFree fuel waiting arcs).1.idxOf arc.2 := by
  have hperm := perm_placeFree fuel waiting arcs
  have hdistinct := (List.nodup_append.mp (hperm.nodup_iff.mpr hnodup)).1
  obtain ⟨front, back, hsplit⟩ := List.append_of_mem hplaced
  have htail := tail_mem_of_placeFree hsplit harc rfl
  rw [hsplit] at hdistinct ⊢
  exact ⟨List.mem_append_left _ htail, idxOf_lt_of_mem_front hdistinct htail⟩

/-- So is a node from which a path leads to a node that is placed. -/
theorem idxOf_lt_of_path (hnodup : waiting.Nodup) {first second : NodeId}
    (hpath : Arc.Path arcs first second) (hplaced : second ∈ (placeFree fuel waiting arcs).1) :
    first ∈ (placeFree fuel waiting arcs).1 ∧ (placeFree fuel waiting arcs).1.idxOf first <
      (placeFree fuel waiting arcs).1.idxOf second := by
  induction hpath with
  | single harc => exact idxOf_lt_of_arc hnodup harc hplaced
  | tail _ harc ih =>
    obtain ⟨hmiddle, hlt⟩ := idxOf_lt_of_arc hnodup harc hplaced
    exact ⟨(ih hmiddle).1, (ih hmiddle).2.trans hlt⟩

/-- A node that is placed is not trapped. -/
theorem not_trapped_of_placed (hnodup : waiting.Nodup)
    (hplaced : node ∈ (placeFree fuel waiting arcs).1) : ¬ Arc.Trapped arcs node := by
  rintro ⟨other, hcycle, hother⟩
  have hmem : other ∈ (placeFree fuel waiting arcs).1 := by
    rcases hother with rfl | hpath
    · exact hplaced
    · exact (idxOf_lt_of_path hnodup hpath hplaced).1
  exact Nat.lt_irrefl _ (idxOf_lt_of_path hnodup hcycle hmem).2

/-- A node that waits in vain has an arc from such a node, if all arcs leave waiting nodes. -/
theorem exists_arc_of_stuck (hfuel : waiting.length ≤ fuel)
    (htails : ∀ arc ∈ arcs, arc.1 ∈ waiting) (hnode : node ∈ (placeFree fuel waiting arcs).2) :
    ∃ other ∈ (placeFree fuel waiting arcs).2, (other, node) ∈ arcs := by
  induction fuel generalizing waiting arcs with
  | zero =>
    rw [List.eq_nil_of_length_eq_zero (Nat.le_zero.mp hfuel)] at hnode
    cases hnode
  | succ fuel ih =>
    rw [placeFree] at hnode ⊢
    cases hfree : waiting.find? (isFree arcs) with
    | none =>
      rw [hfree] at hnode
      have hbusy := List.find?_eq_none.mp hfree node hnode
      simp only [isFree, List.all_eq_true, bne_iff_ne, ne_eq, not_forall, not_not] at hbusy
      obtain ⟨⟨other, head⟩, harc, rfl⟩ := hbusy
      exact ⟨other, htails _ harc, harc⟩
    | some next =>
      rw [hfree] at hnode
      have hmem : next ∈ waiting := List.mem_of_find?_eq_some hfree
      have hlength : (waiting.erase next).length ≤ fuel := by
        rw [List.length_erase_of_mem hmem]
        omega
      obtain ⟨other, hother, harc⟩ := ih hlength (fun arc harc ↦ by
        obtain ⟨harc, hne⟩ := List.mem_filter.mp harc
        exact (List.mem_erase_of_ne (bne_iff_ne.mp hne)).mpr (htails arc harc)) hnode
      exact ⟨other, hother, (List.mem_filter.mp harc).1⟩

/-- The nodes left over stand in the order in which they waited. -/
theorem sublist_placeFree (fuel : Nat) (waiting : List NodeId) (arcs : List Arc) :
    (placeFree fuel waiting arcs).2.Sublist waiting := by
  induction fuel generalizing waiting arcs with
  | zero => exact List.Sublist.refl waiting
  | succ fuel ih =>
    rw [placeFree]
    cases waiting.find? (isFree arcs) with
    | none => exact List.Sublist.refl waiting
    | some next => exact (ih _ _).trans List.erase_sublist

open Classical in
/-- The nodes that cannot be ordered are the trapped ones, in increasing order. -/
theorem topologicalSort_snd {count : Nat} (htails : ∀ arc ∈ arcs, arc.1 < count) :
    (topologicalSort count arcs).2 = (List.range count).filter (Arc.Trapped arcs ·) := by
  have hperm := perm_placeFree count (List.range count) arcs
  have hsub := sublist_placeFree count (List.range count) arcs
  have hmem : ∀ id, id ∈ (topologicalSort count arcs).2 ↔
      id ∈ (List.range count).filter (Arc.Trapped arcs ·) := by
    intro id
    rw [List.mem_filter, decide_eq_true_eq]
    constructor
    · intro hid
      refine ⟨hsub.subset hid, Arc.trapped_of_forall_exists (fun other hother ↦ ?_) hid⟩
      exact exists_arc_of_stuck (Nat.le_of_eq List.length_range)
        (fun arc harc ↦ List.mem_range.mpr (htails arc harc)) hother
    · rintro ⟨hid, htrapped⟩
      refine (List.mem_append.mp (hperm.mem_iff.mpr hid)).resolve_left fun hplaced ↦ ?_
      exact not_trapped_of_placed List.nodup_range hplaced htrapped
  -- both lists increase
  have hincreasing := List.pairwise_lt_range (n := count)
  have hsorted := hincreasing.sublist hsub
  have hsorted' := hincreasing.filter (Arc.Trapped arcs ·)
  have hsame := (List.perm_ext_iff_of_nodup (hsorted.imp Nat.ne_of_lt)
    (hsorted'.imp Nat.ne_of_lt)).mpr hmem
  exact hsame.eq_of_pairwise (fun _ _ _ _ hab hba ↦ absurd hba (Nat.lt_asymm hab)) hsorted hsorted'

/-! ### Nodes that cannot be ordered -/

/-- If nodes are numbered by position, the nodes at some positions are those with these numbers. -/
theorem filterMap_getElem?_eq_filter {nodes : List (Node ε σ)}
    (hids : ∀ (k : Nat) (node : Node ε σ), nodes[k]? = some node → node.id = k) (p : NodeId → Bool) :
    ((List.range nodes.length).filter p).filterMap (nodes[·]?) = nodes.filter (p ·.id) := by
  have hguard : ∀ k, (if p k then nodes[k]? else none) = (nodes[k]?).filter (p ·.id) := by
    intro k
    cases hnode : nodes[k]? with
    | none => simp
    | some node => simp [Option.filter, hids k node hnode]
  have hall : (List.range nodes.length).map (nodes[·]?) = nodes.map some :=
    List.ext_getElem (by simp) (by simp)
  rw [List.filterMap_filter, List.filterMap_congr fun k _ ↦ hguard k]
  change (List.range nodes.length).filterMap (Option.filter (p ·.id) ∘ (nodes[·]?)) = _
  rw [← List.filterMap_map, hall, List.filterMap_map, ← List.filterMap_eq_filter]
  rfl

/-- Nodes that are numbered by position stand in increasing order. -/
theorem pairwise_id_lt {nodes : List (Node ε σ)}
    (hids : ∀ (k : Nat) (node : Node ε σ), nodes[k]? = some node → node.id = k) :
    nodes.Pairwise (·.id < ·.id) := by
  refine List.pairwise_iff_getElem.mpr fun i j hi hj hij ↦ ?_
  rwa [hids i _ (List.getElem?_eq_getElem hi), hids j _ (List.getElem?_eq_getElem hj)]

section

variable {nodes : List (Node ε σ)} {edges : List Edge}

/-- The tail of a path exists if all edges leave nodes that do. -/
theorem Arc.Path.fst_lt (h : ∀ edge ∈ edges, edge.tail < nodes.length) {first second : NodeId}
    (hpath : Arc.Path (edges.map Edge.arc) first second) : first < nodes.length := by
  obtain ⟨next, harc, -⟩ := Relation.TransGen.head'_iff.mp hpath
  obtain ⟨edge, hedge, heq⟩ := List.mem_map.mp harc
  rw [← (Prod.mk.inj heq).1]
  exact h edge hedge

open Classical in
/-- The trapped nodes are those that cannot be placed. -/
theorem filter_trapped (hids : ∀ (k : Nat) (node : Node ε σ), nodes[k]? = some node → node.id = k)
    (htails : ∀ edge ∈ edges, edge.tail < nodes.length) :
    nodes.filter (Arc.Trapped (edges.map Edge.arc) ·.id) =
      (topologicalSort nodes.length (edges.map Edge.arc)).2.filterMap (nodes[·]?) := by
  rw [topologicalSort_snd, filterMap_getElem?_eq_filter hids fun id ↦
    decide (Arc.Trapped (edges.map Edge.arc) id)]
  intro arc harc
  obtain ⟨edge, hedge, rfl⟩ := List.mem_map.mp harc
  exact htails edge hedge

open Classical in
/-- Nodes are ordered if none of them is trapped. Otherwise those that are trapped are named. -/
theorem orderNodes_eq (hids : ∀ (k : Nat) (node : Node ε σ), nodes[k]? = some node → node.id = k)
    (htails : ∀ edge ∈ edges, edge.tail < nodes.length) :
    orderNodes nodes edges =
      if nodes.filter (Arc.Trapped (edges.map Edge.arc) ·.id) = [] then
        .ok (topologicalSort nodes.length (edges.map Edge.arc)).1
      else .error (.cyclicGraph
        ((nodes.filter (Arc.Trapped (edges.map Edge.arc) ·.id)).map Node.label)) := by
  have hsub : (topologicalSort nodes.length (edges.map Edge.arc)).2.Sublist
      (List.range nodes.length) := sublist_placeFree _ _ _
  rw [filter_trapped hids htails, orderNodes]
  rcases hsort : topologicalSort nodes.length (edges.map Edge.arc) with
    ⟨placed, _ | ⟨first, rest⟩⟩
  · rfl
  · rw [hsort] at hsub
    have hfirst := List.mem_range.mp (hsub.subset List.mem_cons_self)
    rw [if_neg]
    simp [List.getElem?_eq_getElem hfirst]

/-- There is an order just if there is no cycle. -/
theorem exists_order_iff (hids : ∀ (k : Nat) (node : Node ε σ), nodes[k]? = some node → node.id = k)
    (htails : ∀ edge ∈ edges, edge.tail < nodes.length) :
    (∃ order, orderNodes nodes edges = .ok order) ↔
      ∀ id, ¬ Arc.Path (edges.map Edge.arc) id id := by
  classical
  rw [orderNodes_eq hids htails]
  constructor
  · rintro ⟨order, horder⟩ id hcycle
    have hnone : nodes.filter (Arc.Trapped (edges.map Edge.arc) ·.id) = [] := by
      by_contra hsome
      rw [if_neg hsome] at horder
      cases horder
    have hget := List.getElem?_eq_getElem (hcycle.fst_lt htails)
    refine List.filter_eq_nil_iff.mp hnone _ (List.mem_of_getElem? hget) ?_
    rw [decide_eq_true_eq, hids _ _ hget]
    exact ⟨id, hcycle, .inl rfl⟩
  · intro hacyclic
    refine ⟨_, if_pos (List.filter_eq_nil_iff.mpr fun node _ htrapped ↦ ?_)⟩
    obtain ⟨other, hcycle, -⟩ := of_decide_eq_true htrapped
    exact hacyclic other hcycle

/-- If there is none, the trapped nodes are named by increasing number. -/
theorem orderNodes_eq_error
    (hids : ∀ (k : Nat) (node : Node ε σ), nodes[k]? = some node → node.id = k)
    (htails : ∀ edge ∈ edges, edge.tail < nodes.length) {e : FlowError}
    (h : orderNodes nodes edges = .error e) :
    ∃ stuck : List (Node ε σ), e = .cyclicGraph (stuck.map Node.label) ∧
      stuck.Pairwise (·.id < ·.id) ∧
      ∀ node, node ∈ stuck ↔ node ∈ nodes ∧ Arc.Trapped (edges.map Edge.arc) node.id := by
  classical
  rw [orderNodes_eq hids htails] at h
  split_ifs at h
  refine ⟨_, (Except.error.inj h).symm, (pairwise_id_lt hids).filter _, fun node ↦ ?_⟩
  rw [List.mem_filter, decide_eq_true_eq]

end

/-! ### The least order -/

/-- In an increasing list the first element that is found is the least. -/
theorem le_of_find?_eq_some {l : List Nat} {p : Nat → Bool} {found other : Nat}
    (hsorted : l.Pairwise (· < ·)) (hfound : l.find? p = some found) (hmem : other ∈ l)
    (hother : p other = true) : found ≤ other := by
  obtain ⟨-, front, back, rfl, hfront⟩ := List.find?_eq_some_iff_append.mp hfound
  rcases List.mem_append.mp hmem with hmem | hmem
  · have hno := hfront other hmem
    rw [hother] at hno
    cases hno
  · rcases List.mem_cons.mp hmem with rfl | hmem
    · exact Nat.le_refl _
    · have hback := (List.pairwise_cons.mp (List.pairwise_append.mp hsorted).2.1).1 other hmem
      exact Nat.le_of_lt hback

/-- Any other list of the waiting nodes in which tails stand before their heads comes later in
lexicographic order. -/
theorem lex_of_placeFree (hfuel : waiting.length ≤ fuel) (hsorted : waiting.Pairwise (· < ·))
    {other : List NodeId} (hperm : other.Perm waiting)
    (htail : ∀ front back head, other = front ++ head :: back →
      ∀ arc ∈ arcs, arc.2 = head → arc.1 ∈ front)
    (hne : (placeFree fuel waiting arcs).1 ≠ other) :
    List.Lex (· < ·) (placeFree fuel waiting arcs).1 other := by
  induction fuel generalizing waiting arcs other with
  | zero =>
    rw [List.eq_nil_of_length_eq_zero (Nat.le_zero.mp hfuel)] at hperm
    exact absurd hperm.eq_nil.symm hne
  | succ fuel ih =>
    cases other with
    | nil =>
      rw [← hperm.nil_eq] at hne
      exact absurd rfl hne
    | cons first rest =>
      -- the other list begins with a free node
      have hfirst : isFree arcs first = true := by
        refine List.all_eq_true.mpr fun arc harc ↦ bne_iff_ne.mpr fun hhead ↦ ?_
        cases htail [] rest first rfl arc harc hhead
      have hmem : first ∈ waiting := hperm.subset List.mem_cons_self
      rw [placeFree] at hne ⊢
      cases hfree : waiting.find? (isFree arcs) with
      | none => exact absurd hfirst (List.find?_eq_none.mp hfree first hmem)
      | some next =>
        rw [hfree] at hne
        rcases Nat.lt_or_eq_of_le (le_of_find?_eq_some hsorted hfree hmem hfirst) with hlt | rfl
        · exact .rel hlt
        refine .cons (ih ?_ (hsorted.sublist List.erase_sublist) ?_ ?_ fun hsame ↦ ?_)
        · rw [List.length_erase_of_mem hmem]
          omega
        · exact (hperm.trans (List.perm_cons_erase hmem)).cons_inv
        · intro front back head hrest arc harc hhead
          obtain ⟨harc, hother⟩ := List.mem_filter.mp harc
          have hfront := htail (next :: front) back head (congrArg _ hrest) arc harc hhead
          exact (List.mem_cons.mp hfront).resolve_left (bne_iff_ne.mp hother)
        · exact hne (congrArg _ hsame)

/-- Of all orders, the one that is found comes first. -/
theorem Orders.lex {count : Nat} {edges : List Edge} {order other : List NodeId}
    (horder : topologicalSort count (edges.map Edge.arc) = (order, []))
    (hother : Orders count edges other) (hne : other ≠ order) : List.Lex (· < ·) order other := by
  obtain rfl : (topologicalSort count (edges.map Edge.arc)).1 = order := congrArg Prod.fst horder
  refine lex_of_placeFree (Nat.le_of_eq List.length_range) List.pairwise_lt_range hother.perm ?_
    hne.symm
  intro front back head hsplit arc harc hhead
  obtain ⟨edge, hedge, rfl⟩ := List.mem_map.mp harc
  exact hother.tail_mem front back head hsplit edge hedge hhead

end Dataflow
