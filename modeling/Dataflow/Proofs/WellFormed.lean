import Dataflow.Proofs.Tabulation

/-!
# Which builders can be built

A builder is well formed if its edges have no cycle, every input port that a node declares is bound,
and there are exactly one source and one sink (`Builder.WellFormed`). These are the builders that a
graph can be made of; of any other, the first condition that it violates is reported
(`Builder.Fault`, `Builder.Assembled.build_exact`). That an input port is bound twice, or not
declared, is never reported, since no builder gets there.

What the graph tells of its nodes is then what the edges say: a node has as many inputs as it
declares, each the port that is bound to it, and it depends on the distinct tails of the edges into
it.
-/

set_option autoImplicit false
set_option relaxedAutoImplicit false

namespace Dataflow

variable {ε σ : Type} {nodes : List (Node ε σ)} {edges : List Edge}

/-! ### Bound ports -/

/-- A port is bound to an input port just if an edge brings it there, if at most one edge does. -/
theorem boundPort?_eq_some_iff {head : NodeId} {input : Nat} {tail : PortRef}
    (h : bindings edges head input ≤ 1) :
    boundPort? edges head input = some tail ↔ .data tail head input ∈ edges := by
  have hfeeds : ∀ edge : Edge, edge.feeds? head input = some tail ↔ edge = .data tail head input := by
    intro edge
    cases edge with
    | data other h i => simp [Edge.feeds?, and_comm, and_assoc]
    | state other h => simp [Edge.feeds?]
  have hmem : tail ∈ feeders edges head input ↔ .data tail head input ∈ edges := by
    simp [feeders, hfeeds]
  rw [bindings_eq_length] at h
  rw [boundPort?_eq_head?, ← hmem]
  cases hfeeders : feeders edges head input with
  | nil => simp
  | cons port rest =>
    rw [hfeeders, List.length_cons] at h
    obtain rfl : rest = [] := List.eq_nil_of_length_eq_zero (by omega)
    simp [eq_comm]

/-! ### The checks one by one -/

/-- If each input port of a node is bound at most once, what is wrong with the node is that one is
not bound. -/
theorem misbound?_eq {node : Node ε σ} (h : ∀ input, bindings edges node.id input ≤ 1) :
    misbound? edges node =
      ((List.range node.arity.inputs).find? (boundPort? edges node.id · = none)).map fun input ↦
        .composition node.label s!"input port {input} has 0 predecessors, expected exactly 1" := by
  have hsame : (List.range node.arity.inputs).find? (bindings edges node.id · ≠ 1) =
      (List.range node.arity.inputs).find? (boundPort? edges node.id · = none) := by
    congr 1
    funext input
    have hle := h input
    rw [decide_eq_decide, ← bindings_eq_zero_iff]
    omega
  rw [misbound?, hsame]
  cases hfind : (List.range node.arity.inputs).find? (boundPort? edges node.id · = none) with
  | none => rfl
  | some input =>
    have hzero : bindings edges node.id input = 0 :=
      bindings_eq_zero_iff.mpr (by simpa using List.find?_some hfind)
    simp only [Option.map_some, hzero, String.append_assoc]
    rfl

theorem misbound?_eq_none_iff {node : Node ε σ} (h : ∀ input, bindings edges node.id input ≤ 1) :
    misbound? edges node = none ↔
      ∀ input < node.arity.inputs, boundPort? edges node.id input ≠ none := by
  rw [misbound?_eq h, Option.map_eq_none_iff, List.find?_eq_none]
  simp

/-- Ports pass just if all that are declared are bound. -/
theorem checkPorts_eq_ok_iff (hslotted : Slotted nodes edges) :
    checkPorts nodes edges = .ok () ↔ Saturated nodes edges := by
  refine ⟨saturated_of_checkPorts, fun hsaturated ↦ ?_⟩
  have hnone : nodes.findSome? (misbound? edges) = none := by
    refine List.findSome?_eq_none_iff.mpr fun node hnode ↦ ?_
    refine (misbound?_eq_none_iff (hslotted.bindings_le node.id)).mpr fun input hinput ↦ ?_
    exact Option.isSome_iff_ne_none.mp (hsaturated node hnode input hinput)
  rw [checkPorts_of_declared hslotted.declared, hnone]

/-- The first input port that is not bound: those of lower nodes are, and lower ones of the same
node. -/
structure FirstUnbound (nodes : List (Node ε σ)) (edges : List Edge) (node : Node ε σ)
    (input : Nat) : Prop where
  mem : node ∈ nodes
  lt : input < node.arity.inputs
  unbound : boundPort? edges node.id input = none
  lower : ∀ other ∈ nodes, ∀ i < other.arity.inputs,
    other.id < node.id ∨ other.id = node.id ∧ i < input → boundPort? edges other.id i ≠ none

/-- Otherwise the first one that is not bound is reported. -/
theorem exists_firstUnbound (hlinked : Linked nodes edges) (hslotted : Slotted nodes edges)
    {e : FlowError} (h : checkPorts nodes edges = .error e) :
    ∃ node input, FirstUnbound nodes edges node input ∧ e = .composition node.label
      s!"input port {input} has 0 predecessors, expected exactly 1" := by
  rw [checkPorts_of_declared hslotted.declared] at h
  cases hfaulty : nodes.findSome? (misbound? edges) with
  | none =>
    rw [hfaulty] at h
    cases h
  | some e' =>
    rw [hfaulty] at h
    obtain rfl : e' = e := Except.error.inj h
    obtain ⟨front, node, back, hsplit, hnode, hfront⟩ := List.findSome?_eq_some_iff.mp hfaulty
    rw [misbound?_eq (hslotted.bindings_le node.id)] at hnode
    obtain ⟨input, hinput, rfl⟩ := Option.map_eq_some_iff.mp hnode
    obtain ⟨hunbound, hlt, hlower⟩ := List.find?_range_eq_some.mp hinput
    have hmem : node ∈ nodes := hsplit ▸ List.mem_append_right _ List.mem_cons_self
    refine ⟨node, input, ⟨hmem, List.mem_range.mp hlt, of_decide_eq_true hunbound, ?_⟩, rfl⟩
    rintro other hother i hi (hbefore | ⟨hid, hi'⟩)
    · -- a lower node stands before the one that is reported, so nothing was found wrong with it
      have hsorted := pairwise_id_lt hlinked.id_eq
      rw [hsplit] at hother hsorted
      obtain ⟨-, hback, -⟩ := List.pairwise_append.mp hsorted
      have hfirst : other ∈ front := by
        refine (List.mem_append.mp hother).resolve_right fun hother ↦ ?_
        rcases List.mem_cons.mp hother with rfl | hother
        · exact Nat.lt_irrefl _ hbefore
        · exact Nat.lt_asymm hbefore ((List.pairwise_cons.mp hback).1 other hother)
      exact (misbound?_eq_none_iff (hslotted.bindings_le other.id)).mp (hfront other hfirst) i hi
    · rw [hid]
      simpa using hlower i hi'

/-- There is a single node of a kind, or none, or more than one. -/
theorem single_cases (nodes : List (Node ε σ)) (kind : NodeKind) :
    (nodes.countP (·.kind == kind) = 1 ∧ ∃ id, single nodes kind = .ok id) ∨
      (nodes.countP (·.kind == kind) = 0 ∧
        single nodes kind = .error (.composition "graph" s!"no {kind.name} node")) ∨
      (1 < nodes.countP (·.kind == kind) ∧
        single nodes kind = .error (.composition "graph" s!"more than one {kind.name} node")) := by
  rw [List.countP_eq_length_filter, single]
  generalize nodes.filter (·.kind == kind) = found
  rcases found with _ | ⟨node, _ | ⟨other, rest⟩⟩
  · exact .inr (.inl ⟨rfl, rfl⟩)
  · exact .inl ⟨rfl, node.id, rfl⟩
  · exact .inr (.inr ⟨by simp, rfl⟩)

namespace Builder

variable {b : Builder ε σ}

/-! ### Well-formed builders -/

/-- What a builder must be for a graph to be made of it. -/
structure WellFormed (b : Builder ε σ) : Prop where
  acyclic : ∀ id, ¬ Arc.Path (b.edges.map Edge.arc) id id
  saturated : Saturated b.nodes b.edges
  source : b.nodes.countP (·.kind == .source) = 1
  sink : b.nodes.countP (·.kind == .sink) = 1

/-- What is wrong with the ends of a builder: there is no source or no sink, or more than one. The
source is looked at first. -/
inductive Misended (b : Builder ε σ) : FlowError → Prop
  | none {kind : NodeKind} (hkind : kind = .source ∨
      kind = .sink ∧ b.nodes.countP (·.kind == .source) = 1)
    (hcount : b.nodes.countP (·.kind == kind) = 0) :
    Misended b (.composition "graph" s!"no {kind.name} node")
  | several {kind : NodeKind} (hkind : kind = .source ∨
      kind = .sink ∧ b.nodes.countP (·.kind == .source) = 1)
    (hcount : 1 < b.nodes.countP (·.kind == kind)) :
    Misended b (.composition "graph" s!"more than one {kind.name} node")

/-- The first condition that a builder violates, as it is reported. With a cycle come the nodes on
it or behind it, and of the input ports that are not bound the first is named. -/
inductive Fault (b : Builder ε σ) : FlowError → Prop
  | cyclic {id : NodeId} (hcycle : Arc.Path (b.edges.map Edge.arc) id id)
    {stuck : List (Node ε σ)} (hsorted : stuck.Pairwise (·.id < ·.id))
    (hstuck : ∀ node, node ∈ stuck ↔
      node ∈ b.nodes ∧ Arc.Trapped (b.edges.map Edge.arc) node.id) :
    Fault b (.cyclicGraph (stuck.map Node.label))
  | unbound (hacyclic : ∀ id, ¬ Arc.Path (b.edges.map Edge.arc) id id) {node : Node ε σ}
    {input : Nat} (hfirst : FirstUnbound b.nodes b.edges node input) :
    Fault b (.composition node.label
      s!"input port {input} has 0 predecessors, expected exactly 1")
  | misended (hacyclic : ∀ id, ¬ Arc.Path (b.edges.map Edge.arc) id id)
    (hsaturated : Saturated b.nodes b.edges) {e : FlowError} (hends : b.Misended e) : Fault b e

/-- There are one source and one sink, or else what is wrong with the ends is found. -/
theorem ends_cases (b : Builder ε σ) :
    ((b.nodes.countP (·.kind == .source) = 1 ∧ b.nodes.countP (·.kind == .sink) = 1) ∧
      ∃ source sink, single b.nodes .source = .ok source ∧ single b.nodes .sink = .ok sink) ∨
    ¬ (b.nodes.countP (·.kind == .source) = 1 ∧ b.nodes.countP (·.kind == .sink) = 1) ∧
      ∃ e, b.Misended e ∧ (single b.nodes .source = .error e ∨
        ∃ source, single b.nodes .source = .ok source ∧ single b.nodes .sink = .error e) := by
  rcases single_cases b.nodes .source with
    ⟨hone, source, hsource⟩ | ⟨hcount, hsource⟩ | ⟨hcount, hsource⟩
  · rcases single_cases b.nodes .sink with
      ⟨hone', sink, hsink⟩ | ⟨hcount, hsink⟩ | ⟨hcount, hsink⟩
    · exact .inl ⟨⟨hone, hone'⟩, source, sink, hsource, hsink⟩
    · exact .inr ⟨fun hones ↦ Nat.one_ne_zero (hones.2.symm.trans hcount), _,
        .none (.inr ⟨rfl, hone⟩) hcount, .inr ⟨source, hsource, hsink⟩⟩
    · exact .inr ⟨fun hones ↦ Nat.ne_of_gt hcount hones.2, _,
        .several (.inr ⟨rfl, hone⟩) hcount, .inr ⟨source, hsource, hsink⟩⟩
  · exact .inr ⟨fun hones ↦ Nat.one_ne_zero (hones.1.symm.trans hcount), _,
      .none (.inl rfl) hcount, .inl hsource⟩
  · exact .inr ⟨fun hones ↦ Nat.ne_of_gt hcount hones.1, _,
      .several (.inl rfl) hcount, .inl hsource⟩

/-- A builder is well formed and has a graph, or else it has a fault, which is reported. -/
theorem Assembled.build_cases (h : b.Assembled) :
    (b.WellFormed ∧ ∃ g, b.build = .ok g) ∨
      ¬ b.WellFormed ∧ ∃ e, b.Fault e ∧ b.build = .error e := by
  have hlinked := h.linked
  have hslotted := h.slotted
  have horders := exists_order_iff hlinked.id_eq hlinked.tail_lt
  have hsaturated := checkPorts_eq_ok_iff hslotted
  rw [build, validate]
  cases horder : orderNodes b.nodes b.edges with
  | error e =>
    obtain ⟨stuck, rfl, hsorted, hstuck⟩ := orderNodes_eq_error hlinked.id_eq hlinked.tail_lt horder
    have hcycle : ¬ ∀ id, ¬ Arc.Path (b.edges.map Edge.arc) id id := by
      rw [← horders, horder]
      rintro ⟨order, horder⟩
      cases horder
    obtain ⟨id, hpath⟩ := not_forall_not.mp hcycle
    exact .inr ⟨fun hwell ↦ hcycle hwell.acyclic, _, .cyclic hpath hsorted hstuck, rfl⟩
  | ok order =>
    have hacyclic := horders.mp ⟨order, horder⟩
    cases hports : checkPorts b.nodes b.edges with
    | error e =>
      obtain ⟨node, input, hfirst, rfl⟩ := exists_firstUnbound hlinked hslotted hports
      refine .inr ⟨fun hwell ↦ ?_, _, .unbound hacyclic hfirst, rfl⟩
      rw [hsaturated.mpr hwell.saturated] at hports
      cases hports
    | ok u =>
      have hsaturated := hsaturated.mp hports
      have hmisended {e : FlowError} (hends : b.Misended e) : b.Fault e :=
        .misended hacyclic hsaturated hends
      rcases b.ends_cases with ⟨⟨hone, hone'⟩, source, sink, hsource, hsink⟩ |
        ⟨hnot, e, hends, hsource | ⟨source, hsource, hsink⟩⟩
      · exact .inl ⟨⟨hacyclic, hsaturated, hone, hone'⟩, _, by rw [hsource, hsink]; rfl⟩
      · exact .inr ⟨fun hwell ↦ hnot ⟨hwell.source, hwell.sink⟩, e, hmisended hends,
          by rw [hsource]; rfl⟩
      · exact .inr ⟨fun hwell ↦ hnot ⟨hwell.source, hwell.sink⟩, e, hmisended hends,
          by rw [hsource, hsink]; rfl⟩

end Builder

/-! ### What is never reported -/

/-- The digits of a number are told from what follows them by a blank. -/
theorem eq_of_toDigits_append_eq {m n : Nat} {rest rest' : List Char}
    (h : Nat.toDigits 10 m ++ ' ' :: rest = Nat.toDigits 10 n ++ ' ' :: rest') :
    m = n ∧ rest = rest' := by
  have hblank : ∀ n, ' ' ∉ Nat.toDigits 10 n := fun n hmem ↦
    absurd (Nat.isDigit_of_mem_toDigits (by decide) (by decide) hmem) (by decide)
  have hlength := congrArg (List.idxOf ' ') h
  simp only [List.idxOf_append_of_notMem (hblank _), List.idxOf_cons_self, Nat.add_zero] at hlength
  obtain ⟨hdigits, hrest⟩ := List.append_inj h hlength
  refine ⟨?_, (List.cons.inj hrest).2⟩
  rw [← Nat.ofDigitChars_toDigits (b := 10) (n := m) (by decide) (by decide), hdigits,
    Nat.ofDigitChars_toDigits (by decide) (by decide)]

/-- The text for a port that is bound a number of times tells the number. -/
theorem eq_of_predecessors_eq {i j m n : Nat}
    (h : s!"input port {i} has {m} predecessors, expected exactly 1" =
      s!"input port {j} has {n} predecessors, expected exactly 1") : m = n := by
  have hlist := congrArg String.toList h
  simp only [String.toList_append, List.append_assoc, List.append_cancel_left_eq] at hlist
  simp only [Nat.toString_eq_repr, Nat.toList_repr] at hlist
  let tail (count : Nat) : List Char :=
    Nat.toDigits 10 count ++ ' ' :: "predecessors, expected exactly 1".toList
  have hport : Nat.toDigits 10 i ++ ' ' :: ("has ".toList ++ tail m) =
      Nat.toDigits 10 j ++ ' ' :: ("has ".toList ++ tail n) := hlist
  have hcount : tail m = tail n := List.append_cancel_left (eq_of_toDigits_append_eq hport).2
  exact (eq_of_toDigits_append_eq hcount).1

theorem head?_append {s : String} {c : Char} (h : s.toList.head? = some c) (t : String) :
    (s ++ t).toList.head? = some c := by
  rw [String.toList_append, List.head?_append, h]
  rfl

namespace Builder.Fault

variable {b : Builder ε σ} {e : FlowError} {label text : String}

/-- The text of a composition error tells of a port that is not bound, or of the ends. -/
theorem text_cases (h : b.Fault (.composition label text)) :
    (∃ input : Nat, text = s!"input port {input} has {0} predecessors, expected exactly 1") ∨
      text.toList.head? = some 'n' ∨ text.toList.head? = some 'm' := by
  cases h with
  | unbound hacyclic hfirst => exact .inl ⟨_, by simp only [String.append_assoc]; rfl⟩
  | misended hacyclic hsaturated hends =>
    cases hends with
    | none => exact .inr (.inl (head?_append (head?_append rfl _) _))
    | several => exact .inr (.inr (head?_append (head?_append rfl _) _))

/-- That a port is not declared is not reported. -/
theorem ne_undeclared (h : b.Fault e) (label : String) (input : Nat) :
    e ≠ .composition label s!"edge into undeclared input port {input}" := by
  rintro rfl
  have hhead : (s!"edge into undeclared input port {input}").toList.head? = some 'e' :=
    head?_append rfl _
  rcases h.text_cases with ⟨other, htext⟩ | hn | hm
  · have hother : (s!"input port {other} has {0} predecessors, expected exactly 1").toList.head? =
        some 'i' := head?_append (head?_append (head?_append (head?_append rfl _) _) _) _
    rw [htext, hother] at hhead
    cases hhead
  · cases hhead.symm.trans hn
  · cases hhead.symm.trans hm

/-- That a port is bound more than once is not reported. -/
theorem ne_bound_again (h : b.Fault e) (label : String) (input : Nat) {count : Nat}
    (hcount : 1 < count) : e ≠ .composition label
      s!"input port {input} has {count} predecessors, expected exactly 1" := by
  rintro rfl
  have hhead : (s!"input port {input} has {count} predecessors, expected exactly 1").toList.head? =
      some 'i' := head?_append (head?_append (head?_append (head?_append rfl _) _) _) _
  rcases h.text_cases with ⟨other, htext⟩ | hn | hm
  · have hzero := eq_of_predecessors_eq htext
    omega
  · cases hhead.symm.trans hn
  · cases hhead.symm.trans hm

end Builder.Fault

/-! ### What a graph tells of its nodes -/

/-- What a graph tells of a node is what the edges say: its inputs are the ports that are bound to
its input ports, one for each, and it depends on the distinct tails of the edges into it. -/
structure Graph.Tells (g : Graph ε σ) (edges : List Edge) (node : Node ε σ) : Prop where
  length_inputs : (g.inputs node.id).length = node.arity.inputs
  inputs_iff : ∀ (input : Nat) (port : PortRef),
    (g.inputs node.id)[input]? = some port ↔ .data port node.id input ∈ edges
  increasing : (g.dependencies node.id).Pairwise (· < ·)
  dependencies_iff : ∀ other, other ∈ g.dependencies node.id ↔
    ∃ edge ∈ edges, edge.head = node.id ∧ edge.tail = other

/-- A list of which every element has a value is as long as the list of the values. -/
theorem map_some_filterMap {α β : Type} {f : α → Option β} {l : List α}
    (h : ∀ a ∈ l, (f a).isSome = true) : (l.filterMap f).map some = l.map f := by
  induction l with
  | nil => rfl
  | cons a rest ih =>
    obtain ⟨ha, hrest⟩ := List.forall_mem_cons.mp h
    obtain ⟨b, hb⟩ := Option.isSome_iff_exists.mp ha
    rw [List.filterMap_cons_some hb, List.map_cons, List.map_cons, ih hrest, hb]

namespace Graph

variable {g : Graph ε σ}

/-- No input port is left out of the inputs. -/
theorem Valid.map_some_inputs (h : g.Valid) {node : Node ε σ} (hnode : node ∈ g.nodes) :
    (g.inputs node.id).map some =
      (List.range node.arity.inputs).map (boundPort? g.edges node.id) := by
  rw [inputs, h.linked.getElem?_id hnode]
  exact map_some_filterMap fun input hinput ↦
    h.saturated node hnode input (List.mem_range.mp hinput)

theorem Valid.tells (h : g.Valid) (hslotted : Slotted g.nodes g.edges) {node : Node ε σ}
    (hnode : node ∈ g.nodes) : g.Tells g.edges node where
  length_inputs := by
    have hlength := congrArg List.length (h.map_some_inputs hnode)
    rwa [List.length_map, List.length_map, List.length_range] at hlength
  inputs_iff input port := by
    have hget := congrArg (·[input]?) (h.map_some_inputs hnode)
    rw [← boundPort?_eq_some_iff (hslotted.bindings_le node.id input)]
    simp only [List.getElem?_map] at hget
    constructor
    · intro hport
      rw [hport] at hget
      obtain ⟨i, hi, hbound⟩ := Option.map_eq_some_iff.mp hget.symm
      obtain ⟨hlt, rfl⟩ := List.getElem?_eq_some_iff.mp hi
      rwa [List.getElem_range] at hbound
    · intro hbound
      obtain ⟨other, hother, hlt⟩ := hslotted.declared port node.id input
        ((boundPort?_eq_some_iff (hslotted.bindings_le node.id input)).mp hbound)
      obtain rfl := Option.some.inj ((h.linked.getElem?_id hnode).symm.trans hother)
      rw [List.getElem?_range hlt, Option.map_some, hbound] at hget
      obtain ⟨found, hfound, heq⟩ := Option.map_eq_some_iff.mp hget
      rwa [Option.some.inj heq] at hfound
  increasing := g.pairwise_dependencies node.id
  dependencies_iff _ := mem_dependencies

/-- The tables that a graph is frozen with tell the same of a node, once empty entries are dropped. -/
theorem Valid.tablesOf_eq (h : g.Valid) {node : Node ε σ} (hnode : node ∈ g.nodes) :
    (Tabled.tablesOf g).inputs[node.id]?.map (List.filterMap id) = some (g.inputs node.id) ∧
      (Tabled.tablesOf g).dependencies[node.id]? = some (g.dependencies node.id) := by
  have hget := h.linked.getElem?_id hnode
  constructor
  · rw [inputs, hget, Tabled.tablesOf, Tabled.getElem?_portTable h.linked.id_eq _ hget,
      Option.map_some, Tabled.tabulate, List.filterMap_map]
    rfl
  · rw [Tabled.tablesOf, Tabled.nodeTable, List.getElem?_map, hget]
    rfl

end Graph

namespace Builder

variable {b : Builder ε σ}

/-- Building is exact. It makes a graph of a builder just if the builder is well formed, and
otherwise reports the first condition that is violated. The graph, and the tables it is frozen with,
tell of each node what the edges say. -/
theorem Assembled.build_exact (h : b.Assembled) :
    ((∃ g, b.build = .ok g) ↔ b.WellFormed) ∧ (∀ e, b.build = .error e → b.Fault e) ∧
    ∀ g, b.build = .ok g → ∃ tables, Tabled.build b = .ok (g, tables) ∧
      ∀ node ∈ b.nodes, g.Tells b.edges node ∧
        tables.inputs[node.id]?.map (List.filterMap id) = some (g.inputs node.id) ∧
        tables.dependencies[node.id]? = some (g.dependencies node.id) := by
  refine ⟨?_, fun e he ↦ ?_, fun g hg ↦ ?_⟩
  · rcases h.build_cases with ⟨hwell, hbuild⟩ | ⟨hill, e, -, hbuild⟩
    · exact iff_of_true hbuild hwell
    · refine iff_of_false ?_ hill
      rintro ⟨g, hg⟩
      cases hbuild.symm.trans hg
  · rcases h.build_cases with ⟨-, g, hbuild⟩ | ⟨-, e', hfault, hbuild⟩
    · cases hbuild.symm.trans he
    · rwa [← Except.error.inj (hbuild.symm.trans he)]
  · have hvalid := Graph.valid_of_build h hg
    have htabled := Tabled.build_eq_lift h
    obtain ⟨found, -, hgraph⟩ := build_eq_ok.mp hg
    have hnodes : g.nodes = b.nodes := by rw [hgraph]
    have hedges : g.edges = b.edges := by rw [hgraph]
    rw [hg] at htabled
    refine ⟨_, htabled, fun node hnode ↦ ?_⟩
    rw [← hnodes] at hnode
    have hslotted : Slotted g.nodes g.edges := by
      rw [hnodes, hedges]
      exact h.slotted
    rw [← hedges]
    exact ⟨hvalid.tells hslotted hnode, hvalid.tablesOf_eq hnode⟩

/-- A sink that nothing is bound to is reported. Once the source is bound to it, there is a graph. -/
theorem Assembled.build_exact_joined :
    let ends : Builder Unit Unit :=
      ((Builder.new .apply).addNode .source Builtin.collector none).addNode .sink
        Builtin.collector none
    let joined : Builder Unit Unit := { ends with edges := [.data ⟨0, 0⟩ 1 0] }
    (ends.Assembled ∧ ends.Fault (.composition "n1:collector"
      "input port 0 has 0 predecessors, expected exactly 1")) ∧
    joined.Assembled ∧ joined.WellFormed ∧
      ∃ g, joined.build = .ok g ∧ ∀ node ∈ joined.nodes, g.Tells joined.edges node := by
  intro ends joined
  have hends : ends.Assembled :=
    ((Assembled.new .apply).addNode .source Builtin.collector none ⟨0, 1⟩).addNode .sink
      Builtin.collector none ⟨1, 1⟩
  have hjoined : joined.Assembled :=
    hends.connect (rfl : Builder.connect _ ⟨0, 0⟩ 1 0 = .ok joined)
  have hrefused : ends.build.map (fun _ ↦ ()) = .error (.composition "n1:collector"
      "input port 0 has 0 predecessors, expected exactly 1") := by
    decide +kernel
  obtain ⟨e, he⟩ : ∃ e, ends.build = .error e := by
    cases hbuild : ends.build with
    | ok g => rw [hbuild] at hrefused; cases hrefused
    | error e => exact ⟨e, rfl⟩
  rw [he] at hrefused
  obtain ⟨-, hfault, -⟩ := hends.build_exact
  obtain ⟨hwell, -, htells⟩ := hjoined.build_exact
  obtain ⟨g, hg⟩ := exists_eq_ok (rfl : joined.build.isOk = true)
  obtain ⟨tables, -, hnodes⟩ := htells g hg
  exact ⟨⟨hends, Except.error.inj hrefused ▸ hfault e he⟩, hjoined, hwell.mp ⟨g, hg⟩, g, hg,
    fun node hnode ↦ (hnodes node hnode).1⟩

end Builder

end Dataflow
