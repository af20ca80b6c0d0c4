import Dataflow.Proofs.Composition

/-!
# Ports that exist

A port of a track is worth something only if it is an output port that a node of the builder
declares (`Track.Declared`). Binding such ports to the inputs of a node that was just added is never
refused: no edge of a builder leads to a node that is not there yet (`Builder.Closed`), so all input
ports of a new node are free. Trainers and appliers can thus be added behind every track whose ports
exist and whose width fits (`Expression.run_addTrainer`, `Expression.run_addApplier`).

The ports behind an expression are ports of the track before it or outputs of the nodes it stands
for (`Expression.outlets_layout`), so they exist as well (`Expression.declared_compose`).
-/

set_option autoImplicit false
set_option relaxedAutoImplicit false

namespace Dataflow

variable {ε σ α : Type}

/-- The port is an output port that its node declares. -/
def PortRef.Declared (nodes : List (Node ε σ)) (port : PortRef) : Prop :=
  ∃ node, nodes[port.node]? = some node ∧ port.port < node.arity.outputs

theorem PortRef.Declared.append {nodes : List (Node ε σ)} {port : PortRef}
    (h : port.Declared nodes) (more : List (Node ε σ)) : port.Declared (nodes ++ more) := by
  obtain ⟨node, hnode, hport⟩ := h
  refine ⟨node, ?_, hport⟩
  rwa [List.getElem?_append_left (List.getElem?_eq_some_iff.mp hnode).1]

/-- All ports of a track, the label included, are output ports that exist. -/
structure Track.Declared (nodes : List (Node ε σ)) (t : Track) : Prop where
  ports : ∀ port ∈ t.ports, port.Declared nodes
  label : ∀ port ∈ t.label, port.Declared nodes

theorem Track.Declared.append {nodes : List (Node ε σ)} {t : Track} (h : t.Declared nodes)
    (more : List (Node ε σ)) : t.Declared (nodes ++ more) where
  ports port hport := (h.ports port hport).append more
  label port hport := (h.label port hport).append more

@[simp] theorem Track.width_rebased {t : Track} {node : NodeId} {width : Nat} :
    (t.rebased node width).width = width := by
  simp [Track.width, Track.rebased]

/-- Every edge enters a node that exists. -/
def Builder.Closed (b : Builder ε σ) : Prop :=
  ∀ edge ∈ b.edges, edge.head < b.nodes.length

theorem Builder.Closed.placeAll {b : Builder ε σ} (h : b.Closed) (ps : List (Placement ε σ)) :
    (b.placeAll ps).Closed := by
  induction ps generalizing b with
  | nil => exact h
  | cons p ps ih => exact ih (head_lt_of_place h p)

theorem Grown.closed {b last : Builder ε σ} {ps : List (Placement ε σ)}
    {taken : List (GroupId × Spec ε σ)} (h : Grown b ps taken last) (hb : b.Closed) :
    last.Closed := by
  have hplaced := hb.placeAll ps
  unfold Builder.Closed at hplaced ⊢
  rwa [h.nodes, h.edges]

theorem Grown.declared {b last : Builder ε σ} {ps : List (Placement ε σ)}
    {taken : List (GroupId × Spec ε σ)} (h : Grown b ps taken last) {t : Track}
    (ht : t.Declared b.nodes) : t.Declared last.nodes := by
  rw [h.nodes, b.nodes_placeAll]
  exact ht.append _

namespace Build

/-- Ports that exist can be bound to free input ports of a node. -/
theorem run_connectFrom {head : NodeId} {target : Node ε σ} {ports : List PortRef} {input : Nat}
    {b : Builder ε σ} (htarget : b.nodes[head]? = some target)
    (hfits : input + ports.length ≤ target.arity.inputs)
    (hports : ∀ port ∈ ports, port.Declared b.nodes)
    (hfree : ∀ i, input ≤ i → feeders b.edges head i = []) :
    run (connectFrom head ports input) b =
      (.ok (), { b with edges := b.edges ++ wires head input ports }) := by
  induction ports generalizing input b with
  | nil =>
    rw [connectFrom, wires, List.append_nil]
    rfl
  | cons port rest ih =>
    rw [List.length_cons] at hfits
    have hunbound : boundPort? b.edges head input = none := by
      rw [boundPort?_eq_head?, hfree input (Nat.le_refl _)]
      rfl
    have hstep : b.connect port head input =
        .ok { b with edges := b.edges ++ [.data port head input] } :=
      Builder.connect_eq_ok.mpr ⟨⟨target, htarget, by omega⟩, hports port List.mem_cons_self,
        hunbound, rfl⟩
    have hless : input + 1 + rest.length ≤ target.arity.inputs := by omega
    have hrest := ih (b := { b with edges := b.edges ++ [.data port head input] }) htarget hless
      (fun p hp ↦ hports p (List.mem_cons_of_mem _ hp)) (by
        intro i hi
        have hne : ¬ input = i := by omega
        rw [feeders_append, hfree i (Nat.le_of_succ_le hi), List.nil_append]
        simp [feeders, Edge.feeds?, hne])
    rw [List.append_assoc, List.singleton_append] at hrest
    exact run_bind_ok.mpr ⟨(), _, run_attempt_ok.mpr hstep, hrest⟩

/-- A placement whose ports exist can be completed. -/
theorem run_connectAll {p : Placement ε σ} {b : Builder ε σ} (hb : b.Closed) (hfits : p.Fits)
    (hports : ∀ port ∈ p.inputs, port.Declared b.nodes) :
    run (connectAll p.inputs b.nodes.length) (b.addNode p.kind p.spec p.group) =
      (.ok (), b.place p) := by
  have hadded : (b.addNode p.kind p.spec p.group).nodes[b.nodes.length]? =
      some (p.node b.nodes.length) := List.getElem?_concat_length
  refine run_connectFrom hadded ?_ (fun port hport ↦ (hports port hport).append _) fun i _ ↦ ?_
  · rw [Nat.zero_add]
    exact hfits
  · have hunbound := Builder.feeders_place_self { p with inputs := [] } i hb
    rwa [Builder.edges_place, wires, List.append_nil] at hunbound

/-- So it can be if its last port is bound on its own. -/
theorem run_connect_last {p : Placement ε σ} {ports : List PortRef} {port : PortRef} {input : Nat}
    (hinputs : p.inputs = ports ++ [port]) (hinput : ports.length = input) {b : Builder ε σ}
    (hb : b.Closed) (hfits : p.Fits) (hports : ∀ port ∈ p.inputs, port.Declared b.nodes) :
    ∃ middle,
      run (connectAll ports b.nodes.length) (b.addNode p.kind p.spec p.group) = (.ok (), middle) ∧
        run (connect port b.nodes.length input) middle = (.ok (), b.place p) := by
  have hall := run_connectAll hb hfits hports
  rw [hinputs, connectAll, connectFrom_append, run_bind_ok] at hall
  obtain ⟨_, middle, hfront, hlast⟩ := hall
  rw [Nat.zero_add, hinput, connectFrom, run_bind_ok] at hlast
  obtain ⟨_, _, hlast, hnil⟩ := hlast
  rw [connectFrom, run_pure] at hnil
  obtain ⟨-, rfl⟩ := Prod.mk.inj hnil
  exact ⟨middle, hfront, hlast⟩

end Build

namespace Expression

open Build

/-- A trainer is added behind ports that exist if there is a label. -/
theorem run_addTrainer {spec : Spec ε σ} (group : GroupId) {left : Track} {b : Builder ε σ}
    (hb : b.Closed) (hleft : left.Declared b.nodes) (hwidth : left.width = spec.arity.inputs)
    (hlabel : left.label.isSome = true) :
    run (addTrainer spec group left) b = (.ok (), b.place (.ofLeaf spec group left .trainer)) := by
  obtain ⟨label, hlabel⟩ := Option.isSome_iff_exists.mp hlabel
  have hinputs : (Placement.ofLeaf spec group left .trainer).inputs = left.ports ++ [label] := by
    rw [Placement.ofLeaf, hlabel]
    rfl
  have hfits : (Placement.ofLeaf spec group left .trainer).Fits := by
    rw [Placement.Fits, hinputs, List.length_append]
    exact Nat.succ_le_succ (Nat.le_of_eq hwidth)
  obtain ⟨middle, hports, hlast⟩ := run_connect_last hinputs hwidth hb hfits fun port hport ↦ by
    rcases List.mem_append.mp hport with hport | hport
    · exact hleft.ports port hport
    · exact hleft.label port (Option.mem_toList.mp hport)
  simp only [addTrainer, run_bind_ok, run_check_ok, run_addNode]
  exact ⟨label, b, ⟨Track.requireLabel_eq_ok.mpr hlabel, rfl⟩, _, _, rfl, _, middle, hports, hlast⟩

/-- An applier is added behind ports that exist. -/
theorem run_addApplier {spec : Spec ε σ} (group : GroupId) {left : Track} {b : Builder ε σ}
    (hb : b.Closed) (hleft : left.Declared b.nodes) (hwidth : left.width = spec.arity.inputs) :
    run (addApplier spec group left) b =
      (.ok (left.rebased b.nodes.length spec.arity.outputs),
        b.place (.ofLeaf spec group left .applier)) := by
  have hplace := run_connectAll (p := .ofLeaf spec group left .applier) hb
    (Nat.le_of_eq hwidth) hleft.ports
  simp only [addApplier, run_bind_ok, run_addNode, run_pure]
  exact ⟨_, _, rfl, _, _, hplace, rfl⟩

end Expression

/-! ### The ports behind an expression exist -/

/-- The port is an output of one of the placements, of which the first has the number `node`. -/
def Placement.Outlet (node : Nat) (ps : List (Placement ε σ)) (port : PortRef) : Prop :=
  ∃ k p, ps[k]? = some p ∧ port.node = node + k ∧ port.port < (p.kind.arity p.spec.arity).outputs

namespace Placement.Outlet

variable {node : Nat} {front back : List (Placement ε σ)} {port : PortRef}

theorem append_left (h : Outlet node front port) : Outlet node (front ++ back) port := by
  obtain ⟨k, p, hp, hnode, hport⟩ := h
  refine ⟨k, p, ?_, hnode, hport⟩
  rwa [List.getElem?_append_left (List.getElem?_eq_some_iff.mp hp).1]

theorem append_right (h : Outlet (node + front.length) back port) :
    Outlet node (front ++ back) port := by
  obtain ⟨k, p, hp, hnode, hport⟩ := h
  refine ⟨front.length + k, p, ?_, by rw [hnode, Nat.add_assoc], hport⟩
  rwa [List.getElem?_append_right (Nat.le_add_right _ _), Nat.add_sub_cancel_left]

theorem declared {b : Builder ε σ} (h : Outlet b.nodes.length front port) :
    port.Declared (b.placeAll front).nodes := by
  obtain ⟨k, p, hp, hnode, hport⟩ := h
  refine ⟨p.node (b.nodes.length + k), ?_, hport⟩
  rw [hnode, Builder.getElem?_placeAll, hp]
  rfl

end Placement.Outlet

theorem Leaf.outlets_outlet (leaf : Leaf ε σ) (shape : Shape) (group : GroupId) (node : Nat)
    (left : Track) : ∀ port ∈ (leaf.outlet shape node left).ports,
      port ∈ left.ports ∨ Placement.Outlet node (leaf.placements shape group left) port := by
  intro port hport
  unfold outlet at hport
  split_ifs at hport with hlast
  · obtain ⟨i, hi, rfl⟩ := List.mem_map.mp hport
    rw [List.getLast?_eq_getElem?] at hlast
    have hlt := (List.getElem?_eq_some_iff.mp hlast).1
    refine .inr ⟨(leaf.kinds shape).length - 1, .ofLeaf leaf.spec group left .applier, ?_, ?_,
      List.mem_range.mp hi⟩
    · rw [placements, List.getElem?_map, hlast]
      rfl
    · change node + (leaf.kinds shape).length - 1 = node + ((leaf.kinds shape).length - 1)
      omega
  · exact .inl hport

namespace Expression

variable (shape : Shape) (scope : Nat)

/-- The ports behind a layout are ports of the track before it or outputs of its nodes. -/
theorem outlets_layout (expression : Expression ε σ) (node leaf : Nat) (left : Track) :
    let laid := expression.layout shape scope node leaf left
    ∀ port ∈ laid.2.ports, port ∈ left.ports ∨ Placement.Outlet node laid.1 port := by
  induction expression using Expression.induction generalizing node leaf left with
  | mapper spec => exact Leaf.outlets_outlet _ shape _ node left
  | consumer spec => exact Leaf.outlets_outlet _ shape _ node left
  | sequence first second ihfirst ihsecond =>
    intro laid port hport
    rcases ihsecond _ _ _ port hport with hport | hport
    · exact (ihfirst _ _ _ port hport).imp_right .append_left
    · exact .inr hport.append_right
  | parallel branches ih =>
    change ∀ port ∈ (branchLayout shape scope branches node leaf left).2, port ∈ left.ports ∨
      Placement.Outlet node (branchLayout shape scope branches node leaf left).1 port
    induction branches generalizing node leaf with
    | nil => exact fun port hport ↦ nomatch hport
    | cons branch rest ihrest =>
      intro port hport
      rcases List.mem_append.mp hport with hport | hport
      · exact (ih branch List.mem_cons_self _ _ _ port hport).imp_right .append_left
      · exact (ihrest (fun other hother ↦ ih other (List.mem_cons_of_mem _ hother)) _ _ port
          hport).imp_right .append_right

open Build

/-- A port behind an expression that was composed is a port of the track before it or exists. -/
theorem cases_ports_compose {expression : Expression ε σ} {left right : Track}
    {b last : Builder ε σ} (h : run (expression.compose left) b = (.ok right, last)) :
    ∀ port ∈ right.ports, port ∈ left.ports ∨ port.Declared last.nodes := by
  obtain ⟨rfl, hcomposed, -⟩ := expression.composes left right b last h
  intro port hport
  refine (expression.outlets_layout _ _ _ _ left port hport).imp_right fun hout ↦ ?_
  rw [hcomposed.grown.nodes]
  exact hout.declared

theorem label_compose {expression : Expression ε σ} {left right : Track} {b last : Builder ε σ}
    (h : run (expression.compose left) b = (.ok right, last)) : right.label = left.label := by
  obtain ⟨rfl, -⟩ := expression.composes left right b last h
  exact expression.label_layout _ _ _ _ left

theorem declared_compose {expression : Expression ε σ} {left right : Track} {b last : Builder ε σ}
    (h : run (expression.compose left) b = (.ok right, last)) (hleft : left.Declared b.nodes) :
    right.Declared last.nodes := by
  have hgrown := (expression.composes left right b last h).2.1.grown
  have hkept := hgrown.declared hleft
  refine ⟨fun port hport ↦ ?_, fun port hport ↦ ?_⟩
  · rcases cases_ports_compose h port hport with hport | hport
    · exact hkept.ports port hport
    · exact hport
  · rw [label_compose h] at hport
    exact hkept.label port hport

end Expression

end Dataflow
