import Dataflow.Proofs.Dependencies
import Dataflow.Proofs.Groups
import Dataflow.Proofs.Interleaving
import Dataflow.Proofs.Keeping

/-!
# The graphs of workflows are built properly

Two facts hold of every graph that a workflow is expanded into. It comes from a builder to which
nodes were added with the ports of their kind and actor only (`Workflow.exists_reachable`):
expanding is put together from the operations of a builder, and each of them leads from reachable
builders to reachable ones (`Build.Reaches`).

And every trainer in it is joined to the other nodes of its group (`Workflow.trainersJoined`). In
the order of the nodes, whatever comes behind a node in its group is an applier
(`Workflow.pairwise_middleRoles`). So a trainer is the first node of its group and the only trainer,
and each applier behind it has got a state edge from it.
-/

set_option autoImplicit false
set_option relaxedAutoImplicit false

namespace Dataflow

variable {ε σ α β : Type}

/-! ### Computations lead to reachable builders -/

/-- A computation leads from reachable builders to reachable ones, whether it succeeds or fails. -/
def Build.Reaches (body : Build ε σ α) : Prop :=
  ∀ b : Builder ε σ, b.Reachable → (Build.run body b).2.Reachable

theorem Builder.stable_reachable : Builder.Stable (Builder.Reachable (ε := ε) (σ := σ)) where
  addNode _ kind spec group h := h.addNode kind spec group
  connect _ _ _ _ _ h hstep := h.connect hstep
  allocateGroup _ spec h := h.allocateGroup spec

namespace Build

theorem reaches_inContext (context : Context) {body : Build ε σ α} (h : Reaches body) :
    Reaches (inContext context body) := fun b hb ↦ (h _ (hb.enter context)).leave b.context

end Build

open Build

theorem Operator.reaches_expand (operator : Operator ε σ) (left : Track) :
    Reaches (operator.expand left) :=
  operator.keeps_expand Builder.stable_reachable left fun _ _ _ h ↦ h.remember _

namespace Workflow

variable [Inhabited σ]

theorem reaches_labelled (w : Workflow ε σ) (head : Track) : Reaches (w.labelled head) := by
  unfold labelled
  cases w.source.label with
  | none => exact keeps_pure head
  | some label =>
    exact keeps_bind (keeps_addNode Builder.stable_reachable _ _ _) fun extract ↦
      keeps_bind (keeps_connectAll Builder.stable_reachable head.ports extract) fun _ ↦ keeps_pure _

theorem reaches_stripped (w : Workflow ε σ) (head : Track) : Reaches (w.stripped head) := by
  unfold stripped
  cases w.source.label with
  | none => exact keeps_pure head
  | some label =>
    exact keeps_bind (keeps_addNode Builder.stable_reachable _ _ _) fun strip ↦
      keeps_bind (keeps_connectAll Builder.stable_reachable head.ports strip) fun _ ↦ keeps_pure _

theorem reaches_addFold {ε σ : Type} (w : Workflow ε σ) (evaluation : Evaluation ε σ) (head : Track)
    (label : PortRef) (fold : Nat) : Reaches (w.addFold evaluation head label fold) :=
  keeps_bind (keeps_addNode Builder.stable_reachable _ _ _) fun splitter ↦
    keeps_bind (keeps_connectAll Builder.stable_reachable head.ports splitter) fun _ ↦
    keeps_bind (keeps_connect Builder.stable_reachable label splitter head.width) fun _ ↦
    keeps_bind (reaches_inContext _ (w.pipeline.reaches_expand _)) fun _ ↦
    keeps_bind (reaches_inContext _ (w.pipeline.reaches_expand _)) fun predictions ↦
    keeps_bind (keeps_check _) fun _ ↦
    keeps_bind (keeps_addNode Builder.stable_reachable _ _ _) fun metric ↦
    keeps_bind (keeps_connectAll Builder.stable_reachable predictions.ports metric) fun _ ↦
    keeps_bind (keeps_connect Builder.stable_reachable ⟨splitter, 3⟩ metric 1) fun _ ↦ keeps_pure _

theorem reaches_addFolds {ε σ : Type} (w : Workflow ε σ) (evaluation : Evaluation ε σ)
    (head : Track)
    (label : PortRef) (folds : List Nat) : Reaches (w.addFolds evaluation head label folds) := by
  induction folds with
  | nil => exact keeps_pure []
  | cons fold rest ih =>
    exact keeps_bind (w.reaches_addFold evaluation head label fold) fun metric ↦
      keeps_bind ih fun metrics ↦ keeps_pure _

theorem reaches_evaluated (w : Workflow ε σ) (head : Track) : Reaches (w.evaluated head) := by
  unfold evaluated
  cases w.evaluation with
  | none => exact keeps_throw _
  | some evaluation =>
    refine keeps_bind (w.reaches_labelled head) fun track ↦
      keeps_bind (keeps_check _) fun label ↦ ?_
    by_cases hnone : evaluation.folds = 0
    · rw [if_pos hnone]
      exact keeps_throw _
    · rw [if_neg hnone]
      exact keeps_bind (w.reaches_addFolds evaluation track label _) fun metrics ↦
        keeps_bind (keeps_addNode Builder.stable_reachable _ _ _) fun aggregator ↦
          keeps_bind (keeps_connectAll Builder.stable_reachable metrics aggregator) fun _ ↦ keeps_pure _

theorem reaches_middle (w : Workflow ε σ) (mode : Mode) (head : Track) :
    Reaches (w.middle mode head) := by
  cases mode with
  | train =>
    exact keeps_bind (w.reaches_labelled head) fun track ↦
      reaches_inContext _ (w.pipeline.reaches_expand track)
  | apply =>
    exact keeps_bind (w.reaches_stripped head) fun track ↦
      reaches_inContext _ (w.pipeline.reaches_expand track)
  | eval => exact w.reaches_evaluated head

theorem reaches_expand (w : Workflow ε σ) (feed : Feed ε σ) (sinks : SinkProvider ε σ) :
    Reaches (w.expand feed sinks) := by
  refine keeps_bind keeps_get fun b ↦ ?_
  cases b.expansion with
  | some expansion => exact keeps_pure expansion
  | none =>
    refine keeps_bind keeps_get fun b' ↦ keeps_bind (keeps_check _) fun producer ↦
      keeps_bind (keeps_addNode Builder.stable_reachable _ _ _) fun source ↦
      keeps_bind (w.reaches_middle _ _) fun tail ↦ keeps_bind (keeps_check _) fun _ ↦
      keeps_bind (keeps_addNode Builder.stable_reachable _ _ _) fun sink ↦
      keeps_bind (keeps_connectAll Builder.stable_reachable tail.ports sink) fun _ ↦
      keeps_bind (fun after h ↦ ?_) fun _ ↦ keeps_pure _
    exact h.expanded (some ⟨source, sink⟩)

/-- The graph of a workflow is frozen from a reachable builder. -/
theorem exists_reachable {w : Workflow ε σ} {feed : Feed ε σ} {sinks : SinkProvider ε σ}
    {mode : Mode} {g : Graph ε σ} (h : w.graph feed sinks mode = .ok g) :
    ∃ b : Builder ε σ, b.Reachable ∧ b.build = .ok g := by
  have hreaches := w.reaches_expand feed sinks (Builder.new mode) (.new mode)
  unfold graph at h
  rcases hrun : run (w.expand feed sinks) (Builder.new mode) with ⟨_ | expansion, b⟩
  · rw [hrun] at h
    cases h
  · rw [hrun] at h hreaches
    exact ⟨b, hreaches, h⟩

end Workflow

/-! ### Behind a node of a group come appliers -/

/-- Of two roles in one group the second applies. -/
def Role.Leads (first second : Role ε σ) : Prop :=
  first.group = second.group → first.group.isSome = true → second.kind = .applier

theorem Role.leads_of_ne {first second : Role ε σ} (h : first.group ≠ second.group) :
    first.Leads second := fun hsame _ ↦ absurd hsame h

theorem Role.leads_plain (first : Role ε σ) (kind : NodeKind) (spec : Spec ε σ) :
    first.Leads (.plain kind spec) := by
  intro hsame hsome
  rw [hsame] at hsome
  cases hsome

theorem Role.plain_leads (kind : NodeKind) (spec : Spec ε σ) (second : Role ε σ) :
    (Role.plain kind spec).Leads second := fun _ hsome ↦ nomatch hsome

theorem Leaf.pairwise_roles (leaf : Leaf ε σ) (shape : Shape) (group : GroupId) :
    (leaf.roles shape group).Pairwise Role.Leads := by
  cases leaf with
  | mapper spec =>
    rw [roles, kinds]
    split_ifs
    · exact List.pairwise_pair.mpr fun _ _ ↦ rfl
    · exact List.pairwise_singleton _ _
  | consumer spec => cases shape <;> exact List.pairwise_singleton _ _

theorem pairwise_rolesFrom (shape : Shape) (scope start : Nat) (leaves : List (Leaf ε σ)) :
    (rolesFrom shape scope start leaves).Pairwise Role.Leads := by
  induction leaves generalizing start with
  | nil => exact List.Pairwise.nil
  | cons leaf rest ih =>
    rw [rolesFrom_cons]
    refine List.pairwise_append.mpr ⟨leaf.pairwise_roles shape _, ih (start + 1),
      fun first hfirst second hsecond ↦ Role.leads_of_ne ?_⟩
    obtain ⟨i, other, -, hother⟩ := mem_rolesFrom hsecond
    rw [(Leaf.group_of_mem_roles hfirst).2, (Leaf.group_of_mem_roles hother).2]
    simp only [ne_eq, Option.some.injEq, GroupId.mk.injEq, true_and]
    omega

/-- Roles in groups of different scopes share no group. -/
theorem leads_of_scope_ne {first second : Role ε σ} {scope other : Nat} (h : scope ≠ other)
    (hfirst : first.group = none ∨ ∃ i, first.group = some ⟨scope, i⟩)
    (hsecond : second.group = none ∨ ∃ i, second.group = some ⟨other, i⟩) :
    first.Leads second := by
  intro hsame hsome
  rcases hfirst with hnone | ⟨i, hi⟩
  · rw [hnone] at hsome
    cases hsome
  · rcases hsecond with hnone | ⟨j, hj⟩
    · rw [hsame, hnone] at hsome
      cases hsome
    · rw [hi, hj] at hsame
      exact absurd (GroupId.mk.inj (Option.some.inj hsame)).1 h

namespace Workflow

section Folds

variable {ε σ : Type} (w : Workflow ε σ) (evaluation : Evaluation ε σ)

theorem pairwise_foldRoles (fold : Nat) :
    (w.foldRoles evaluation fold).Pairwise Role.Leads := by
  have hboth : (rolesFrom .train (foldScope fold) 0 w.pipeline.expression.leaves ++
      rolesFrom .apply (foldScope fold) 0 w.pipeline.expression.leaves).Pairwise Role.Leads := by
    refine List.pairwise_append.mpr ⟨pairwise_rolesFrom _ _ _ _, pairwise_rolesFrom _ _ _ _,
      fun first _ second hsecond _ _ ↦ ?_⟩
    exact kind_of_mem_rolesFrom_apply hsecond
  unfold foldRoles
  rw [List.append_assoc [_]]
  refine List.pairwise_append.mpr ⟨List.pairwise_cons.mpr ⟨fun second _ ↦ ?_, hboth⟩,
    List.pairwise_singleton _ _, fun first _ second hsecond ↦ ?_⟩
  · exact Role.plain_leads _ _ second
  · rw [List.mem_singleton.mp hsecond]
    exact Role.leads_plain first _ _

theorem group_of_mem_foldRoles {fold : Nat} {role : Role ε σ}
    (h : role ∈ w.foldRoles evaluation fold) :
    role.group = none ∨ ∃ i, role.group = some ⟨foldScope fold, i⟩ := by
  have hleaves : ∀ shape, role ∈ rolesFrom shape (foldScope fold) 0 w.pipeline.expression.leaves →
      ∃ i, role.group = some ⟨foldScope fold, i⟩ := by
    intro shape hrole
    obtain ⟨i, leaf, -, hleaf⟩ := mem_rolesFrom hrole
    exact ⟨0 + i, (Leaf.group_of_mem_roles hleaf).2⟩
  simp only [foldRoles, List.mem_append, List.mem_singleton] at h
  rcases h with ((rfl | h) | h) | rfl
  · exact .inl rfl
  · exact .inr (hleaves .train h)
  · exact .inr (hleaves .apply h)
  · exact .inl rfl

/-- Folds below `2 ^ 32` have scopes of their own. -/
theorem pairwise_folds {n : Nat} (h : n ≤ UInt32.size) :
    ((List.range n).flatMap (w.foldRoles evaluation)).Pairwise Role.Leads := by
  induction n with
  | zero => exact List.Pairwise.nil
  | succ n ih =>
    rw [List.range_succ, List.flatMap_append, List.flatMap_singleton]
    refine List.pairwise_append.mpr ⟨ih (Nat.le_of_succ_le h), w.pairwise_foldRoles evaluation n,
      fun first hfirst second hsecond ↦ ?_⟩
    obtain ⟨fold, hfold, hfirst⟩ := List.mem_flatMap.mp hfirst
    have hlt := List.mem_range.mp hfold
    refine leads_of_scope_ne ?_ (w.group_of_mem_foldRoles evaluation hfirst)
      (w.group_of_mem_foldRoles evaluation hsecond)
    rw [foldScope_of_lt (by omega), foldScope_of_lt (by omega)]
    omega

end Folds

variable [Inhabited σ]

/-- The number of folds of an evaluation, if there is one, fits the scopes. -/
def FoldsFit {ε σ : Type} (w : Workflow ε σ) (mode : Mode) : Prop :=
  mode = .eval → ∀ evaluation, w.evaluation = some evaluation → evaluation.folds ≤ UInt32.size

theorem pairwise_labelRoles {ε σ : Type} (w : Workflow ε σ) (make : String → Spec ε σ)
    {roles : List (Role ε σ)} (h : roles.Pairwise Role.Leads) :
    (w.labelRoles make ++ roles).Pairwise Role.Leads := by
  unfold labelRoles
  cases w.source.label with
  | none => exact h
  | some label => exact List.pairwise_cons.mpr ⟨fun second _ ↦ Role.plain_leads _ _ second, h⟩

theorem pairwise_middleRoles {w : Workflow ε σ} {mode : Mode} (hfolds : w.FoldsFit mode) :
    (w.middleRoles mode).Pairwise Role.Leads := by
  unfold middleRoles
  cases mode with
  | train => exact w.pairwise_labelRoles _ (pairwise_rolesFrom _ _ _ _)
  | apply => exact w.pairwise_labelRoles _ (pairwise_rolesFrom _ _ _ _)
  | eval =>
    cases hevaluation : w.evaluation with
    | none => exact List.Pairwise.nil
    | some evaluation =>
      dsimp only
      rw [List.append_assoc]
      refine w.pairwise_labelRoles _ (List.pairwise_append.mpr
        ⟨w.pairwise_folds evaluation (hfolds rfl evaluation hevaluation),
          List.pairwise_singleton _ _, fun first _ second hsecond ↦ ?_⟩)
      rw [List.mem_singleton.mp hsecond]
      exact Role.leads_plain first _ _

end Workflow

/-! ### Trainers are joined to their groups -/

namespace Builder

theorem mem_edges_placeAll {b : Builder ε σ} {edge : Edge} (h : edge ∈ b.edges)
    (ps : List (Placement ε σ)) : edge ∈ (b.placeAll ps).edges := by
  induction ps generalizing b with
  | nil => exact h
  | cons p ps ih =>
    refine ih ?_
    rw [edges_place, List.append_assoc]
    exact List.mem_append_left _ h

/-- An applier that is placed behind trainers of its group gets a state edge from one of them. -/
theorem exists_stateEdge {b : Builder ε σ} {group : GroupId} {trainer : Node ε σ}
    (hmem : trainer ∈ b.nodes) (hkind : trainer.kind = .trainer)
    (hgroup : trainer.group = some group) :
    ∃ other ∈ b.nodes, other.kind = .trainer ∧ other.group = some group ∧
      Edge.state other.id b.nodes.length ∈ b.stateEdges .applier (some group) := by
  have htrainer : trainer ∈ b.nodes.filter fun node ↦
      node.kind == .trainer && node.group == some group := by
    simp [hmem, hkind, hgroup]
  cases hlast : (b.nodes.filter fun node ↦
      node.kind == .trainer && node.group == some group).getLast? with
  | none =>
    rw [List.getLast?_eq_none_iff.mp hlast] at htrainer
    cases htrainer
  | some other =>
    have hother := List.mem_of_getLast? hlast
    simp only [List.mem_filter, Bool.and_eq_true, beq_iff_eq] at hother
    refine ⟨other, hother.1, hother.2.1, hother.2.2, ?_⟩
    have hfound : (some group).bind b.trainer? = some other.id := by
      rw [Option.bind_some, trainer?, hlast]
      rfl
    unfold stateEdges
    rw [hfound]
    exact List.mem_cons_self

end Builder

namespace Workflow

variable [Inhabited σ] {w : Workflow ε σ} {producer receiver : Spec ε σ} {mode : Mode}
  {g : Graph ε σ}

theorem Compiled.pairwise_roles (h : w.Compiled producer receiver mode g)
    (hfolds : w.FoldsFit mode) :
    (g.nodes.map Node.role).Pairwise Role.Leads := by
  rw [h.roles]
  refine List.pairwise_append.mpr ⟨List.pairwise_cons.mpr ⟨fun second _ ↦ ?_,
    pairwise_middleRoles hfolds⟩, List.pairwise_singleton _ _, fun first _ second hsecond ↦ ?_⟩
  · exact Role.plain_leads _ _ second
  · rw [List.mem_singleton.mp hsecond]
    exact Role.leads_plain first _ _

/-- A node behind another of its group is an applier. -/
theorem Compiled.leads (h : w.Compiled producer receiver mode g) (hfolds : w.FoldsFit mode)
    {i j : Nat} {first second : Node ε σ} (hfirst : g.nodes[i]? = some first)
    (hsecond : g.nodes[j]? = some second) (hij : i < j) (hgroup : first.group = second.group)
    (hsome : first.group.isSome = true) : second.kind = .applier := by
  obtain ⟨hi, rfl⟩ := List.getElem?_eq_some_iff.mp hfirst
  obtain ⟨hj, rfl⟩ := List.getElem?_eq_some_iff.mp hsecond
  have hpairwise := List.pairwise_iff_getElem.mp (h.pairwise_roles hfolds) i j
    (by rwa [List.length_map]) (by rwa [List.length_map]) hij
  rw [List.getElem_map, List.getElem_map] at hpairwise
  exact hpairwise hgroup hsome

/-- A group has at most one trainer. -/
theorem Compiled.eq_of_trainers (h : w.Compiled producer receiver mode g)
    (hfolds : w.FoldsFit mode) {i j : Nat} {first second : Node ε σ}
    (hfirst : g.nodes[i]? = some first) (hsecond : g.nodes[j]? = some second)
    (hkind : first.kind = .trainer) (hkind' : second.kind = .trainer)
    (hgroup : first.group = second.group) (hsome : first.group.isSome = true) : i = j := by
  rcases Nat.lt_trichotomy i j with hlt | heq | hlt
  · have hbad := h.leads hfolds hfirst hsecond hlt hgroup hsome
    rw [hkind'] at hbad
    cases hbad
  · exact heq
  · have hbad := h.leads hfolds hsecond hfirst hlt hgroup.symm (hgroup ▸ hsome)
    rw [hkind] at hbad
    cases hbad

theorem Compiled.id_eq (h : w.Compiled producer receiver mode g) {k : Nat} {node : Node ε σ}
    (hnode : g.nodes[k]? = some node) : node.id = k := by
  obtain ⟨p, -, rfl⟩ := h.exists_placement hnode
  rfl

/-- The builder as it was when a node was placed: the nodes before it were there, and the edges it
had then and those of the placement are still there. -/
theorem Compiled.exists_before (h : w.Compiled producer receiver mode g) {j : Nat}
    {node : Node ε σ} (hnode : g.nodes[j]? = some node) :
    ∃ (b : Builder ε σ) (p : Placement ε σ), node = p.node j ∧ b.nodes.length = j ∧
      (∀ k < j, g.nodes[k]? = b.nodes[k]?) ∧ ∀ edge ∈ (b.place p).edges, edge ∈ g.edges := by
  obtain ⟨p, hp, rfl⟩ := h.exists_placement hnode
  obtain ⟨front, back, hlayout, hlength⟩ : ∃ front back,
      w.layout producer receiver mode = front ++ p :: back ∧ front.length = j := by
    obtain ⟨hj, rfl⟩ := List.getElem?_eq_some_iff.mp hp
    exact ⟨_, _, (List.take_append_drop j _).symm.trans
      (congrArg _ (List.drop_eq_getElem_cons hj)), List.length_take_of_le (Nat.le_of_lt hj)⟩
  have hnodes := h.nodes
  have hedges := h.edges
  rw [hlayout, Builder.placeAll_append, Builder.placeAll_cons] at hnodes hedges
  have hcount : ((Builder.new mode : Builder ε σ).placeAll front).nodes.length = j := by
    rw [Builder.length_nodes_placeAll, hlength]
    exact Nat.zero_add j
  refine ⟨(Builder.new mode).placeAll front, p, rfl, hcount, fun k hk ↦ ?_, fun edge hedge ↦ ?_⟩
  · rw [hnodes, Builder.nodes_placeAll, Builder.nodes_place, List.append_assoc,
      List.getElem?_append_left (hcount.symm ▸ hk)]
  · rw [hedges]
    exact Builder.mem_edges_placeAll hedge back

/-- A node behind a trainer of its group gets a state edge from it. -/
theorem Compiled.state_mem_edges (h : w.Compiled producer receiver mode g)
    (hfolds : w.FoldsFit mode) {i j : Nat} {trainer node : Node ε σ}
    (htrainer : g.nodes[i]? = some trainer) (hnode : g.nodes[j]? = some node) (hij : i < j)
    (hkind : trainer.kind = .trainer) (hgroup : trainer.group = node.group)
    (hsome : trainer.group.isSome = true) : Edge.state i j ∈ g.edges := by
  obtain ⟨group, hfound⟩ := Option.isSome_iff_exists.mp hsome
  have happlier := h.leads hfolds htrainer hnode hij hgroup hsome
  obtain ⟨b, p, rfl, hcount, hearly, hedges⟩ := h.exists_before hnode
  have hmem : trainer ∈ b.nodes := List.mem_of_getElem? ((hearly i hij).symm.trans htrainer)
  obtain ⟨other, hother, hotherkind, hothergroup, hedge⟩ :=
    Builder.exists_stateEdge hmem hkind hfound
  -- the trainer found is the one given
  obtain ⟨k, hk⟩ := List.getElem?_of_mem hother
  have hkj : k < j := hcount ▸ (List.getElem?_eq_some_iff.mp hk).1
  have hk := (hearly k hkj).trans hk
  have hsame : k = i := h.eq_of_trainers hfolds hk htrainer hotherkind hkind
    (hothergroup.trans hfound.symm) (by rw [hothergroup]; rfl)
  have hid : other.id = i := (h.id_eq hk).trans hsame
  have hpgroup : p.group = some group := hgroup.symm.trans hfound
  have hpkind : p.kind = .applier := happlier
  rw [hid, hcount] at hedge
  refine hedges _ ?_
  rw [Builder.edges_place, hpkind, hpgroup]
  exact List.mem_append_left _ (List.mem_append_right _ hedge)

/-- Every trainer of a workflow's graph is joined to the other nodes of its group. -/
theorem trainersJoined {feed : Feed ε σ} {sinks : SinkProvider ε σ}
    (h : w.graph feed sinks mode = .ok g) (hfolds : w.FoldsFit mode) : g.TrainersJoined := by
  obtain ⟨producer, -, hcompiled⟩ := graph_ok h
  intro trainer htrainer node hnode hkind hsome hgroup hne
  obtain ⟨i, hi⟩ := List.getElem?_of_mem htrainer
  obtain ⟨j, hj⟩ := List.getElem?_of_mem hnode
  rw [hcompiled.id_eq hi, hcompiled.id_eq hj] at hne ⊢
  rcases Nat.lt_or_gt_of_ne hne with hlt | hlt
  · have hbad := hcompiled.leads hfolds hj hi hlt hgroup (by rwa [hgroup])
    rw [hkind] at hbad
    cases hbad
  · have hedge := hcompiled.state_mem_edges hfolds hi hj hlt hkind hgroup.symm hsome
    exact .inl (.single (Graph.mem_dependencies.mpr ⟨_, hedge, rfl, rfl⟩))

/-! ### The actors of a graph -/

theorem behavior_of_mem_labelRoles {ε σ : Type} {w : Workflow ε σ} {make : String → Spec ε σ}
    {p : Behavior ε σ → Prop} (hmake : ∀ label, p (make label).behavior) {role : Role ε σ}
    (hrole : role ∈ w.labelRoles make) : p role.spec.behavior := by
  obtain ⟨label, -, rfl⟩ := Option.map_eq_some_iff.mp (Option.mem_toList.mp hrole)
  exact hmake label

theorem behavior_of_mem_rolesFrom {ε σ : Type} {leaves : List (Leaf ε σ)} {p : Behavior ε σ → Prop}
    (hleaves : ∀ leaf ∈ leaves, p leaf.spec.behavior) {shape : Shape} {scope start : Nat}
    {role : Role ε σ} (hrole : role ∈ rolesFrom shape scope start leaves) :
    p role.spec.behavior := by
  obtain ⟨i, leaf, hleaf, hmem⟩ := mem_rolesFrom hrole
  rw [(Leaf.group_of_mem_roles hmem).1]
  exact hleaves leaf (List.mem_of_getElem? hleaf)

variable {p : Behavior ε σ → Prop}

theorem behavior_of_mem_middleRoles (hpure : ∀ apply, p (Behavior.pure apply))
    (hleaves : ∀ leaf ∈ w.pipeline.expression.leaves, p leaf.spec.behavior)
    (hevaluation : mode = .eval → ∀ evaluation, w.evaluation = some evaluation →
      (∀ fold, p (evaluation.splitter fold).behavior) ∧ p evaluation.metric.behavior ∧
        p (evaluation.aggregator evaluation.folds).behavior) :
    ∀ role ∈ w.middleRoles mode, p role.spec.behavior := by
  have hextract : ∀ label, p (Builtin.extract label : Spec ε σ).behavior := fun _ ↦ hpure _
  have hstrip : ∀ label, p (Builtin.strip label : Spec ε σ).behavior := fun _ ↦ hpure _
  intro role hrole
  unfold middleRoles at hrole
  split at hrole
  · rcases List.mem_append.mp hrole with hrole | hrole
    · exact behavior_of_mem_labelRoles hextract hrole
    · exact behavior_of_mem_rolesFrom hleaves hrole
  · rcases List.mem_append.mp hrole with hrole | hrole
    · exact behavior_of_mem_labelRoles hstrip hrole
    · exact behavior_of_mem_rolesFrom hleaves hrole
  · rename_i evaluation hfound
    obtain ⟨hsplitter, hmetric, haggregator⟩ := hevaluation rfl evaluation hfound
    simp only [foldRoles, List.mem_append, List.mem_flatMap, List.mem_singleton] at hrole
    rcases hrole with (hrole | ⟨fold, -, ((rfl | hrole) | hrole) | rfl⟩) | rfl
    · exact behavior_of_mem_labelRoles hextract hrole
    · exact hsplitter fold
    · exact behavior_of_mem_rolesFrom hleaves hrole
    · exact behavior_of_mem_rolesFrom hleaves hrole
    · exact hmetric
    · exact haggregator
  · cases hrole

/-- What is so of every pure actor is so of all actors of a graph, if it is so of those that are
given to the workflow. -/
theorem Compiled.forall_behavior (h : w.Compiled producer receiver mode g)
    (hpure : ∀ apply, p (Behavior.pure apply)) (hproducer : p producer.behavior)
    (hreceiver : p receiver.behavior)
    (hleaves : ∀ leaf ∈ w.pipeline.expression.leaves, p leaf.spec.behavior)
    (hevaluation : mode = .eval → ∀ evaluation, w.evaluation = some evaluation →
      (∀ fold, p (evaluation.splitter fold).behavior) ∧ p evaluation.metric.behavior ∧
        p (evaluation.aggregator evaluation.folds).behavior) :
    ∀ node ∈ g.nodes, p node.spec.behavior :=
  h.forall_role (p := fun role ↦ p role.spec.behavior) hproducer hreceiver
    (behavior_of_mem_middleRoles hpure hleaves hevaluation)

/-- If the actors given to a workflow keep to themselves, then so do those of its graphs. -/
theorem Compiled.isolated (h : w.Compiled producer receiver mode g)
    (hproducer : producer.behavior.Isolated) (hreceiver : receiver.behavior.Isolated)
    (hleaves : ∀ leaf ∈ w.pipeline.expression.leaves, leaf.spec.behavior.Isolated)
    (hevaluation : ∀ evaluation, w.evaluation = some evaluation →
      (∀ fold, (evaluation.splitter fold).behavior.Isolated) ∧ evaluation.metric.behavior.Isolated ∧
        (evaluation.aggregator evaluation.folds).behavior.Isolated) :
    ∀ node ∈ g.nodes, node.spec.behavior.Isolated :=
  h.forall_behavior Behavior.isolated_pure hproducer hreceiver hleaves fun _ ↦ hevaluation

end Workflow

end Dataflow
