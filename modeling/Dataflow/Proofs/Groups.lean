import Dataflow.Proofs.Expansion

/-!
# The groups of a workflow's graphs

The leaves of a pipeline, numbered from left to right, are the groups of its graphs: leaf `i` is
group `i` of scope 0 in the train and the apply graph, and group `i` of scope `k + 1` in the `k`-th
fold of an evaluation. So the instance that a trainer fits is the one that the applier of the same
leaf uses.

Two things are counted. The groups a graph refers to are kept in group order; groups taken in that
order are appended, and groups taken a second time change nothing (`insertGroups_append`,
`insertGroups_of_mem`). The nodes come leaf by leaf (`Expression.roles_layout`), and a leaf has one
trainer in the train shape if it is stateful, and one applier in the apply shape
(`Leaf.count_trainer`, `Leaf.count_applier`).
-/

set_option autoImplicit false
set_option relaxedAutoImplicit false

namespace Dataflow

variable {ε σ : Type}

/-! ### Group order -/

namespace GroupId

theorem before_iff {a b : GroupId} :
    a.before b = true ↔ a.scope < b.scope ∨ a.scope = b.scope ∧ a.ordinal < b.ordinal := by
  simp [before]

theorem before_asymm {a b : GroupId} (h : a.before b = true) : b.before a = false := by
  rw [Bool.eq_false_iff, ne_eq, before_iff]
  have hab := before_iff.mp h
  omega

theorem ne_of_before {a b : GroupId} (h : a.before b = true) : b ≠ a := by
  rintro rfl
  have hself := before_iff.mp h
  omega

end GroupId

/-- Groups stand in group order, each once. -/
def InGroupOrder (groups : List (GroupId × Spec ε σ)) : Prop :=
  groups.Pairwise fun a b ↦ a.1.before b.1 = true

/-- A group behind all others is appended. -/
theorem insertGroup_last {group : GroupId} (spec : Spec ε σ) {groups : List (GroupId × Spec ε σ)}
    (h : ∀ entry ∈ groups, entry.1.before group = true) :
    Builder.insertGroup group spec groups = groups ++ [(group, spec)] := by
  induction groups with
  | nil => rfl
  | cons entry rest ih =>
    have hbefore := h entry List.mem_cons_self
    have hnot : ¬ group.before entry.1 = true := by
      rw [GroupId.before_asymm hbefore]
      exact Bool.false_ne_true
    rw [Builder.insertGroup, if_neg hnot, if_neg (GroupId.ne_of_before hbefore),
      ih fun other hother ↦ h other (List.mem_cons_of_mem _ hother), List.cons_append]

/-- A group that is there is not added again. -/
theorem insertGroup_of_mem {group : GroupId} (spec : Spec ε σ) {groups : List (GroupId × Spec ε σ)}
    (hsorted : InGroupOrder groups) (h : group ∈ groups.map Prod.fst) :
    Builder.insertGroup group spec groups = groups := by
  induction groups with
  | nil => simp at h
  | cons entry rest ih =>
    obtain ⟨hbefore, hrest⟩ := List.pairwise_cons.mp hsorted
    by_cases hsame : group = entry.1
    · have hnot : ¬ group.before entry.1 = true := by
        intro hself
        exact GroupId.ne_of_before hself hsame.symm
      rw [Builder.insertGroup, if_neg hnot, if_pos hsame]
    · rw [List.map_cons, List.mem_cons] at h
      have hmem := h.resolve_left hsame
      obtain ⟨other, hother, rfl⟩ := List.mem_map.mp hmem
      have hnot : ¬ other.1.before entry.1 = true := by
        rw [GroupId.before_asymm (hbefore other hother)]
        exact Bool.false_ne_true
      rw [Builder.insertGroup, if_neg hnot, if_neg hsame, ih hrest hmem]

/-- Groups that are taken in group order, behind those already there, are appended. -/
theorem insertGroups_append {groups taken : List (GroupId × Spec ε σ)}
    (h : InGroupOrder (groups ++ taken)) : insertGroups groups taken = groups ++ taken := by
  induction taken generalizing groups with
  | nil => exact (List.append_nil groups).symm
  | cons entry rest ih =>
    have hlast : ∀ other ∈ groups, other.1.before entry.1 = true := fun other hother ↦
      (List.pairwise_append.mp h).2.2 other hother entry List.mem_cons_self
    rw [List.append_cons] at h ⊢
    rw [← ih h, ← insertGroup_last entry.2 hlast]
    rfl

/-- Groups that are there are not added again. -/
theorem insertGroups_of_mem {groups taken : List (GroupId × Spec ε σ)}
    (hsorted : InGroupOrder groups)
    (h : ∀ entry ∈ taken, entry.1 ∈ groups.map Prod.fst) : insertGroups groups taken = groups := by
  induction taken with
  | nil => rfl
  | cons entry rest ih =>
    have hfirst := insertGroup_of_mem entry.2 hsorted (h entry List.mem_cons_self)
    calc insertGroups groups (entry :: rest)
        = insertGroups (Builder.insertGroup entry.1 entry.2 groups) rest := rfl
      _ = insertGroups groups rest := by rw [hfirst]
      _ = groups := ih fun other hother ↦ h other (List.mem_cons_of_mem _ hother)

/-! ### The groups of leaves -/

theorem groupsFrom_cons (scope start : Nat) (leaf : Leaf ε σ) (rest : List (Leaf ε σ)) :
    groupsFrom scope start (leaf :: rest) =
      (⟨scope, start⟩, leaf.spec) :: groupsFrom scope (start + 1) rest := rfl

theorem rolesFrom_cons (shape : Shape) (scope start : Nat) (leaf : Leaf ε σ)
    (rest : List (Leaf ε σ)) :
    rolesFrom shape scope start (leaf :: rest) =
      leaf.roles shape ⟨scope, start⟩ ++ rolesFrom shape scope (start + 1) rest := rfl

theorem mem_groupsFrom {scope start : Nat} {leaves : List (Leaf ε σ)} {entry : GroupId × Spec ε σ}
    (h : entry ∈ groupsFrom scope start leaves) :
    entry.1.scope = scope ∧ start ≤ entry.1.ordinal := by
  induction leaves generalizing start with
  | nil => simp [groupsFrom] at h
  | cons leaf rest ih =>
    rw [groupsFrom_cons, List.mem_cons] at h
    rcases h with rfl | h
    · exact ⟨rfl, Nat.le_refl _⟩
    · obtain ⟨hscope, hordinal⟩ := ih h
      exact ⟨hscope, Nat.le_of_succ_le hordinal⟩

theorem mem_groupsFrom_of_getElem? {leaves : List (Leaf ε σ)} {i : Nat} {leaf : Leaf ε σ}
    (h : leaves[i]? = some leaf) (scope : Nat) :
    (⟨scope, i⟩, leaf.spec) ∈ groupsFrom scope 0 leaves := by
  obtain ⟨hi, rfl⟩ := List.getElem?_eq_some_iff.mp h
  refine List.mem_map.mpr ⟨(leaves[i], i), ?_, rfl⟩
  exact List.mem_zipIdx_iff_getElem?.mpr h

theorem inGroupOrder_groupsFrom (scope start : Nat) (leaves : List (Leaf ε σ)) :
    InGroupOrder (groupsFrom scope start leaves) := by
  induction leaves generalizing start with
  | nil => exact List.Pairwise.nil
  | cons leaf rest ih =>
    rw [groupsFrom_cons]
    refine List.pairwise_cons.mpr ⟨fun entry hentry ↦ ?_, ih (start + 1)⟩
    obtain ⟨hscope, hordinal⟩ := mem_groupsFrom hentry
    exact GroupId.before_iff.mpr (.inr ⟨hscope.symm, hordinal⟩)

/-- A role of leaves has the actor and the group of one of them. -/
theorem mem_rolesFrom {shape : Shape} {scope start : Nat} {leaves : List (Leaf ε σ)}
    {role : Role ε σ} (h : role ∈ rolesFrom shape scope start leaves) :
    ∃ (i : Nat) (leaf : Leaf ε σ), leaves[i]? = some leaf ∧
      role ∈ leaf.roles shape ⟨scope, start + i⟩ := by
  induction leaves generalizing start with
  | nil => simp [rolesFrom] at h
  | cons leaf rest ih =>
    rw [rolesFrom_cons, List.mem_append] at h
    rcases h with h | h
    · exact ⟨0, leaf, rfl, h⟩
    · obtain ⟨i, other, hother, hrole⟩ := ih h
      rw [Nat.add_assoc, Nat.add_comm 1 i] at hrole
      exact ⟨i + 1, other, hother, hrole⟩

theorem Leaf.exists_mem_kinds (leaf : Leaf ε σ) (shape : Shape) :
    ∃ kind, kind ∈ leaf.kinds shape := by
  cases leaf with
  | mapper spec =>
    refine ⟨.applier, ?_⟩
    rw [kinds]
    split_ifs
    · exact List.mem_cons_of_mem _ List.mem_cons_self
    · exact List.mem_cons_self
  | consumer spec => cases shape <;> exact ⟨_, List.mem_cons_self⟩

/-- Every group of leaves has a role. -/
theorem exists_mem_rolesFrom {scope start : Nat} {leaves : List (Leaf ε σ)}
    {entry : GroupId × Spec ε σ} (h : entry ∈ groupsFrom scope start leaves) (shape : Shape) :
    ∃ role ∈ rolesFrom shape scope start leaves, role.group = some entry.1 := by
  induction leaves generalizing start with
  | nil => cases h
  | cons leaf rest ih =>
    rw [groupsFrom_cons, List.mem_cons] at h
    rw [rolesFrom_cons]
    rcases h with rfl | h
    · obtain ⟨kind, hkind⟩ := leaf.exists_mem_kinds shape
      exact ⟨_, List.mem_append_left _ (List.mem_map_of_mem hkind), rfl⟩
    · obtain ⟨role, hrole, hgroup⟩ := ih h
      exact ⟨role, List.mem_append_right _ hrole, hgroup⟩

/-! ### How many nodes a group has -/

/-- How many roles of a kind a group has. -/
def countRole (kind : NodeKind) (group : GroupId) (roles : List (Role ε σ)) : Nat :=
  roles.countP fun role ↦ role.kind = kind ∧ role.group = some group

theorem countRole_append (kind : NodeKind) (group : GroupId) (front back : List (Role ε σ)) :
    countRole kind group (front ++ back) = countRole kind group front + countRole kind group back :=
  List.countP_append

theorem countRole_eq_zero {kind : NodeKind} {group : GroupId} {roles : List (Role ε σ)}
    (h : ∀ role ∈ roles, role.group ≠ some group) : countRole kind group roles = 0 := by
  refine List.countP_eq_zero.mpr fun role hrole ↦ ?_
  simp [h role hrole]

namespace Leaf

theorem group_of_mem_roles {leaf : Leaf ε σ} {shape : Shape} {group : GroupId} {role : Role ε σ}
    (h : role ∈ leaf.roles shape group) : role.spec = leaf.spec ∧ role.group = some group := by
  obtain ⟨kind, -, rfl⟩ := List.mem_map.mp h
  exact ⟨rfl, rfl⟩

theorem countRole_roles (leaf : Leaf ε σ) (shape : Shape) (kind : NodeKind) (group : GroupId) :
    countRole kind group (leaf.roles shape group) = (leaf.kinds shape).count kind := by
  rw [countRole, roles, List.countP_map, List.count]
  refine List.countP_congr fun other _ ↦ ?_
  simp

/-- A leaf has one trainer in the train shape if it is stateful, and otherwise none. -/
theorem count_trainer {leaf : Leaf ε σ} {context : Shape} {labelled : Bool}
    (h : leaf.Admissible context labelled) (shape : Shape) :
    (leaf.kinds shape).count .trainer = if shape = .train ∧ leaf.spec.stateful then 1 else 0 := by
  cases leaf with
  | mapper spec =>
    by_cases htrain : shape = .train ∧ spec.stateful
    · rw [kinds, if_pos htrain]
      exact (if_pos htrain).symm
    · rw [kinds, if_neg htrain]
      exact (if_neg htrain).symm
  | consumer spec =>
    have hstateful : spec.stateful = true := h.1
    cases shape with
    | train => simp [kinds, Leaf.spec, hstateful]
    | apply => simp [kinds]

/-- A leaf has one applier in the apply shape. -/
theorem count_applier (leaf : Leaf ε σ) : (leaf.kinds .apply).count .applier = 1 := by
  cases leaf <;> simp [kinds]

end Leaf

/-- A group of leaves has the nodes of its leaf and no others. -/
theorem countRole_rolesFrom {leaves : List (Leaf ε σ)} {i : Nat} {leaf : Leaf ε σ}
    (h : leaves[i]? = some leaf) (shape : Shape) (scope start : Nat) (kind : NodeKind) :
    countRole kind ⟨scope, start + i⟩ (rolesFrom shape scope start leaves) =
      (leaf.kinds shape).count kind := by
  induction leaves generalizing start i with
  | nil => simp at h
  | cons first rest ih =>
    rw [rolesFrom_cons, countRole_append]
    cases i with
    | zero =>
      obtain rfl : first = leaf := by simpa using h
      rw [Nat.add_zero, Leaf.countRole_roles, countRole_eq_zero, Nat.add_zero]
      intro role hrole
      obtain ⟨j, other, -, hother⟩ := mem_rolesFrom hrole
      rw [(Leaf.group_of_mem_roles hother).2]
      simp only [ne_eq, Option.some.injEq, GroupId.mk.injEq, true_and]
      omega
    | succ i =>
      have hrest := ih (by simpa using h) (start + 1)
      rw [Nat.add_assoc, Nat.add_comm 1 i] at hrest
      rw [hrest, countRole_eq_zero, Nat.zero_add]
      intro role hrole
      rw [(Leaf.group_of_mem_roles hrole).2]
      simp only [ne_eq, Option.some.injEq, GroupId.mk.injEq, true_and]
      omega

/-- A role in the group of a leaf has the leaf's actor. -/
theorem exists_leaf_of_mem_rolesFrom {shape : Shape} {scope i : Nat} {leaves : List (Leaf ε σ)}
    {role : Role ε σ} (h : role ∈ rolesFrom shape scope 0 leaves)
    (hgroup : role.group = some ⟨scope, i⟩) :
    ∃ leaf, leaves[i]? = some leaf ∧ role.spec = leaf.spec := by
  obtain ⟨j, leaf, hleaf, hrole⟩ := mem_rolesFrom h
  obtain ⟨hspec, hsame⟩ := Leaf.group_of_mem_roles hrole
  rw [hgroup, Nat.zero_add, Option.some.injEq, GroupId.mk.injEq] at hsame
  exact ⟨leaf, hsame.2 ▸ hleaf, hspec⟩

/-! ### The roles of a workflow's nodes -/

/-- What a node is there for. -/
def Node.role (node : Node ε σ) : Role ε σ :=
  ⟨node.kind, node.spec, node.group⟩

/-- A role outside of all groups. -/
def Role.plain (kind : NodeKind) (spec : Spec ε σ) : Role ε σ :=
  ⟨kind, spec, none⟩

namespace Builder

theorem map_role_placeAll (b : Builder ε σ) (ps : List (Placement ε σ)) :
    (b.placeAll ps).nodes.map Node.role = b.nodes.map Node.role ++ ps.map Placement.role := by
  induction ps generalizing b with
  | nil => exact (List.append_nil _).symm
  | cons p ps ih =>
    rw [placeAll_cons, ih, nodes_place, List.map_append, List.append_assoc]
    rfl

end Builder

namespace Workflow

variable [Inhabited σ]

/-- The role of the node that separates or removes the label, if the source has one. -/
def labelRoles {ε σ : Type} (w : Workflow ε σ) (make : String → Spec ε σ) : List (Role ε σ) :=
  (w.source.label.map fun label ↦ .plain .applier (make label)).toList

/-- The roles of the nodes of one fold. -/
def foldRoles {ε σ : Type} (w : Workflow ε σ) (evaluation : Evaluation ε σ) (fold : Nat) :
    List (Role ε σ) :=
  [.plain .applier (evaluation.splitter fold)] ++
    rolesFrom .train (foldScope fold) 0 w.pipeline.expression.leaves ++
    rolesFrom .apply (foldScope fold) 0 w.pipeline.expression.leaves ++
    [.plain .applier evaluation.metric]

/-- The roles of the nodes between source and sink, in order. -/
def middleRoles (w : Workflow ε σ) (mode : Mode) : List (Role ε σ) :=
  match mode, w.evaluation with
  | .train, _ => w.labelRoles Builtin.extract ++ rolesFrom .train 0 0 w.pipeline.expression.leaves
  | .apply, _ => w.labelRoles Builtin.strip ++ rolesFrom .apply 0 0 w.pipeline.expression.leaves
  | .eval, some evaluation =>
    w.labelRoles Builtin.extract ++
      (List.range evaluation.folds).flatMap (w.foldRoles evaluation) ++
      [.plain .applier (evaluation.aggregator evaluation.folds)]
  | .eval, none => []

theorem roles_extraction (w : Workflow ε σ) (node : Nat) (head : Track) :
    (w.extraction node head).1.map Placement.role = w.labelRoles Builtin.extract := by
  unfold extraction labelRoles
  cases w.source.label <;> rfl

theorem roles_removal (w : Workflow ε σ) (node : Nat) (head : Track) :
    (w.removal node head).1.map Placement.role = w.labelRoles Builtin.strip := by
  unfold removal labelRoles
  cases w.source.label <;> rfl

theorem roles_body {ε σ : Type} (w : Workflow ε σ) (context : Context) (node : Nat) (left : Track) :
    (w.body context node left).1.map Placement.role =
      rolesFrom context.shape context.scope 0 w.pipeline.expression.leaves :=
  w.pipeline.expression.roles_layout context.shape context.scope node 0 left

theorem roles_foldsLayout {ε σ : Type} (w : Workflow ε σ) (evaluation : Evaluation ε σ)
    (head : Track) (node : Nat) (folds : List Nat) :
    (w.foldsLayout evaluation head node folds).1.map Placement.role =
      folds.flatMap (w.foldRoles evaluation) := by
  induction folds generalizing node with
  | nil => rfl
  | cons fold rest ih =>
    rw [foldsLayout, List.map_append, ih, List.flatMap_cons]
    congr 1
    simp only [foldLayout, List.map_append, roles_body]
    rfl

theorem roles_middleLayout (w : Workflow ε σ) (mode : Mode) (node : Nat) (head : Track) :
    (w.middleLayout mode node head).1.map Placement.role = w.middleRoles mode := by
  unfold middleLayout middleRoles
  cases mode with
  | train => rw [List.map_append, roles_extraction, roles_body]
  | apply => rw [List.map_append, roles_removal, roles_body]
  | eval =>
    cases w.evaluation with
    | none => rfl
    | some evaluation =>
      simp only [evaluationLayout, List.map_append, roles_extraction, roles_foldsLayout]
      rfl

/-- The nodes of a graph, in order, by their roles. -/
theorem Compiled.roles {w : Workflow ε σ} {producer receiver : Spec ε σ} {mode : Mode}
    {g : Graph ε σ} (h : w.Compiled producer receiver mode g) :
    g.nodes.map Node.role =
      [.plain .source producer] ++ w.middleRoles mode ++ [.plain .sink receiver] := by
  rw [h.nodes, Builder.map_role_placeAll, layout, List.map_append, List.map_append,
    roles_middleLayout]
  rfl

/-! ### The groups of a workflow's graph -/

theorem foldScope_of_lt {fold : Nat} (h : fold < UInt32.size) : foldScope fold = fold + 1 := by
  rw [foldScope, Nat.mod_eq_of_lt h]

/-- The second expansion of the pipeline in a fold takes the groups of the first. -/
theorem insertGroups_folds {ε σ : Type} (w : Workflow ε σ) {n : Nat} (h : n ≤ UInt32.size) :
    let all := (List.range n).flatMap fun fold ↦ w.groupsIn (fold + 1)
    insertGroups [] ((List.range n).flatMap fun fold ↦
        w.groupsIn (foldScope fold) ++ w.groupsIn (foldScope fold)) = all ∧
      InGroupOrder all ∧ ∀ entry ∈ all, entry.1.scope ≤ n := by
  induction n with
  | zero => exact ⟨rfl, List.Pairwise.nil, by simp⟩
  | succ n ih =>
    obtain ⟨hgroups, hsorted, hscope⟩ := ih (Nat.le_of_succ_le h)
    have hnew : ∀ entry ∈ w.groupsIn (n + 1), entry.1.scope = n + 1 := fun entry hentry ↦
      (mem_groupsFrom hentry).1
    rw [List.range_succ, List.flatMap_append, List.flatMap_append, List.flatMap_singleton,
      List.flatMap_singleton, foldScope_of_lt h]
    have hboth : InGroupOrder
        ((List.range n).flatMap (fun fold ↦ w.groupsIn (fold + 1)) ++ w.groupsIn (n + 1)) := by
      refine List.pairwise_append.mpr ⟨hsorted, inGroupOrder_groupsFrom (n + 1) 0 _, ?_⟩
      intro old hold new hentry
      have hlow := hscope old hold
      have hhigh := hnew new hentry
      exact GroupId.before_iff.mpr (.inl (by omega))
    refine ⟨?_, hboth, fun entry hentry ↦ ?_⟩
    · have hagain : ∀ entry ∈ w.groupsIn (n + 1), entry.1 ∈
          ((List.range n).flatMap (fun fold ↦ w.groupsIn (fold + 1)) ++ w.groupsIn (n + 1)).map
            Prod.fst := fun entry hentry ↦
        List.mem_map_of_mem (List.mem_append_right _ hentry)
      rw [insertGroups, List.foldl_append, List.foldl_append]
      change insertGroups (insertGroups (insertGroups [] _) _) _ = _
      rw [hgroups, insertGroups_append hboth, insertGroups_of_mem hboth hagain]
    · rcases List.mem_append.mp hentry with hentry | hentry
      · exact Nat.le_succ_of_le (hscope entry hentry)
      · exact Nat.le_of_eq (hnew entry hentry)

/-- The groups of a graph for training or application are those of the leaves, in scope 0. -/
theorem insertGroups_groupsIn {ε σ : Type} (w : Workflow ε σ) (scope : Nat) :
    insertGroups [] (w.groupsIn scope) = w.groupsIn scope :=
  insertGroups_append (inGroupOrder_groupsFrom scope 0 w.pipeline.expression.leaves)

end Workflow

/-! ### The nodes of a scope -/

/-- Whether a role belongs to a group of a scope. -/
def Role.inScope (scope : Nat) (role : Role ε σ) : Bool :=
  role.group.any (·.scope == scope)

/-- The nodes of a graph that belong to groups of a scope, in order. -/
def Graph.members (g : Graph ε σ) (scope : Nat) : List (Node ε σ) :=
  g.nodes.filter fun node ↦ node.role.inScope scope

/-- Nodes are those that leaves stand for in a shape: leaf by leaf, the kinds of nodes the leaf has
in the shape, with its actor and in its group of the scope. Each group has one trainer in the train
shape if its leaf is stateful, and otherwise none; in the apply shape it has one applier. -/
structure StandFor (nodes : List (Node ε σ)) (shape : Shape) (scope : Nat)
    (leaves : List (Leaf ε σ)) : Prop where
  roles : nodes.map Node.role = rolesFrom shape scope 0 leaves
  trainers : ∀ (i : Nat) (leaf : Leaf ε σ), leaves[i]? = some leaf →
    countRole .trainer ⟨scope, i⟩ (nodes.map Node.role) =
      if shape = .train ∧ leaf.spec.stateful then 1 else 0
  appliers : shape = .apply → ∀ (i : Nat) (leaf : Leaf ε σ), leaves[i]? = some leaf →
    countRole .applier ⟨scope, i⟩ (nodes.map Node.role) = 1

theorem standFor_of_roles {nodes : List (Node ε σ)} {shape : Shape} {scope : Nat}
    {leaves : List (Leaf ε σ)} {context : Shape} {labelled : Bool}
    (hadmissible : ∀ leaf ∈ leaves, leaf.Admissible context labelled)
    (h : nodes.map Node.role = rolesFrom shape scope 0 leaves) :
    StandFor nodes shape scope leaves where
  roles := h
  trainers := by
    intro i leaf hleaf
    have hcount := countRole_rolesFrom hleaf shape scope 0 .trainer
    rw [Nat.zero_add] at hcount
    rw [h, hcount, Leaf.count_trainer (hadmissible leaf (List.mem_of_getElem? hleaf))]
  appliers := by
    rintro rfl i leaf hleaf
    have hcount := countRole_rolesFrom hleaf .apply scope 0 .applier
    rw [Nat.zero_add] at hcount
    rw [h, hcount, Leaf.count_applier]

/-- A node of this role belongs to a group of one of some scopes, or to no group, and then it trains
nothing. -/
def Role.Confined (scopes : Nat → Prop) (role : Role ε σ) : Prop :=
  (∃ group, role.group = some group ∧ scopes group.scope) ∨ role.group = none ∧ role.kind ≠ .trainer

theorem inScope_of_mem_rolesFrom {shape : Shape} {scope start : Nat} {leaves : List (Leaf ε σ)}
    {role : Role ε σ} (h : role ∈ rolesFrom shape scope start leaves) (other : Nat) :
    role.inScope other = (scope == other) := by
  obtain ⟨i, leaf, -, hrole⟩ := mem_rolesFrom h
  rw [Role.inScope, (Leaf.group_of_mem_roles hrole).2]
  rfl

theorem filter_rolesFrom (shape : Shape) (scope start : Nat) (leaves : List (Leaf ε σ)) :
    (rolesFrom shape scope start leaves).filter (Role.inScope scope) =
      rolesFrom shape scope start leaves := by
  refine List.filter_eq_self.mpr fun role hrole ↦ ?_
  rw [inScope_of_mem_rolesFrom hrole, beq_self_eq_true]

theorem filter_rolesFrom_of_ne (shape : Shape) {scope other : Nat} (h : scope ≠ other) (start : Nat)
    (leaves : List (Leaf ε σ)) :
    (rolesFrom shape scope start leaves).filter (Role.inScope other) = [] := by
  refine List.filter_eq_nil_iff.mpr fun role hrole ↦ ?_
  rw [inScope_of_mem_rolesFrom hrole, beq_false_of_ne h]
  exact Bool.false_ne_true

theorem confined_of_mem_rolesFrom {scopes : Nat → Prop} {shape : Shape} {scope start : Nat}
    {leaves : List (Leaf ε σ)} {role : Role ε σ} (h : role ∈ rolesFrom shape scope start leaves)
    (hscope : scopes scope) : role.Confined scopes := by
  obtain ⟨i, leaf, -, hrole⟩ := mem_rolesFrom h
  exact .inl ⟨_, (Leaf.group_of_mem_roles hrole).2, hscope⟩

theorem confined_plain (scopes : Nat → Prop) {kind : NodeKind} (h : kind ≠ .trainer)
    (spec : Spec ε σ) : (Role.plain kind spec).Confined scopes :=
  .inr ⟨rfl, h⟩

/-- In the apply shape leaves have appliers only. -/
theorem kind_of_mem_rolesFrom_apply {scope start : Nat} {leaves : List (Leaf ε σ)} {role : Role ε σ}
    (h : role ∈ rolesFrom .apply scope start leaves) : role.kind = .applier := by
  obtain ⟨i, leaf, -, hrole⟩ := mem_rolesFrom h
  obtain ⟨kind, hkind, rfl⟩ := List.mem_map.mp hrole
  cases leaf <;> simpa [Leaf.kinds] using hkind

theorem Graph.map_role_members (g : Graph ε σ) (scope : Nat) :
    (g.members scope).map Node.role = (g.nodes.map Node.role).filter (Role.inScope scope) := by
  rw [members, List.filter_map]
  rfl

namespace Workflow

theorem eq_plain_of_mem_labelRoles {w : Workflow ε σ} {make : String → Spec ε σ} {role : Role ε σ}
    (h : role ∈ w.labelRoles make) : ∃ spec, role = .plain .applier spec := by
  unfold labelRoles at h
  cases hlabel : w.source.label with
  | none => simp [hlabel] at h
  | some label =>
    obtain rfl : role = .plain .applier (make label) := by simpa [hlabel] using h
    exact ⟨_, rfl⟩

theorem filter_labelRoles (w : Workflow ε σ) (make : String → Spec ε σ) (scope : Nat) :
    (w.labelRoles make).filter (Role.inScope scope) = [] := by
  unfold labelRoles
  cases w.source.label <;> rfl

/-- The nodes of a fold that belong to groups are those of its two expansions of the pipeline. -/
theorem filter_foldRoles (w : Workflow ε σ) (evaluation : Evaluation ε σ) (fold scope : Nat) :
    (w.foldRoles evaluation fold).filter (Role.inScope scope) =
      if foldScope fold = scope then
        rolesFrom .train scope 0 w.pipeline.expression.leaves ++
          rolesFrom .apply scope 0 w.pipeline.expression.leaves
      else [] := by
  simp only [foldRoles, List.filter_append]
  split_ifs with h
  · subst h
    rw [filter_rolesFrom, filter_rolesFrom]
    exact List.append_nil _
  · rw [filter_rolesFrom_of_ne .train h, filter_rolesFrom_of_ne .apply h]
    rfl

theorem confined_foldRoles {w : Workflow ε σ} {evaluation : Evaluation ε σ} {fold : Nat}
    {scopes : Nat → Prop} {role : Role ε σ} (h : role ∈ w.foldRoles evaluation fold)
    (hscope : scopes (foldScope fold)) : role.Confined scopes := by
  simp only [foldRoles, List.mem_append, List.mem_singleton] at h
  rcases h with ((rfl | h) | h) | rfl
  · exact confined_plain _ (by decide) _
  · exact confined_of_mem_rolesFrom h hscope
  · exact confined_of_mem_rolesFrom h hscope
  · exact confined_plain _ (by decide) _

theorem filter_foldsRoles (w : Workflow ε σ) (evaluation : Evaluation ε σ) {n fold : Nat}
    (hn : n ≤ UInt32.size) (hfold : fold < n) :
    ((List.range n).flatMap (w.foldRoles evaluation)).filter (Role.inScope (fold + 1)) =
      rolesFrom .train (fold + 1) 0 w.pipeline.expression.leaves ++
        rolesFrom .apply (fold + 1) 0 w.pipeline.expression.leaves := by
  induction n with
  | zero => omega
  | succ n ih =>
    rw [List.range_succ, List.flatMap_append, List.filter_append, List.flatMap_singleton,
      filter_foldRoles, foldScope_of_lt hn]
    by_cases hlast : fold = n
    · subst hlast
      have hbefore : ((List.range fold).flatMap (w.foldRoles evaluation)).filter
          (Role.inScope (fold + 1)) = [] := by
        rw [List.filter_flatMap, List.flatMap_eq_nil_iff]
        intro other hother
        rw [List.mem_range] at hother
        rw [filter_foldRoles, foldScope_of_lt (by omega), if_neg (by omega)]
      rw [hbefore, if_pos rfl, List.nil_append]
    · rw [if_neg (by omega), List.append_nil]
      exact ih (by omega) (by omega)

/-- The nodes of a compiled graph that belong to groups of a scope lie between source and sink. -/
theorem Compiled.roles_members [Inhabited σ] {w : Workflow ε σ} {producer receiver : Spec ε σ}
    {mode : Mode} {g : Graph ε σ} (h : w.Compiled producer receiver mode g) (scope : Nat) :
    (g.members scope).map Node.role = (w.middleRoles mode).filter (Role.inScope scope) := by
  rw [Graph.map_role_members, h.roles, List.filter_append, List.filter_append]
  exact List.append_nil _

/-- What holds of source and sink and of all roles between them holds of every node. -/
theorem Compiled.forall_role [Inhabited σ] {w : Workflow ε σ} {producer receiver : Spec ε σ}
    {mode : Mode} {g : Graph ε σ} (h : w.Compiled producer receiver mode g) {p : Role ε σ → Prop}
    (hsource : p (.plain .source producer)) (hsink : p (.plain .sink receiver))
    (hmiddle : ∀ role ∈ w.middleRoles mode, p role) : ∀ node ∈ g.nodes, p node.role := by
  intro node hnode
  have hrole : node.role ∈ g.nodes.map Node.role := List.mem_map_of_mem hnode
  rw [h.roles, List.mem_append, List.mem_append, List.mem_singleton, List.mem_singleton] at hrole
  rcases hrole with (hrole | hrole) | hrole
  · rw [hrole]
    exact hsource
  · exact hmiddle _ hrole
  · rw [hrole]
    exact hsink

theorem exists_middleRoles_eq [Inhabited σ] (w : Workflow ε σ) {mode : Mode}
    (hmode : mode ≠ .eval) :
    ∃ make : String → Spec ε σ, w.middleRoles mode =
      w.labelRoles make ++ rolesFrom mode.shape 0 0 w.pipeline.expression.leaves := by
  cases mode with
  | train => exact ⟨Builtin.extract, rfl⟩
  | apply => exact ⟨Builtin.strip, rfl⟩
  | eval => exact absurd rfl hmode

/-- Every group of a train or an apply graph has a node. -/
theorem Compiled.exists_node [Inhabited σ] {w : Workflow ε σ} {producer receiver : Spec ε σ}
    {mode : Mode} {g : Graph ε σ} (h : w.Compiled producer receiver mode g) (hmode : mode ≠ .eval)
    {entry : GroupId × Spec ε σ} (hentry : entry ∈ groupsFrom 0 0 w.pipeline.expression.leaves) :
    ∃ node ∈ g.nodes, node.group = some entry.1 := by
  obtain ⟨role, hrole, hgroup⟩ := exists_mem_rolesFrom hentry mode.shape
  have hmem : role ∈ g.nodes.map Node.role := by
    obtain ⟨make, hmiddle⟩ := w.exists_middleRoles_eq hmode
    rw [h.roles, hmiddle]
    exact List.mem_append_left _ (List.mem_append_right _ (List.mem_append_right _ hrole))
  obtain ⟨node, hnode, rfl⟩ := List.mem_map.mp hmem
  exact ⟨node, hnode, hgroup⟩

section Once

variable [Inhabited σ] {w : Workflow ε σ} {producer receiver : Spec ε σ} {mode : Mode}
  {g : Graph ε σ}

theorem Compiled.groups_eq (h : w.Compiled producer receiver mode g) (hmode : mode ≠ .eval) :
    g.groups = groupsFrom 0 0 w.pipeline.expression.leaves := by
  rw [h.groups]
  cases mode with
  | train => exact w.insertGroups_groupsIn 0
  | apply => exact w.insertGroups_groupsIn 0
  | eval => exact absurd rfl hmode

theorem Compiled.standFor (h : w.Compiled producer receiver mode g) (hmode : mode ≠ .eval) :
    StandFor (g.members 0) mode.shape 0 w.pipeline.expression.leaves := by
  obtain ⟨make, hmiddle⟩ := w.exists_middleRoles_eq hmode
  refine standFor_of_roles h.admissible ?_
  rw [h.roles_members, hmiddle, List.filter_append, filter_labelRoles, filter_rolesFrom,
    List.nil_append]

theorem Compiled.confined (h : w.Compiled producer receiver mode g) (hmode : mode ≠ .eval) :
    ∀ node ∈ g.nodes, node.role.Confined (· = 0) := by
  obtain ⟨make, hmiddle⟩ := w.exists_middleRoles_eq hmode
  refine h.forall_role (confined_plain _ (by decide) _) (confined_plain _ (by decide) _)
    fun role hrole ↦ ?_
  rw [hmiddle] at hrole
  rcases List.mem_append.mp hrole with hrole | hrole
  · obtain ⟨spec, rfl⟩ := eq_plain_of_mem_labelRoles hrole
    exact confined_plain _ (by decide) spec
  · exact confined_of_mem_rolesFrom hrole rfl

/-- An apply graph has no trainer. -/
theorem Compiled.kind_ne_trainer (h : w.Compiled producer receiver .apply g) :
    ∀ node ∈ g.nodes, node.kind ≠ .trainer := by
  refine h.forall_role (p := fun role ↦ role.kind ≠ .trainer) (by simp [Role.plain])
    (by simp [Role.plain]) fun role hrole ↦ ?_
  rcases List.mem_append.mp hrole with hrole | hrole
  · obtain ⟨spec, rfl⟩ := eq_plain_of_mem_labelRoles hrole
    simp [Role.plain]
  · rw [kind_of_mem_rolesFrom_apply hrole]
    decide

end Once

section PerFold

variable [Inhabited σ] {w : Workflow ε σ} {producer receiver : Spec ε σ} {g : Graph ε σ}
  {evaluation : Evaluation ε σ}

theorem Compiled.groups_eval (h : w.Compiled producer receiver .eval g)
    (hevaluation : w.evaluation = some evaluation) (hfolds : evaluation.folds < UInt32.size) :
    g.groups = (List.range evaluation.folds).flatMap
      fun fold ↦ groupsFrom (fold + 1) 0 w.pipeline.expression.leaves := by
  rw [h.groups, taken, hevaluation]
  exact (w.insertGroups_folds (Nat.le_of_lt hfolds)).1

/-- In the scope of a fold are the nodes of the two expansions of the pipeline. -/
theorem Compiled.members_eval (h : w.Compiled producer receiver .eval g)
    (hevaluation : w.evaluation = some evaluation) (hfolds : evaluation.folds < UInt32.size)
    {fold : Nat} (hfold : fold < evaluation.folds) :
    ∃ fitted applied, g.members (fold + 1) = fitted ++ applied ∧
      StandFor fitted .train (fold + 1) w.pipeline.expression.leaves ∧
      StandFor applied .apply (fold + 1) w.pipeline.expression.leaves := by
  have hroles := h.roles_members (fold + 1)
  simp only [middleRoles, hevaluation, List.filter_append, filter_labelRoles, List.nil_append,
    w.filter_foldsRoles evaluation (Nat.le_of_lt hfolds) hfold] at hroles
  have hbare : [Role.plain .applier (evaluation.aggregator evaluation.folds)].filter
      (Role.inScope (fold + 1)) = [] := rfl
  rw [hbare, List.append_nil] at hroles
  obtain ⟨fitted, applied, hmembers, hfitted, happlied⟩ := List.map_eq_append_iff.mp hroles
  exact ⟨fitted, applied, hmembers, standFor_of_roles h.admissible hfitted,
    standFor_of_roles h.admissible happlied⟩

theorem Compiled.confined_eval (h : w.Compiled producer receiver .eval g)
    (hevaluation : w.evaluation = some evaluation) (hfolds : evaluation.folds < UInt32.size) :
    ∀ node ∈ g.nodes,
      node.role.Confined fun scope ↦ ∃ fold < evaluation.folds, scope = fold + 1 := by
  refine h.forall_role (confined_plain _ (by decide) _) (confined_plain _ (by decide) _)
    fun role hrole ↦ ?_
  simp only [middleRoles, hevaluation, List.mem_append, List.mem_singleton] at hrole
  rcases hrole with (hrole | hrole) | rfl
  · obtain ⟨spec, rfl⟩ := eq_plain_of_mem_labelRoles hrole
    exact confined_plain _ (by decide) spec
  · obtain ⟨fold, hfold, hrole⟩ := List.mem_flatMap.mp hrole
    have hfold := List.mem_range.mp hfold
    exact confined_foldRoles hrole ⟨fold, hfold, foldScope_of_lt (Nat.lt_trans hfold hfolds)⟩
  · exact confined_plain _ (by decide) _

end PerFold

/-- The train and the apply graph of a workflow have the leaves of the pipeline as their groups,
numbered alike: in both, group `i` has the actor of leaf `i` and exactly the nodes that leaf `i`
stands for, which in the train graph are one trainer if the leaf is stateful and none otherwise, and
in the apply graph one applier and no trainer. In an evaluation with fewer than `2 ^ 32` folds the
same holds in the scope of each fold, for the expansion that is fitted and for the one that is
applied. -/
theorem groups_shared [Inhabited σ] (w : Workflow ε σ) (feed : Feed ε σ)
    (sinks : SinkProvider ε σ) :
    (∀ train apply, w.graph feed sinks .train = .ok train → w.graph feed sinks .apply = .ok apply →
      let leaves := w.pipeline.expression.leaves
      train.groups = groupsFrom 0 0 leaves ∧ apply.groups = groupsFrom 0 0 leaves ∧
      StandFor (train.members 0) .train 0 leaves ∧ StandFor (apply.members 0) .apply 0 leaves ∧
      (∀ node ∈ train.nodes, node.role.Confined (· = 0)) ∧
      ∀ node ∈ apply.nodes, node.role.Confined (· = 0) ∧ node.kind ≠ .trainer) ∧
    ∀ evaluation g, w.evaluation = some evaluation → evaluation.folds < UInt32.size →
      w.graph feed sinks .eval = .ok g →
      let leaves := w.pipeline.expression.leaves
      g.groups = (List.range evaluation.folds).flatMap (fun fold ↦ groupsFrom (fold + 1) 0 leaves) ∧
      (∀ fold < evaluation.folds, ∃ fitted applied, g.members (fold + 1) = fitted ++ applied ∧
        StandFor fitted .train (fold + 1) leaves ∧ StandFor applied .apply (fold + 1) leaves) ∧
      ∀ node ∈ g.nodes,
        node.role.Confined fun scope ↦ ∃ fold < evaluation.folds, scope = fold + 1 := by
  refine ⟨fun train apply htrain happly ↦ ?_, fun evaluation g hevaluation hfolds hg ↦ ?_⟩
  · obtain ⟨_, -, htrain⟩ := graph_ok htrain
    obtain ⟨_, -, happly⟩ := graph_ok happly
    exact ⟨htrain.groups_eq (by decide), happly.groups_eq (by decide),
      htrain.standFor (by decide), happly.standFor (by decide),
      htrain.confined (by decide), fun node hnode ↦
        ⟨happly.confined (by decide) node hnode, happly.kind_ne_trainer node hnode⟩⟩
  · obtain ⟨_, -, hg⟩ := graph_ok hg
    exact ⟨hg.groups_eval hevaluation hfolds, fun _ ↦ hg.members_eval hevaluation hfolds,
      hg.confined_eval hevaluation hfolds⟩

/-- A stateful actor followed by two branches, of which one consumes, with two folds of
evaluation. -/
def branching : Workflow Unit Unit where
  source := ⟨"rows", some "label"⟩
  pipeline := ⟨0, .sequence (.mapper { Builtin.collector with stateful := true })
    (.merged [.consumer { Builtin.collector with stateful := true }, .mapper Builtin.collector])⟩
  evaluation := some { folds := 2, seed := 0, metric := .accuracy : CrossValidation }.evaluation

theorem groups_shared_branching :
    let feed : Feed Unit Unit := .ofTables [("rows", ⟨[], []⟩)]
    (∃ train apply, branching.graph feed .collecting .train = .ok train ∧
      branching.graph feed .collecting .apply = .ok apply ∧
      train.groups = apply.groups ∧
      train.groups.map Prod.fst = [⟨0, 0⟩, ⟨0, 1⟩, ⟨0, 2⟩, ⟨0, 3⟩] ∧
      countRole .trainer ⟨0, 1⟩ ((train.members 0).map Node.role) = 1) ∧
    ∃ g fitted applied, branching.graph feed .collecting .eval = .ok g ∧
      g.members 2 = fitted ++ applied ∧
      countRole .applier ⟨2, 1⟩ (applied.map Node.role) = 1 := by
  intro feed
  obtain ⟨hboth, heval⟩ := groups_shared branching feed .collecting
  obtain ⟨train, htrain⟩ := exists_eq_ok
    (by decide +kernel : (branching.graph feed .collecting .train).isOk = true)
  obtain ⟨apply, happly⟩ := exists_eq_ok
    (by decide +kernel : (branching.graph feed .collecting .apply).isOk = true)
  obtain ⟨g, hg⟩ := exists_eq_ok
    (by decide +kernel : (branching.graph feed .collecting .eval).isOk = true)
  obtain ⟨hgroups, hsame, hfitted, -⟩ := hboth train apply htrain happly
  obtain ⟨-, hfolds, -⟩ := heval _ g rfl (by decide : 2 < UInt32.size) hg
  obtain ⟨fitted, applied, hmembers, -, happlied⟩ := hfolds 1 (by decide : 1 < 2)
  refine ⟨⟨train, apply, htrain, happly, hgroups.trans hsame.symm, ?_, ?_⟩, g, fitted, applied, hg,
    hmembers, ?_⟩
  · rw [hgroups]
    rfl
  · rw [hfitted.trainers 1 (.consumer { Builtin.collector with stateful := true }) rfl]
    rfl
  · exact happlied.appliers rfl 1 (.consumer { Builtin.collector with stateful := true }) rfl

end Workflow

end Dataflow
