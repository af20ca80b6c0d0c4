import Dataflow.Operator
import Dataflow.Proofs.Placement

/-!
# The nodes an expression stands for

The leaves of an expression are its mappers and consumers, from left to right, one for every
occurrence. `Expression.layout` lists the nodes an expression stands for in a shape, as placements,
and the track behind them. It is a plain recursion on the expression: it checks nothing and uses no
builder, only the number of the next node and the next leaf.

Three facts hold of every layout. The label is passed on (`label_layout`). Every node reads ports of
the track the layout starts from or of nodes of the layout before it, and so does the track behind it
(`offered_layout`). And the nodes come leaf by leaf, in the order of the leaves: leaf `i`
contributes the kinds of nodes it has in the shape, all with its actor and in group `i` of the scope
(`roles_layout`).
-/

set_option autoImplicit false
set_option relaxedAutoImplicit false

namespace Dataflow

variable {ε σ : Type}

/-! ### Leaves -/

/-- An occurrence of an actor in an expression. -/
inductive Leaf (ε σ : Type)
  | mapper (spec : Spec ε σ)
  | consumer (spec : Spec ε σ)

namespace Leaf

/-- The actor of a leaf. -/
def spec : Leaf ε σ → Spec ε σ
  | mapper spec => spec
  | consumer spec => spec

/-- The kinds of the nodes that a leaf stands for, in the order they are added. -/
def kinds (shape : Shape) : Leaf ε σ → List NodeKind
  | mapper spec => if shape = .train ∧ spec.stateful then [.trainer, .applier] else [.applier]
  | consumer _ =>
    match shape with
    | .train => [.trainer]
    | .apply => [.applier]

/-- A consumer needs a stateful actor, and a leaf that is trained needs a label. -/
def Admissible (shape : Shape) (labelled : Bool) : Leaf ε σ → Prop
  | mapper spec => shape = .train → spec.stateful = true → labelled = true
  | consumer spec => spec.stateful = true ∧ (shape = .train → labelled = true)

end Leaf

/-- The placement of a node of a leaf: a trainer reads the label after the features. -/
def Placement.ofLeaf (spec : Spec ε σ) (group : GroupId) (left : Track) (kind : NodeKind) :
    Placement ε σ :=
  { kind, spec, group := some group
    inputs := if kind = .trainer then left.ports ++ left.label.toList else left.ports }

namespace Leaf

/-- The nodes of a leaf. -/
def placements (leaf : Leaf ε σ) (shape : Shape) (group : GroupId) (left : Track) :
    List (Placement ε σ) :=
  (leaf.kinds shape).map (Placement.ofLeaf leaf.spec group left)

/-- The track behind a leaf whose first node has the number `node`: the outputs of its last node if
that is an applier, else the track before it. -/
def outlet (leaf : Leaf ε σ) (shape : Shape) (node : Nat) (left : Track) : Track :=
  if (leaf.kinds shape).getLast? = some .applier then
    left.rebased (node + (leaf.kinds shape).length - 1) leaf.spec.arity.outputs
  else left

end Leaf

namespace Expression

/-- To prove a fact of every expression, prove it of mappers and consumers, and of a compound from
its parts. -/
@[elab_as_elim]
theorem induction {motive : Expression ε σ → Prop}
    (mapper : ∀ spec, motive (.mapper spec)) (consumer : ∀ spec, motive (.consumer spec))
    (sequence : ∀ first second, motive first → motive second → motive (.sequence first second))
    (parallel : ∀ branches, (∀ branch ∈ branches, motive branch) → motive (.parallel branches))
    (expression : Expression ε σ) : motive expression := by
  refine @Expression.rec ε σ motive (fun branches ↦ ∀ branch ∈ branches, motive branch)
    mapper consumer sequence parallel ?_ ?_ expression
  · simp
  · intro head tail hhead htail branch hbranch
    rcases List.mem_cons.mp hbranch with rfl | hbranch
    · exact hhead
    · exact htail branch hbranch

mutual

/-- The leaves of an expression, from left to right. -/
def leaves : Expression ε σ → List (Leaf ε σ)
  | mapper spec => [.mapper spec]
  | consumer spec => [.consumer spec]
  | sequence first second => leaves first ++ leaves second
  | parallel branches => branchLeaves branches

/-- The leaves of branches, from left to right. -/
def branchLeaves : List (Expression ε σ) → List (Leaf ε σ)
  | [] => []
  | branch :: rest => leaves branch ++ branchLeaves rest

end

mutual

/-- The nodes an expression stands for in a shape, and the track behind them, if the next node has
the number `node` and the next leaf the ordinal `leaf` in the scope. -/
def layout (shape : Shape) (scope : Nat) :
    Expression ε σ → Nat → Nat → Track → List (Placement ε σ) × Track
  | mapper spec, node, leaf, left =>
    ((Leaf.mapper spec).placements shape ⟨scope, leaf⟩ left,
      (Leaf.mapper spec).outlet shape node left)
  | consumer spec, node, leaf, left =>
    ((Leaf.consumer spec).placements shape ⟨scope, leaf⟩ left,
      (Leaf.consumer spec).outlet shape node left)
  | sequence first second, node, leaf, left =>
    let front := layout shape scope first node leaf left
    let back := layout shape scope second (node + front.1.length) (leaf + first.leaves.length)
      front.2
    (front.1 ++ back.1, back.2)
  | parallel branches, node, leaf, left =>
    let all := branchLayout shape scope branches node leaf left
    (all.1, ⟨all.2, left.label⟩)

/-- The nodes branches stand for, and their output ports, side by side. -/
def branchLayout (shape : Shape) (scope : Nat) :
    List (Expression ε σ) → Nat → Nat → Track → List (Placement ε σ) × List PortRef
  | [], _, _, _ => ([], [])
  | branch :: rest, node, leaf, left =>
    let front := layout shape scope branch node leaf left
    let back := branchLayout shape scope rest (node + front.1.length) (leaf + branch.leaves.length)
      left
    (front.1 ++ back.1, front.2.ports ++ back.2)

end

end Expression

/-! ### Facts about layouts -/

/-- All ports of a track belong to nodes below a number. -/
structure Track.Below (t : Track) (n : Nat) : Prop where
  ports : ∀ port ∈ t.ports, port.node < n
  label : ∀ port ∈ t.label, port.node < n

theorem Track.Below.mono {t : Track} {m n : Nat} (h : t.Below m) (hmn : m ≤ n) : t.Below n where
  ports port hport := Nat.lt_of_lt_of_le (h.ports port hport) hmn
  label port hport := Nat.lt_of_lt_of_le (h.label port hport) hmn

/-- A port of a track, or of a node from `base` on and below `n`. -/
def Track.Offers (left : Track) (base n : Nat) (port : PortRef) : Prop :=
  port ∈ left.ports ∨ port ∈ left.label ∨ base ≤ port.node ∧ port.node < n

namespace Track.Offers

variable {left middle : Track} {base mid n : Nat} {port : PortRef}

theorem mono (h : left.Offers mid n port) (hbase : base ≤ mid) {m : Nat} (hm : n ≤ m) :
    left.Offers base m port :=
  h.imp_right fun hor ↦ hor.imp_right fun ⟨hle, hlt⟩ ↦
    ⟨Nat.le_trans hbase hle, Nat.lt_of_lt_of_le hlt hm⟩

/-- What a track offers that is itself behind other nodes. -/
theorem trans (h : middle.Offers mid n port)
    (hports : ∀ port ∈ middle.ports, left.Offers base mid port) (hlabel : middle.label = left.label)
    (hbase : base ≤ mid) (hn : mid ≤ n) : left.Offers base n port := by
  rcases h with h | h | ⟨hle, hlt⟩
  · exact (hports port h).mono (Nat.le_refl _) hn
  · exact .inr (.inl (hlabel ▸ h))
  · exact .inr (.inr ⟨Nat.le_trans hbase hle, hlt⟩)

theorem lt (h : left.Offers base n port) (hleft : left.Below n) : port.node < n := by
  rcases h with h | h | ⟨-, hlt⟩
  · exact hleft.ports port h
  · exact hleft.label port h
  · exact hlt

end Track.Offers

namespace Placement

theorem Grounded.append {n : Nat} {front back : List (Placement ε σ)} (hfront : Grounded n front)
    (hback : Grounded (n + front.length) back) : Grounded n (front ++ back) := by
  intro k p hp
  rw [List.getElem?_append] at hp
  split_ifs at hp with hk
  · exact hfront k p hp
  · have hbelow := hback (k - front.length) p hp
    rwa [Nat.add_assoc, Nat.add_sub_cancel' (Nat.le_of_not_lt hk)] at hbelow

/-- Placed from a number on, every node reads ports of a track or of nodes from `base` on that are
before it. -/
def Offered (left : Track) (base n : Nat) (ps : List (Placement ε σ)) : Prop :=
  ∀ k (p : Placement ε σ), ps[k]? = some p → ∀ port ∈ p.inputs, left.Offers base (n + k) port

theorem Offered.append {left : Track} {base n : Nat} {front back : List (Placement ε σ)}
    (hfront : Offered left base n front) (hback : Offered left base (n + front.length) back) :
    Offered left base n (front ++ back) := by
  intro k p hp
  rw [List.getElem?_append] at hp
  split_ifs at hp with hk
  · exact hfront k p hp
  · have hreads := hback (k - front.length) p hp
    rwa [Nat.add_assoc, Nat.add_sub_cancel' (Nat.le_of_not_lt hk)] at hreads

theorem Offered.grounded {left : Track} {base n : Nat} {ps : List (Placement ε σ)}
    (h : Offered left base n ps) (hleft : left.Below n) : Grounded n ps := fun k p hp port hport ↦
  (h k p hp port hport).lt (hleft.mono (Nat.le_add_right _ _))

/-- A node of a leaf reads ports of its track only. -/
theorem offers_ofLeaf {spec : Spec ε σ} {group : GroupId} {left : Track} {kind : NodeKind}
    (base n : Nat) : ∀ port ∈ (ofLeaf spec group left kind).inputs, left.Offers base n port := by
  intro port hport
  simp only [ofLeaf] at hport
  split_ifs at hport
  · rcases List.mem_append.mp hport with hport | hport
    · exact .inl hport
    · exact .inr (.inl (Option.mem_toList.mp hport))
  · exact .inl hport

end Placement

namespace Leaf

/-- In the apply shape no leaf needs a label. -/
theorem Admissible.unlabelled {leaf : Leaf ε σ} {shape : Shape} {labelled other : Bool}
    (h : leaf.Admissible shape labelled) : leaf.Admissible .apply other := by
  cases leaf with
  | mapper spec => exact fun hnot ↦ nomatch hnot
  | consumer spec => exact ⟨h.1, fun hnot ↦ nomatch hnot⟩

/-- Only trainers and appliers stand for leaves. -/
theorem cases_kinds {leaf : Leaf ε σ} {shape : Shape} {kind : NodeKind}
    (h : kind ∈ leaf.kinds shape) : kind = .trainer ∨ kind = .applier := by
  cases leaf with
  | mapper spec =>
    rw [kinds] at h
    split_ifs at h
    · simpa using h
    · exact .inr (List.mem_singleton.mp h)
  | consumer spec =>
    cases shape with
    | train => exact .inl (List.mem_singleton.mp h)
    | apply => exact .inr (List.mem_singleton.mp h)

/-- A leaf is trained only where there is a label. -/
theorem Admissible.labelled_of_trainer {leaf : Leaf ε σ} {shape : Shape} {labelled : Bool}
    (h : leaf.Admissible shape labelled) (hkind : .trainer ∈ leaf.kinds shape) :
    labelled = true := by
  cases leaf with
  | mapper spec =>
    rw [kinds] at hkind
    split_ifs at hkind with htrain
    · exact h htrain.1 htrain.2
    · simp at hkind
  | consumer spec =>
    cases shape with
    | train => exact h.2 rfl
    | apply => simp [kinds] at hkind

theorem length_placements (leaf : Leaf ε σ) (shape : Shape) (group : GroupId) (left : Track) :
    (leaf.placements shape group left).length = (leaf.kinds shape).length :=
  List.length_map _

theorem label_outlet (leaf : Leaf ε σ) (shape : Shape) (node : Nat) (left : Track) :
    (leaf.outlet shape node left).label = left.label := by
  unfold outlet
  split_ifs <;> rfl

theorem offered_placements (leaf : Leaf ε σ) (shape : Shape) (group : GroupId) (left : Track)
    (base n : Nat) : Placement.Offered left base n (leaf.placements shape group left) := by
  intro k p hp
  obtain ⟨kind, -, rfl⟩ := List.mem_map.mp (List.mem_of_getElem? hp)
  exact Placement.offers_ofLeaf base (n + k)

theorem offers_outlet (leaf : Leaf ε σ) (shape : Shape) (left : Track) (node : Nat) :
    ∀ port ∈ (leaf.outlet shape node left).ports,
      left.Offers node (node + (leaf.kinds shape).length) port := by
  intro port hport
  unfold outlet at hport
  split_ifs at hport with hlast
  · have hpos : 0 < (leaf.kinds shape).length := by
      refine List.length_pos_of_ne_nil fun hnil ↦ ?_
      rw [hnil] at hlast
      cases hlast
    obtain ⟨_, -, rfl⟩ := List.mem_map.mp hport
    refine .inr (.inr ⟨?_, ?_⟩)
    · change node ≤ node + (leaf.kinds shape).length - 1
      omega
    · change node + (leaf.kinds shape).length - 1 < node + (leaf.kinds shape).length
      omega
  · exact .inl hport

end Leaf

/-- What a node is there for: the kind of node, the actor and the group. -/
structure Role (ε σ : Type) where
  kind : NodeKind
  spec : Spec ε σ
  group : Option GroupId

/-- The role of the node of a placement. -/
def Placement.role (p : Placement ε σ) : Role ε σ :=
  ⟨p.kind, p.spec, p.group⟩

/-- The roles of the nodes of a leaf, in order. -/
def Leaf.roles (leaf : Leaf ε σ) (shape : Shape) (group : GroupId) : List (Role ε σ) :=
  (leaf.kinds shape).map fun kind ↦ ⟨kind, leaf.spec, some group⟩

/-- The roles of the nodes of leaves, of which the first has the ordinal `start` in the scope. -/
def rolesFrom (shape : Shape) (scope start : Nat) (leaves : List (Leaf ε σ)) : List (Role ε σ) :=
  (leaves.zipIdx start).flatMap fun (leaf, i) ↦ leaf.roles shape ⟨scope, i⟩

/-- The groups of leaves, of which the first has the ordinal `start` in the scope, with their
actors. -/
def groupsFrom (scope start : Nat) (leaves : List (Leaf ε σ)) : List (GroupId × Spec ε σ) :=
  (leaves.zipIdx start).map fun (leaf, i) ↦ (⟨scope, i⟩, leaf.spec)

theorem groupsFrom_append (scope start : Nat) (front back : List (Leaf ε σ)) :
    groupsFrom scope start (front ++ back) =
      groupsFrom scope start front ++ groupsFrom scope (start + front.length) back := by
  unfold groupsFrom
  rw [List.zipIdx_append, List.map_append]

theorem rolesFrom_append (shape : Shape) (scope start : Nat) (front back : List (Leaf ε σ)) :
    rolesFrom shape scope start (front ++ back) =
      rolesFrom shape scope start front ++ rolesFrom shape scope (start + front.length) back := by
  unfold rolesFrom
  rw [List.zipIdx_append, List.flatMap_append]

namespace Expression

variable (shape : Shape) (scope : Nat)

/-- An expression passes the label on. -/
theorem label_layout (expression : Expression ε σ) (node leaf : Nat) (left : Track) :
    (expression.layout shape scope node leaf left).2.label = left.label := by
  induction expression using Expression.induction generalizing node leaf left with
  | mapper spec => exact Leaf.label_outlet _ shape node left
  | consumer spec => exact Leaf.label_outlet _ shape node left
  | sequence first second ihfirst ihsecond =>
    rw [layout, ihsecond, ihfirst]
  | parallel branches => rfl

/-- What `offered_layout` says of an expression. -/
def LaidFromTrack (expression : Expression ε σ) : Prop :=
  ∀ (node leaf : Nat) (left : Track),
    let laid := expression.layout shape scope node leaf left
    Placement.Offered left node node laid.1 ∧
      ∀ port ∈ laid.2.ports, left.Offers node (node + laid.1.length) port

theorem offered_branchLayout {branches : List (Expression ε σ)}
    (hbranches : ∀ branch ∈ branches, branch.LaidFromTrack shape scope) {base node : Nat}
    (hbase : base ≤ node) (leaf : Nat) (left : Track) :
    let laid := branchLayout shape scope branches node leaf left
    Placement.Offered left base node laid.1 ∧
      ∀ port ∈ laid.2, left.Offers base (node + laid.1.length) port := by
  induction branches generalizing node leaf with
  | nil => simp [branchLayout, Placement.Offered]
  | cons branch rest ih =>
    obtain ⟨hfront, hports⟩ := hbranches branch List.mem_cons_self node leaf left
    obtain ⟨hback, hothers⟩ :=
      ih (fun other hother ↦ hbranches other (List.mem_cons_of_mem _ hother))
        (Nat.le_add_right_of_le hbase) (leaf + branch.leaves.length)
    refine ⟨Placement.Offered.append (fun k p hp port hport ↦ ?_) hback, fun port hport ↦ ?_⟩
    · exact (hfront k p hp port hport).mono hbase (Nat.le_refl _)
    · rw [branchLayout, List.length_append, ← Nat.add_assoc]
      rcases List.mem_append.mp hport with hport | hport
      · exact (hports port hport).mono hbase (Nat.le_add_right _ _)
      · exact hothers port hport

/-- Every node reads ports of the track that the layout starts from, or of nodes of the layout before
it, and the track behind the layout leads to such ports as well. -/
theorem offered_layout (expression : Expression ε σ) : expression.LaidFromTrack shape scope := by
  induction expression using Expression.induction with
  | mapper spec =>
    intro node leaf left
    refine ⟨Leaf.offered_placements _ shape _ left node node, ?_⟩
    rw [layout, Leaf.length_placements]
    exact Leaf.offers_outlet _ shape left node
  | consumer spec =>
    intro node leaf left
    refine ⟨Leaf.offered_placements _ shape _ left node node, ?_⟩
    rw [layout, Leaf.length_placements]
    exact Leaf.offers_outlet _ shape left node
  | sequence first second ihfirst ihsecond =>
    intro node leaf left
    obtain ⟨hfront, hmiddle⟩ := ihfirst node leaf left
    have hlabel := first.label_layout shape scope node leaf left
    obtain ⟨hback, hright⟩ := ihsecond (node + (layout shape scope first node leaf left).1.length)
      (leaf + first.leaves.length) (layout shape scope first node leaf left).2
    refine ⟨hfront.append fun k p hp port hport ↦ ?_, fun port hport ↦ ?_⟩
    · exact (hback k p hp port hport).trans hmiddle hlabel (Nat.le_add_right _ _)
        (Nat.le_add_right _ _)
    · rw [layout, List.length_append, ← Nat.add_assoc]
      exact (hright port hport).trans hmiddle hlabel (Nat.le_add_right _ _) (Nat.le_add_right _ _)
  | parallel branches ih =>
    intro node leaf left
    exact offered_branchLayout shape scope ih (Nat.le_refl node) leaf left

/-- Behind nodes below a number, every node reads ports of nodes before it, and the track behind the
layout leads to nodes of it or before it. -/
theorem grounded_layout (expression : Expression ε σ) (node leaf : Nat) {left : Track}
    (h : left.Below node) :
    let laid := expression.layout shape scope node leaf left
    Placement.Grounded node laid.1 ∧ laid.2.Below (node + laid.1.length) := by
  obtain ⟨hreads, hports⟩ := expression.offered_layout shape scope node leaf left
  refine ⟨hreads.grounded h, fun port hport ↦ ?_, fun port hport ↦ ?_⟩
  · exact (hports port hport).lt (h.mono (Nat.le_add_right _ _))
  · rw [label_layout] at hport
    exact Nat.lt_of_lt_of_le (h.label port hport) (Nat.le_add_right _ _)

theorem roles_branchLayout {branches : List (Expression ε σ)}
    (hbranches : ∀ branch ∈ branches, ∀ (node leaf : Nat) (left : Track),
      (branch.layout shape scope node leaf left).1.map Placement.role =
        rolesFrom shape scope leaf branch.leaves) (node leaf : Nat) (left : Track) :
    (branchLayout shape scope branches node leaf left).1.map Placement.role =
      rolesFrom shape scope leaf (branchLeaves branches) := by
  induction branches generalizing node leaf with
  | nil => rfl
  | cons branch rest ih =>
    rw [branchLayout, branchLeaves, List.map_append, rolesFrom_append,
      hbranches branch List.mem_cons_self,
      ih fun other hother ↦ hbranches other (List.mem_cons_of_mem _ hother)]

/-- The nodes of a layout come leaf by leaf, each with its leaf's actor and group. -/
theorem roles_layout (expression : Expression ε σ) (node leaf : Nat) (left : Track) :
    (expression.layout shape scope node leaf left).1.map Placement.role =
      rolesFrom shape scope leaf expression.leaves := by
  induction expression using Expression.induction generalizing node leaf left with
  | mapper spec => simp [layout, leaves, rolesFrom, Leaf.placements, Leaf.roles, Placement.ofLeaf,
      Placement.role, Leaf.spec]
  | consumer spec => simp [layout, leaves, rolesFrom, Leaf.placements, Leaf.roles, Placement.ofLeaf,
      Placement.role, Leaf.spec]
  | sequence first second ihfirst ihsecond =>
    rw [layout, leaves, List.map_append, rolesFrom_append, ihfirst, ihsecond]
  | parallel branches ih => exact roles_branchLayout shape scope ih node leaf left

end Expression

end Dataflow
