import Dataflow.Proofs.Compilation

/-!
# Where the nodes of a fold stand

All folds of an evaluation have as many nodes, because the number of nodes an expression stands for
depends on its leaves and the shape only (`Expression.length_layout`). So the nodes of a fold stand
at the numbers from `Expression.splitterAt` to `Expression.metricAt`: the splitter, the pipeline as
it is fitted, the pipeline as it is applied, and the metric. These numbers depend on the pipeline
alone, not on the evaluation, the source or the sink.

`Workflow.InFold` lists the nodes of a fold with what they read. They are nodes of the graph
(`Workflow.InFold.getElem?_layout`), and every other node belongs to no group
(`Workflow.cases_layout`). Every node of an evaluation reads ports of nodes before it, so its nodes
run in the order of their numbers (`Workflow.Compiled.order_eval`).
-/

set_option autoImplicit false
set_option relaxedAutoImplicit false

namespace Dataflow

variable {ε σ : Type}

/-! ### How many nodes an expression stands for -/

theorem length_rolesFrom (shape : Shape) (scope start : Nat) (leaves : List (Leaf ε σ)) :
    (rolesFrom shape scope start leaves).length =
      (leaves.flatMap fun leaf ↦ leaf.kinds shape).length := by
  induction leaves generalizing start with
  | nil => rfl
  | cons leaf rest ih =>
    rw [rolesFrom_cons, List.length_append, ih, Leaf.roles, List.length_map, List.flatMap_cons,
      List.length_append]

namespace Expression

/-- The number of nodes an expression stands for in a shape. -/
def size (shape : Shape) (expression : Expression ε σ) : Nat :=
  (expression.leaves.flatMap fun leaf ↦ leaf.kinds shape).length

theorem length_layout (shape : Shape) (scope : Nat) (expression : Expression ε σ) (node leaf : Nat)
    (left : Track) :
    (expression.layout shape scope node leaf left).1.length = expression.size shape := by
  rw [← List.length_map Placement.role, roles_layout, length_rolesFrom]
  rfl

/-! ### The numbers of a fold -/

/-- The number of nodes of a fold. -/
def span (expression : Expression ε σ) : Nat :=
  expression.size .train + expression.size .apply + 2

/-- The number of the splitter of a fold: before the first there are the source and the extraction
of the label. -/
def splitterAt (expression : Expression ε σ) (fold : Nat) : Nat :=
  2 + fold * expression.span

/-- The number of the first node of a fold that applies what has been fitted. -/
def appliedAt (expression : Expression ε σ) (fold : Nat) : Nat :=
  expression.splitterAt fold + 1 + expression.size .train

/-- The number of the metric of a fold. -/
def metricAt (expression : Expression ε σ) (fold : Nat) : Nat :=
  expression.appliedAt fold + expression.size .apply

variable (expression : Expression ε σ)

theorem splitterAt_add_sub_two (fold i : Nat) :
    expression.splitterAt fold + i - 2 = fold * expression.span + i := by
  simp only [splitterAt]
  omega

theorem metricAt_eq (fold : Nat) :
    expression.metricAt fold + 1 = expression.splitterAt fold + expression.span := by
  simp only [metricAt, appliedAt, span]
  omega

theorem splitterAt_le_metricAt (fold : Nat) :
    expression.splitterAt fold ≤ expression.metricAt fold := by
  simp only [metricAt, appliedAt]
  omega

theorem metricAt_lt_splitterAt {fold other : Nat} (h : fold < other) :
    expression.metricAt fold < expression.splitterAt other := by
  have hle : (fold + 1) * expression.span ≤ other * expression.span :=
    Nat.mul_le_mul_right _ h
  have hlast := expression.metricAt_eq fold
  rw [Nat.succ_mul] at hle
  simp only [splitterAt] at hlast ⊢
  omega

/-- A number belongs to one fold only. -/
theorem fold_unique {fold other k : Nat} (hlow : expression.splitterAt fold ≤ k)
    (hhigh : k ≤ expression.metricAt fold) (hlow' : expression.splitterAt other ≤ k)
    (hhigh' : k ≤ expression.metricAt other) : fold = other := by
  rcases Nat.lt_trichotomy fold other with hlt | heq | hlt
  · have hbefore := expression.metricAt_lt_splitterAt hlt
    omega
  · exact heq
  · have hbehind := expression.metricAt_lt_splitterAt hlt
    omega

/-- A number from that of the first splitter on belongs to a fold. -/
theorem exists_splitterAt_add {k folds : Nat} (h : 2 ≤ k) (hk : k < expression.splitterAt folds) :
    ∃ fold < folds, ∃ i < expression.span, k = expression.splitterAt fold + i := by
  have hspan : 0 < expression.span := Nat.succ_pos _
  have hdiv := Nat.div_add_mod' (k - 2) expression.span
  simp only [splitterAt] at hk ⊢
  refine ⟨(k - 2) / expression.span, Nat.div_lt_of_lt_mul ?_, (k - 2) % expression.span,
    Nat.mod_lt _ hspan, by omega⟩
  rw [Nat.mul_comm]
  omega

/-- The training features and the training label of a fold. -/
def trainTrack (fold : Nat) : Track :=
  ⟨[⟨expression.splitterAt fold, 0⟩], some ⟨expression.splitterAt fold, 1⟩⟩

/-- The test features of a fold. -/
def testTrack (fold : Nat) : Track :=
  ⟨[⟨expression.splitterAt fold, 2⟩], none⟩

theorem below_trainTrack (fold : Nat) :
    (expression.trainTrack fold).Below (expression.splitterAt fold + 1) := by
  refine ⟨fun port hport ↦ ?_, fun port hport ↦ ?_⟩
  · rw [List.mem_singleton.mp hport]
    exact Nat.lt_succ_self _
  · rw [← Option.some.inj hport]
    exact Nat.lt_succ_self _

theorem below_testTrack (fold : Nat) :
    (expression.testTrack fold).Below (expression.splitterAt fold + 1) := by
  refine ⟨fun port hport ↦ ?_, fun port hport ↦ nomatch hport⟩
  rw [List.mem_singleton.mp hport]
  exact Nat.lt_succ_self _

/-- The pipeline of a fold as it is fitted. -/
def fittedLayout (fold : Nat) : List (Placement ε σ) × Track :=
  expression.layout .train (Workflow.foldScope fold) (expression.splitterAt fold + 1) 0
    (expression.trainTrack fold)

/-- The pipeline of a fold as it is applied. -/
def appliedLayout (fold : Nat) : List (Placement ε σ) × Track :=
  expression.layout .apply (Workflow.foldScope fold) (expression.appliedAt fold) 0
    (expression.testTrack fold)

theorem length_fittedLayout (fold : Nat) :
    (expression.fittedLayout fold).1.length = expression.size .train :=
  expression.length_layout _ _ _ _ _

theorem length_appliedLayout (fold : Nat) :
    (expression.appliedLayout fold).1.length = expression.size .apply :=
  expression.length_layout _ _ _ _ _

variable {expression}

theorem role_of_mem_layout {shape : Shape} {scope node leaf : Nat} {left : Track}
    {p : Placement ε σ} (h : p ∈ (expression.layout shape scope node leaf left).1) :
    p.role ∈ rolesFrom shape scope leaf expression.leaves := by
  rw [← expression.roles_layout shape scope node leaf left]
  exact List.mem_map_of_mem h

/-- A node that an expression stands for has the actor and the group of a leaf. -/
theorem exists_leaf_of_mem_layout {shape : Shape} {scope node : Nat} {left : Track}
    {p : Placement ε σ} (h : p ∈ (expression.layout shape scope node 0 left).1) :
    ∃ (i : Nat) (leaf : Leaf ε σ), expression.leaves[i]? = some leaf ∧ p.spec = leaf.spec ∧
      p.group = some ⟨scope, i⟩ := by
  obtain ⟨i, leaf, hleaf, hrole⟩ := mem_rolesFrom (role_of_mem_layout h)
  obtain ⟨hspec, hgroup⟩ := Leaf.group_of_mem_roles hrole
  exact ⟨i, leaf, hleaf, hspec, hgroup.trans (by rw [Nat.zero_add])⟩

/-- Every leaf has a node. -/
theorem exists_mem_layout {i : Nat} (hi : i < expression.leaves.length) (shape : Shape)
    (scope node : Nat) (left : Track) :
    ∃ p ∈ (expression.layout shape scope node 0 left).1, p.group = some ⟨scope, i⟩ := by
  have hentry := mem_groupsFrom_of_getElem? (List.getElem?_eq_getElem hi) scope
  obtain ⟨role, hrole, hgroup⟩ := exists_mem_rolesFrom hentry shape
  rw [← expression.roles_layout shape scope node 0 left] at hrole
  obtain ⟨p, hp, rfl⟩ := List.mem_map.mp hrole
  exact ⟨p, hp, hgroup⟩

end Expression

/-! ### The nodes of a fold -/

/-- The track behind the extraction of the label. -/
def Track.extracted : Track :=
  ⟨[⟨1, 0⟩], some ⟨1, 1⟩⟩

namespace Workflow

variable (w : Workflow ε σ) (evaluation : Evaluation ε σ)

/-- The nodes of a fold, by their numbers. -/
inductive InFold (fold : Nat) : NodeId → Placement ε σ → Prop
  | splitter : InFold fold (w.pipeline.expression.splitterAt fold)
      ⟨.applier, evaluation.splitter fold, none, [⟨1, 0⟩, ⟨1, 1⟩]⟩
  | fitted {i : Nat} {p : Placement ε σ}
      (h : (w.pipeline.expression.fittedLayout fold).1[i]? = some p) :
      InFold fold (w.pipeline.expression.splitterAt fold + 1 + i) p
  | applied {i : Nat} {p : Placement ε σ}
      (h : (w.pipeline.expression.appliedLayout fold).1[i]? = some p) :
      InFold fold (w.pipeline.expression.appliedAt fold + i) p
  | metric : InFold fold (w.pipeline.expression.metricAt fold)
      ⟨.applier, evaluation.metric, none, (w.pipeline.expression.appliedLayout fold).2.ports ++
        [⟨w.pipeline.expression.splitterAt fold, 3⟩]⟩

/-- The layout of a fold at its numbers. -/
theorem foldLayout_eq (fold : Nat) :
    let e := w.pipeline.expression
    (w.foldLayout evaluation .extracted (e.splitterAt fold) fold).1 =
      [⟨.applier, evaluation.splitter fold, none, [⟨1, 0⟩, ⟨1, 1⟩]⟩] ++ (e.fittedLayout fold).1 ++
        (e.appliedLayout fold).1 ++
        [⟨.applier, evaluation.metric, none,
          (e.appliedLayout fold).2.ports ++ [⟨e.splitterAt fold, 3⟩]⟩] := by
  unfold foldLayout body Expression.appliedLayout Expression.appliedAt
  dsimp only
  rw [Expression.length_layout]
  rfl

theorem length_foldLayout (head : Track) (node fold : Nat) :
    (w.foldLayout evaluation head node fold).1.length = w.pipeline.expression.span := by
  unfold foldLayout body
  simp only [List.length_append, List.length_singleton, Expression.length_layout, Expression.span]
  omega

variable {w evaluation} {fold : Nat}

/-- A node of a fold is in the layout of the fold. -/
theorem InFold.exists_offset {k : NodeId} {p : Placement ε σ} (h : w.InFold evaluation fold k p) :
    ∃ i, k = w.pipeline.expression.splitterAt fold + i ∧ (w.foldLayout evaluation .extracted
      (w.pipeline.expression.splitterAt fold) fold).1[i]? = some p := by
  have hfitted := w.pipeline.expression.length_fittedLayout fold
  have happlied := w.pipeline.expression.length_appliedLayout fold
  rw [foldLayout_eq]
  cases h with
  | splitter => exact ⟨0, rfl, rfl⟩
  | @fitted i _ h =>
    refine ⟨1 + i, Nat.add_assoc _ _ _, ?_⟩
    rw [List.append_assoc _ _ [_]]
    exact getElem?_append_middle _ rfl h
  | @applied i _ h =>
    refine ⟨1 + w.pipeline.expression.size .train + i, ?_, ?_⟩
    · simp only [Expression.appliedAt, Nat.add_assoc]
    · refine getElem?_append_middle _ ?_ h
      rw [List.length_append, List.length_singleton, hfitted]
  | metric =>
    refine ⟨1 + w.pipeline.expression.size .train + w.pipeline.expression.size .apply, ?_, ?_⟩
    · simp only [Expression.metricAt, Expression.appliedAt, Nat.add_assoc]
    · refine (congrArg (_[·]?) ?_).trans List.getElem?_concat_length
      rw [List.length_append, List.length_append, List.length_singleton, hfitted, happlied]

/-- What is in the layout of a fold is a node of the fold. -/
theorem inFold_of_getElem? {i : Nat} {p : Placement ε σ} (h : (w.foldLayout evaluation .extracted
      (w.pipeline.expression.splitterAt fold) fold).1[i]? = some p) :
    w.InFold evaluation fold (w.pipeline.expression.splitterAt fold + i) p := by
  have hfitted := w.pipeline.expression.length_fittedLayout fold
  have happlied := w.pipeline.expression.length_appliedLayout fold
  rw [foldLayout_eq, List.getElem?_append] at h
  simp only [List.length_append, List.length_singleton, hfitted, happlied] at h
  split_ifs at h with hmetric
  · rw [List.getElem?_append] at h
    simp only [List.length_append, List.length_singleton, hfitted] at h
    split_ifs at h with hbefore
    · cases i with
      | zero =>
        obtain rfl := Option.some.inj h
        exact .splitter
      | succ i =>
        rw [Nat.add_comm i 1, ← Nat.add_assoc]
        exact .fitted h
    · have hat : w.pipeline.expression.splitterAt fold + i = w.pipeline.expression.appliedAt fold +
          (i - (1 + w.pipeline.expression.size .train)) := by
        simp only [Expression.appliedAt]
        omega
      rw [hat]
      exact .applied h
  · rw [List.getElem?_singleton] at h
    split_ifs at h with hlast
    obtain rfl := Option.some.inj h
    have hat : w.pipeline.expression.splitterAt fold + i = w.pipeline.expression.metricAt fold := by
      simp only [Expression.metricAt, Expression.appliedAt]
      omega
    rw [hat]
    exact .metric

theorem InFold.bounds {k : Nat} {p : Placement ε σ} (h : w.InFold evaluation fold k p) :
    w.pipeline.expression.splitterAt fold ≤ k ∧ k ≤ w.pipeline.expression.metricAt fold := by
  obtain ⟨i, rfl, hi⟩ := h.exists_offset
  have hlt := (List.getElem?_eq_some_iff.mp hi).1
  rw [length_foldLayout] at hlt
  have hlast := w.pipeline.expression.metricAt_eq fold
  refine ⟨Nat.le_add_right _ _, ?_⟩
  rw [← Nat.lt_succ_iff, Nat.succ_eq_add_one, hlast]
  exact Nat.add_lt_add_left hlt _

/-- The pipeline's nodes belong to groups of the fold's scope, the splitter and the metric to no
group. -/
theorem InFold.cases_group {k : Nat} {p : Placement ε σ} (h : w.InFold evaluation fold k p) :
    (w.pipeline.expression.splitterAt fold < k ∧ k < w.pipeline.expression.metricAt fold) ∧
        (∃ i, p.group = some ⟨foldScope fold, i⟩) ∨
      (k = w.pipeline.expression.splitterAt fold ∨ k = w.pipeline.expression.metricAt fold) ∧
        p.group = none ∧ p.kind ≠ .trainer := by
  cases h with
  | splitter => exact .inr ⟨.inl rfl, rfl, nofun⟩
  | metric => exact .inr ⟨.inr rfl, rfl, nofun⟩
  | @fitted i _ h =>
    have hlt := (List.getElem?_eq_some_iff.mp h).1
    rw [Expression.length_fittedLayout] at hlt
    obtain ⟨j, -, -, -, hgroup⟩ := Expression.exists_leaf_of_mem_layout (List.mem_of_getElem? h)
    refine .inl ⟨?_, j, hgroup⟩
    simp only [Expression.metricAt, Expression.appliedAt]
    omega
  | @applied i _ h =>
    have hlt := (List.getElem?_eq_some_iff.mp h).1
    rw [Expression.length_appliedLayout] at hlt
    obtain ⟨j, -, -, -, hgroup⟩ := Expression.exists_leaf_of_mem_layout (List.mem_of_getElem? h)
    refine .inl ⟨?_, j, hgroup⟩
    simp only [Expression.metricAt, Expression.appliedAt]
    omega

theorem InFold.exists_group {k : Nat} {p : Placement ε σ} (h : w.InFold evaluation fold k p)
    (hlow : w.pipeline.expression.splitterAt fold < k)
    (hhigh : k < w.pipeline.expression.metricAt fold) :
    ∃ i, p.group = some ⟨foldScope fold, i⟩ := by
  rcases h.cases_group with ⟨-, hgroup⟩ | ⟨hk, -⟩
  · exact hgroup
  · omega

/-- The nodes of a group of a fold have the actor of a leaf. -/
theorem InFold.exists_leaf {k : Nat} {p : Placement ε σ} (h : w.InFold evaluation fold k p)
    {i : Nat} (hgroup : p.group = some ⟨foldScope fold, i⟩) :
    ∃ leaf, w.pipeline.expression.leaves[i]? = some leaf ∧ p.spec = leaf.spec := by
  cases h with
  | splitter => cases hgroup
  | metric => cases hgroup
  | fitted h =>
    exact exists_leaf_of_mem_rolesFrom
      (Expression.role_of_mem_layout (List.mem_of_getElem? h)) hgroup
  | applied h =>
    exact exists_leaf_of_mem_rolesFrom
      (Expression.role_of_mem_layout (List.mem_of_getElem? h)) hgroup

/-- The trainers of a fold are among the nodes that are fitted. -/
theorem InFold.fitted_of_trainer {k : Nat} {p : Placement ε σ} (h : w.InFold evaluation fold k p)
    (hkind : p.kind = .trainer) :
    w.pipeline.expression.splitterAt fold < k ∧ k < w.pipeline.expression.appliedAt fold := by
  cases h with
  | splitter => cases hkind
  | metric => cases hkind
  | @fitted i _ h =>
    have hlt := (List.getElem?_eq_some_iff.mp h).1
    rw [Expression.length_fittedLayout] at hlt
    exact ⟨by omega, Nat.add_lt_add_left hlt _⟩
  | applied h =>
    have hrole := Expression.role_of_mem_layout (List.mem_of_getElem? h)
    have happlier : p.kind = .applier := kind_of_mem_rolesFrom_apply hrole
    rw [happlier] at hkind
    cases hkind

theorem InFold.exists_fitted {k : Nat} {p : Placement ε σ} (h : w.InFold evaluation fold k p)
    (hlow : w.pipeline.expression.splitterAt fold < k)
    (hhigh : k < w.pipeline.expression.appliedAt fold) :
    ∃ i, k = w.pipeline.expression.splitterAt fold + 1 + i ∧
      (w.pipeline.expression.fittedLayout fold).1[i]? = some p := by
  cases h with
  | splitter => exact absurd hlow (Nat.lt_irrefl _)
  | metric => exact absurd hhigh (Nat.not_lt.mpr (Nat.le_add_right _ _))
  | @fitted i _ h => exact ⟨i, rfl, h⟩
  | applied h => exact absurd hhigh (Nat.not_lt.mpr (Nat.le_add_right _ _))

theorem InFold.exists_applied {k : Nat} {p : Placement ε σ} (h : w.InFold evaluation fold k p)
    (hlow : w.pipeline.expression.appliedAt fold ≤ k)
    (hhigh : k < w.pipeline.expression.metricAt fold) :
    ∃ i, k = w.pipeline.expression.appliedAt fold + i ∧
      (w.pipeline.expression.appliedLayout fold).1[i]? = some p := by
  cases h with
  | splitter =>
    simp only [Expression.appliedAt] at hlow
    omega
  | metric => exact absurd hhigh (Nat.lt_irrefl _)
  | @fitted i _ h =>
    have hlt := (List.getElem?_eq_some_iff.mp h).1
    rw [Expression.length_fittedLayout] at hlt
    simp only [Expression.appliedAt] at hlow
    omega
  | @applied i _ h => exact ⟨i, rfl, h⟩

/-! ### All folds -/

variable (w evaluation) in
theorem length_foldsLayout (head : Track) (node : Nat) (folds : List Nat) :
    (w.foldsLayout evaluation head node folds).1.length =
      folds.length * w.pipeline.expression.span := by
  induction folds generalizing node with
  | nil => exact (Nat.zero_mul _).symm
  | cons fold rest ih =>
    rw [foldsLayout, List.length_append, length_foldLayout, ih, List.length_cons, Nat.succ_mul,
      Nat.add_comm]

/-- All folds have as many nodes, so the nodes of each stand at a multiple of that. -/
theorem getElem?_foldsLayout (head : Track) {folds : List Nat} {j : Nat}
    (hj : folds[j]? = some fold) (node : Nat) {i : Nat} (hi : i < w.pipeline.expression.span) :
    (w.foldsLayout evaluation head node folds).1[j * w.pipeline.expression.span + i]? =
      (w.foldLayout evaluation head (node + j * w.pipeline.expression.span) fold).1[i]? := by
  induction folds generalizing node j with
  | nil => cases hj
  | cons first rest ih =>
    have hfirst := w.length_foldLayout evaluation head node first
    rw [foldsLayout]
    cases j with
    | zero =>
      obtain rfl : first = fold := Option.some.inj hj
      rw [Nat.zero_mul, Nat.zero_add, Nat.add_zero]
      exact List.getElem?_append_left (hfirst ▸ hi)
    | succ j =>
      have hrest := ih hj (node + w.pipeline.expression.span)
      rw [Nat.succ_mul, Nat.add_right_comm, List.getElem?_append_right (by omega), hfirst,
        Nat.add_sub_cancel, hrest, Nat.add_assoc node, Nat.add_comm w.pipeline.expression.span]

/-- The metrics of folds are nodes of the folds. -/
theorem lt_of_mem_foldsLayout (head : Track) (node : Nat) (folds : List Nat) :
    ∀ port ∈ (w.foldsLayout evaluation head node folds).2,
      port.node < node + (w.foldsLayout evaluation head node folds).1.length := by
  induction folds generalizing node with
  | nil => exact fun port hport ↦ nomatch hport
  | cons fold rest ih =>
    intro port hport
    rw [foldsLayout, List.length_append, ← Nat.add_assoc]
    rcases List.mem_cons.mp hport with rfl | hport
    · refine Nat.lt_of_lt_of_le ?_ (Nat.le_add_right _ _)
      simp only [foldLayout, List.length_append, List.length_singleton]
      omega
    · exact ih _ port hport

variable (w evaluation) in
/-- The ports of the metrics of folds that are laid out one after another. -/
theorem ports_foldsLayout (head : Track) (fold left : Nat) :
    (w.foldsLayout evaluation head (w.pipeline.expression.splitterAt fold)
        (List.range' fold left)).2 =
      (List.range' fold left).map fun k ↦ ⟨w.pipeline.expression.metricAt k, 0⟩ := by
  induction left generalizing fold with
  | zero => rfl
  | succ left ih =>
    have hnext : w.pipeline.expression.splitterAt fold + w.pipeline.expression.span =
        w.pipeline.expression.splitterAt (fold + 1) := by
      simp only [Expression.splitterAt, Nat.succ_mul]
      omega
    rw [List.range'_succ, foldsLayout, List.map_cons, length_foldLayout, hnext, ih]
    refine congrArg (· :: _) ?_
    simp only [foldLayout, body, Expression.length_layout, Expression.metricAt,
      Expression.appliedAt]

section Layout

variable [Inhabited σ] (producer receiver : Spec ε σ) {label : String}

/-- The layout of an evaluation: the source, the extraction of the label, the folds, the aggregator
and the sink. -/
theorem layout_eval (hevaluation : w.evaluation = some evaluation)
    (hlabel : w.source.label = some label) :
    let folds := w.foldsLayout evaluation .extracted 2 (List.range evaluation.folds)
    w.layout producer receiver .eval =
      [⟨.source, producer, none, []⟩, ⟨.applier, Builtin.extract label, none, [⟨0, 0⟩]⟩] ++
        folds.1 ++
        [⟨.applier, evaluation.aggregator evaluation.folds, none, folds.2⟩,
          ⟨.sink, receiver, none, [⟨2 + folds.1.length, 0⟩]⟩] := by
  simp only [layout, middleLayout, hevaluation, evaluationLayout, extraction, hlabel]
  simp [Track.extracted]

/-- The nodes of a fold are nodes of the evaluation. -/
theorem InFold.getElem?_layout (hevaluation : w.evaluation = some evaluation)
    (hlabel : w.source.label = some label) {k : NodeId} {p : Placement ε σ}
    (h : w.InFold evaluation fold k p) (hfold : fold < evaluation.folds) :
    (w.layout producer receiver .eval)[k]? = some p := by
  obtain ⟨i, rfl, hi⟩ := h.exists_offset
  have hlt := (List.getElem?_eq_some_iff.mp hi).1
  rw [length_foldLayout] at hlt
  rw [layout_eval producer receiver hevaluation hlabel, Expression.splitterAt, Nat.add_assoc]
  refine getElem?_append_middle _ rfl ?_
  rw [getElem?_foldsLayout .extracted (List.getElem?_range hfold) 2 hlt]
  exact hi

/-- A node of the evaluation is a node of a fold, or it stands before all folds or behind them, and
then it belongs to no group and trains nothing. -/
theorem cases_layout (hevaluation : w.evaluation = some evaluation)
    (hlabel : w.source.label = some label) {k : Nat} {p : Placement ε σ}
    (h : (w.layout producer receiver .eval)[k]? = some p) :
    (∃ fold < evaluation.folds, w.InFold evaluation fold k p) ∨
      (k < 2 ∨ w.pipeline.expression.splitterAt evaluation.folds ≤ k) ∧ p.group = none ∧
        p.kind ≠ .trainer ∧ p.Below k := by
  have hcount := w.length_foldsLayout evaluation .extracted 2 (List.range evaluation.folds)
  have hmetrics : ∀ port ∈ (w.foldsLayout evaluation .extracted 2 (List.range _)).2, _ :=
    lt_of_mem_foldsLayout .extracted 2 (List.range evaluation.folds)
  rw [List.length_range] at hcount
  rw [layout_eval producer receiver hevaluation hlabel, List.append_assoc,
    List.getElem?_append] at h
  split_ifs at h with hearly
  · refine .inr ⟨.inl hearly, ?_⟩
    match k, hearly with
    | 0, _ =>
      obtain rfl := Option.some.inj h
      exact ⟨rfl, nofun, fun port hport ↦ nomatch hport⟩
    | 1, _ =>
      obtain rfl := Option.some.inj h
      refine ⟨rfl, nofun, fun port hport ↦ ?_⟩
      rw [List.mem_singleton.mp hport]
      exact Nat.one_pos
  · have hlate : 2 ≤ k := Nat.le_of_not_lt hearly
    change (_ ++ _)[k - 2]? = some p at h
    by_cases hbefore : k < w.pipeline.expression.splitterAt evaluation.folds
    · obtain ⟨fold, hfold, i, hi, rfl⟩ := w.pipeline.expression.exists_splitterAt_add hlate hbefore
      have hlt : fold * w.pipeline.expression.span + i <
          evaluation.folds * w.pipeline.expression.span := by
        simp only [Expression.splitterAt] at hbefore
        omega
      rw [Expression.splitterAt_add_sub_two, List.getElem?_append_left (hcount ▸ hlt),
        getElem?_foldsLayout .extracted (List.getElem?_range hfold) 2 hi] at h
      exact .inl ⟨fold, hfold, inFold_of_getElem? h⟩
    · have hbehind : w.pipeline.expression.splitterAt evaluation.folds ≤ k :=
        Nat.le_of_not_lt hbefore
      refine .inr ⟨.inr hbehind, ?_⟩
      obtain ⟨i, rfl⟩ := Nat.exists_eq_add_of_le hbehind
      rw [Expression.splitterAt_add_sub_two, ← hcount,
        List.getElem?_append_right (Nat.le_add_right _ _), Nat.add_sub_cancel_left] at h
      rw [Expression.splitterAt, ← hcount]
      match i with
      | 0 =>
        obtain rfl := Option.some.inj h
        exact ⟨rfl, nofun, hmetrics⟩
      | 1 =>
        obtain rfl := Option.some.inj h
        refine ⟨rfl, nofun, fun port hport ↦ ?_⟩
        rw [List.mem_singleton.mp hport]
        exact Nat.lt_succ_self _

end Layout

/-! ### Nodes of an evaluation run in order -/

/-- A node of a fold reads ports of nodes before it. -/
theorem InFold.below {k : NodeId} {p : Placement ε σ} (h : w.InFold evaluation fold k p) :
    p.Below k := by
  have htest := (w.pipeline.expression.below_testTrack fold).mono
    (Nat.le_add_right _ (w.pipeline.expression.size .train))
  cases h with
  | splitter =>
    intro port hport
    have hlt : port.node < 2 := by
      simp only [List.mem_cons, List.not_mem_nil, or_false] at hport
      rcases hport with rfl | rfl <;> exact Nat.one_lt_two
    exact Nat.lt_of_lt_of_le hlt (Nat.le_add_right _ _)
  | @fitted i _ h =>
    exact (w.pipeline.expression.grounded_layout .train (foldScope fold) _ 0
      (w.pipeline.expression.below_trainTrack fold)).1 i p h
  | @applied i _ h =>
    exact (w.pipeline.expression.grounded_layout .apply (foldScope fold) _ 0 htest).1 i p h
  | metric =>
    have hports := (w.pipeline.expression.grounded_layout .apply (foldScope fold) _ 0 htest).2
    rw [Expression.length_layout] at hports
    intro port hport
    rcases List.mem_append.mp hport with hport | hport
    · exact hports.ports port hport
    · rw [List.mem_singleton.mp hport]
      exact Nat.lt_of_lt_of_le (htest.ports ⟨_, 2⟩ List.mem_cons_self) (Nat.le_add_right _ _)

/-- Every node of an evaluation reads ports of nodes before it. -/
theorem grounded_evaluation [Inhabited σ] (producer receiver : Spec ε σ)
    (hevaluation : w.evaluation = some evaluation) {label : String}
    (hlabel : w.source.label = some label) :
    Placement.Grounded 0 (w.layout producer receiver .eval) := by
  intro k p hp
  rw [Nat.zero_add]
  rcases cases_layout producer receiver hevaluation hlabel hp with
    ⟨fold, -, hfold⟩ | ⟨-, -, -, hbelow⟩
  · exact hfold.below
  · exact hbelow

variable [Inhabited σ] {producer receiver : Spec ε σ}

namespace Compiled

variable {g : Graph ε σ}

/-- Evaluating needs a label. -/
theorem exists_label (h : w.Compiled producer receiver .eval g) :
    ∃ label, w.source.label = some label :=
  Option.isSome_iff_exists.mp (h.labelled rfl)

theorem getElem?_nodes_of_inFold (h : w.Compiled producer receiver .eval g)
    (hevaluation : w.evaluation = some evaluation) (hfold : fold < evaluation.folds) {k : NodeId}
    {p : Placement ε σ} (hin : w.InFold evaluation fold k p) : g.nodes[k]? = some (p.node k) := by
  obtain ⟨label, hlabel⟩ := h.exists_label
  rw [h.getElem?_nodes, hin.getElem?_layout producer receiver hevaluation hlabel hfold]
  rfl

theorem grounded_eval (h : w.Compiled producer receiver .eval g) :
    Placement.Grounded 0 (w.layout producer receiver .eval) := by
  obtain ⟨evaluation, hevaluation⟩ := Option.isSome_iff_exists.mp (h.evaluation rfl)
  obtain ⟨label, hlabel⟩ := h.exists_label
  exact grounded_evaluation producer receiver hevaluation hlabel

/-- The nodes of an evaluation run in the order of their numbers. -/
theorem order_eval (h : w.Compiled producer receiver .eval g) :
    g.order = List.range g.nodes.length :=
  h.order_of_grounded h.grounded_eval

end Compiled

end Workflow

end Dataflow
