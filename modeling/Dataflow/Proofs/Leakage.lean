import Dataflow.Proofs.Folds
import Dataflow.Proofs.Joined

/-!
# Nothing leaks into a fold

A path follows edges of a graph, whether they carry data or only order. In an evaluation every edge
into a node of a fold's pipeline comes from that pipeline or from the fold's splitter, and a node
that is fitted is fed by the training parts alone (`Workflow.Compiled.into_fitted`,
`Workflow.Compiled.into_pipeline`). So a set of nodes that holds a fold's pipeline, its splitter and
what precedes the splitter is closed under going back, and no path enters it from anywhere else.

`Graph.SealedFolds` collects what follows for paths: from the source they enter a fold through its
splitter, from other folds they do not enter it at all, and to a trainer they leave a splitter with
a training part. `Workflow.Compiled.sealedFolds` says so of every evaluation.
-/

set_option autoImplicit false
set_option relaxedAutoImplicit false

namespace Dataflow

variable {ε σ : Type}

/-! ### Paths -/

/-- A path along edges. -/
inductive Graph.Path (g : Graph ε σ) : NodeId → List Edge → NodeId → Prop
  | nil (id : NodeId) : Path g id [] id
  | cons {edge : Edge} {rest : List Edge} {id : NodeId} (hedge : edge ∈ g.edges)
      (hrest : Path g edge.head rest id) : Path g edge.tail (edge :: rest) id

namespace Graph.Path

variable {g : Graph ε σ} {first last : NodeId} {edges : List Edge}

/-- A path into a set that no edge enters has started in it. -/
theorem start_of_closed {inside : NodeId → Prop}
    (hclosed : ∀ edge ∈ g.edges, inside edge.head → inside edge.tail)
    (h : g.Path first edges last) (hlast : inside last) : inside first := by
  induction h with
  | nil id => exact hlast
  | cons hedge _ ih => exact hclosed _ hedge (ih hlast)

/-- A path into a set that edges enter only from a gate, and that has started elsewhere, passes the
gate. -/
theorem passes (inside : NodeId → Prop) {gate : NodeId}
    (hgate : ∀ edge ∈ g.edges, inside edge.head → inside edge.tail ∨ edge.tail = gate)
    (h : g.Path first edges last) (hfirst : ¬ inside first) (hne : first ≠ gate)
    (hlast : inside last) : ∃ edge ∈ edges, edge.head = gate := by
  induction h with
  | nil id => exact absurd hlast hfirst
  | @cons edge rest id hedge _ ih =>
    by_cases hhead : edge.head = gate
    · exact ⟨edge, List.mem_cons_self, hhead⟩
    · have hout : ¬ inside edge.head := fun hin ↦ (hgate edge hedge hin).elim hfirst hne
      obtain ⟨other, hother, hpasses⟩ := ih hout hhead hlast
      exact ⟨other, List.mem_cons_of_mem _ hother, hpasses⟩

end Graph.Path

/-! ### The edges of an evaluation -/

theorem Edge.tail_of_eq_data {edge : Edge} {port : PortRef} {head : NodeId} {input : Nat}
    (h : edge = .data port head input) : edge.tail = port.node := by
  rw [h]
  rfl

namespace Workflow

variable [Inhabited σ] {w : Workflow ε σ} {producer receiver : Spec ε σ} {g : Graph ε σ}

/-- An edge carries a port that its head reads, or it comes from a trainer of the head's group. -/
theorem Compiled.cases_edge {mode : Mode} (h : w.Compiled producer receiver mode g) {edge : Edge}
    (hedge : edge ∈ g.edges) :
    ∃ p, (w.layout producer receiver mode)[edge.head]? = some p ∧
      ((∃ port ∈ p.inputs, ∃ input, edge = .data port edge.head input) ∨
        ∃ q, (w.layout producer receiver mode)[edge.tail]? = some q ∧ q.kind = .trainer ∧
          q.group = p.group) := by
  rw [h.edges] at hedge
  rcases Builder.cases_edges_placeAll hedge with hnew | ⟨front, p, back, hlayout, hadded⟩
  · cases hnew
  · have hcount : ((Builder.new mode : Builder ε σ).placeAll front).nodes.length = front.length :=
      (Builder.length_nodes_placeAll _ front).trans (Nat.zero_add _)
    have hhead := Builder.head_of_mem_edges_place hadded
    rw [hcount] at hhead
    refine ⟨p, ?_, ?_⟩
    · rw [hhead, hlayout, List.getElem?_append_right (Nat.le_refl _), Nat.sub_self]
      rfl
    · rcases List.mem_append.mp hadded with hstate | hdata
      · obtain ⟨trainer, htrainer, hkind, hgroup, rfl⟩ := Builder.mem_stateEdges hstate
        obtain ⟨k, hk⟩ := List.getElem?_of_mem htrainer
        have hplaced := Builder.getElem?_placeAll_new mode front k
        rw [hk] at hplaced
        obtain ⟨q, hq, rfl⟩ := Option.map_eq_some_iff.mp hplaced.symm
        refine .inr ⟨q, ?_, hkind, hgroup⟩
        rw [hlayout]
        exact (List.getElem?_append_left (List.getElem?_eq_some_iff.mp hq).1).trans hq
      · obtain ⟨port, hport, input, rfl⟩ := eq_data_of_mem_wires hdata
        exact .inl ⟨port, hport, input, rfl⟩

/-- The nodes before all folds, and those of a fold below a number. -/
def Upstream {ε σ : Type} (w : Workflow ε σ) (fold last id : Nat) : Prop :=
  id < 2 ∨ w.pipeline.expression.splitterAt fold ≤ id ∧ id < last

namespace Compiled

variable {evaluation : Evaluation ε σ} {fold : Nat}

/-- The node of a number between those of a fold's splitter and metric is a node of the fold. -/
theorem inFold_of_le (h : w.Compiled producer receiver .eval g)
    (hevaluation : w.evaluation = some evaluation) (hfold : fold < evaluation.folds) {k : Nat}
    {p : Placement ε σ} (hp : (w.layout producer receiver .eval)[k]? = some p)
    (hlow : w.pipeline.expression.splitterAt fold ≤ k)
    (hhigh : k ≤ w.pipeline.expression.metricAt fold) : w.InFold evaluation fold k p := by
  obtain ⟨label, hlabel⟩ := h.exists_label
  rcases cases_layout producer receiver hevaluation hlabel hp with
    ⟨other, hother, hin⟩ | ⟨houtside, -⟩
  · obtain ⟨hlow', hhigh'⟩ := hin.bounds
    obtain rfl := w.pipeline.expression.fold_unique hlow hhigh hlow' hhigh'
    exact hin
  · have hlast := w.pipeline.expression.metricAt_lt_splitterAt hfold
    have hfirst : 2 ≤ w.pipeline.expression.splitterAt fold := Nat.le_add_right _ _
    omega

/-- The nodes of a group of a fold's scope are nodes of the fold. -/
theorem inFold_of_group (h : w.Compiled producer receiver .eval g)
    (hevaluation : w.evaluation = some evaluation) (hfolds : evaluation.folds < UInt32.size)
    (hfold : fold < evaluation.folds) {k : Nat} {p : Placement ε σ}
    (hp : (w.layout producer receiver .eval)[k]? = some p) {i : Nat}
    (hgroup : p.group = some ⟨foldScope fold, i⟩) : w.InFold evaluation fold k p := by
  obtain ⟨label, hlabel⟩ := h.exists_label
  rcases cases_layout producer receiver hevaluation hlabel hp with
    ⟨other, hother, hin⟩ | ⟨-, hnone, -⟩
  · rcases hin.cases_group with ⟨-, j, hfound⟩ | ⟨-, hnone, -⟩
    · rw [hgroup, Option.some.injEq, GroupId.mk.injEq, foldScope_of_lt (by omega),
        foldScope_of_lt (by omega)] at hfound
      obtain rfl : fold = other := Nat.succ.inj hfound.1
      exact hin
    · rw [hgroup] at hnone
      cases hnone
  · rw [hgroup] at hnone
    cases hnone

/-- A trainer belongs to a group of a fold and is one of the nodes of the fold that are fitted. -/
theorem exists_fold_of_trainer (h : w.Compiled producer receiver .eval g)
    (hevaluation : w.evaluation = some evaluation) {k : Nat} {p : Placement ε σ}
    (hp : (w.layout producer receiver .eval)[k]? = some p) (hkind : p.kind = .trainer) :
    ∃ fold < evaluation.folds, p.group.isSome = true ∧
      w.pipeline.expression.splitterAt fold < k ∧ k < w.pipeline.expression.appliedAt fold := by
  obtain ⟨label, hlabel⟩ := h.exists_label
  rcases cases_layout producer receiver hevaluation hlabel hp with
    ⟨fold, hfold, hin⟩ | ⟨-, -, hne, -⟩
  · rcases hin.cases_group with ⟨-, i, hgroup⟩ | ⟨-, -, hne⟩
    · exact ⟨fold, hfold, by rw [hgroup]; rfl, hin.fitted_of_trainer hkind⟩
    · exact absurd hkind hne
  · exact absurd hkind hne

/-- A trainer in a group of a node of a fold's pipeline is one of the nodes of the fold that are
fitted. -/
theorem fitted_of_trainer (h : w.Compiled producer receiver .eval g)
    (hevaluation : w.evaluation = some evaluation) (hfolds : evaluation.folds < UInt32.size)
    (hfold : fold < evaluation.folds) {j k : Nat} {p q : Placement ε σ}
    (hin : w.InFold evaluation fold k p) (hlow : w.pipeline.expression.splitterAt fold < k)
    (hhigh : k < w.pipeline.expression.metricAt fold)
    (hq : (w.layout producer receiver .eval)[j]? = some q) (hkind : q.kind = .trainer)
    (hgroup : q.group = p.group) :
    w.pipeline.expression.splitterAt fold < j ∧ j < w.pipeline.expression.appliedAt fold := by
  obtain ⟨i, hscope⟩ := hin.exists_group hlow hhigh
  have hown := h.inFold_of_group hevaluation hfolds hfold hq (hgroup.trans hscope)
  exact hown.fitted_of_trainer hkind

/-- An edge into a node of a fold that is fitted carries training parts of the fold, or it comes
from another such node. -/
theorem into_fitted (h : w.Compiled producer receiver .eval g)
    (hevaluation : w.evaluation = some evaluation) (hfolds : evaluation.folds < UInt32.size)
    (hfold : fold < evaluation.folds) {edge : Edge} (hedge : edge ∈ g.edges)
    (hlow : w.pipeline.expression.splitterAt fold < edge.head)
    (hhigh : edge.head < w.pipeline.expression.appliedAt fold) :
    (w.pipeline.expression.splitterAt fold < edge.tail ∧
        edge.tail < w.pipeline.expression.appliedAt fold) ∨
      ∃ port input, port < 2 ∧
        edge = .data ⟨w.pipeline.expression.splitterAt fold, port⟩ edge.head input := by
  have hmetric := Nat.lt_of_lt_of_le hhigh (Nat.le_add_right _ (w.pipeline.expression.size .apply))
  obtain ⟨p, hp, hfrom⟩ := h.cases_edge hedge
  have hin := h.inFold_of_le hevaluation hfold hp (Nat.le_of_lt hlow) (Nat.le_of_lt hmetric)
  rcases hfrom with ⟨port, hport, input, hdata⟩ | ⟨q, hq, hkind, hgroup⟩
  · have htail : edge.tail = port.node := Edge.tail_of_eq_data hdata
    obtain ⟨i, hi, hplaced⟩ := hin.exists_fitted hlow hhigh
    have hoffered := (w.pipeline.expression.offered_layout .train (foldScope fold) _ 0
      (w.pipeline.expression.trainTrack fold)).1 i p hplaced port hport
    rcases hoffered with hfeatures | hlabel | ⟨hlow', hhigh'⟩
    · rw [List.mem_singleton.mp hfeatures] at hdata
      exact .inr ⟨0, input, Nat.two_pos, hdata⟩
    · rw [← Option.some.inj hlabel] at hdata
      exact .inr ⟨1, input, Nat.one_lt_two, hdata⟩
    · rw [htail]
      exact .inl ⟨hlow', Nat.lt_trans hhigh' (hi ▸ hhigh)⟩
  · exact .inl (h.fitted_of_trainer hevaluation hfolds hfold hin hlow hmetric hq hkind hgroup)

/-- An edge into a node of a fold's pipeline comes from another such node, or from the fold's
splitter. -/
theorem into_pipeline (h : w.Compiled producer receiver .eval g)
    (hevaluation : w.evaluation = some evaluation) (hfolds : evaluation.folds < UInt32.size)
    (hfold : fold < evaluation.folds) {edge : Edge} (hedge : edge ∈ g.edges)
    (hlow : w.pipeline.expression.splitterAt fold < edge.head)
    (hhigh : edge.head < w.pipeline.expression.metricAt fold) :
    (w.pipeline.expression.splitterAt fold < edge.tail ∧
        edge.tail < w.pipeline.expression.metricAt fold) ∨
      edge.tail = w.pipeline.expression.splitterAt fold := by
  have happlied : w.pipeline.expression.appliedAt fold ≤ w.pipeline.expression.metricAt fold :=
    Nat.le_add_right _ _
  obtain ⟨p, hp, hfrom⟩ := h.cases_edge hedge
  have hin := h.inFold_of_le hevaluation hfold hp (Nat.le_of_lt hlow) (Nat.le_of_lt hhigh)
  rcases Nat.lt_or_ge edge.head (w.pipeline.expression.appliedAt fold) with hfitted | hbehind
  · rcases h.into_fitted hevaluation hfolds hfold hedge hlow hfitted with
      ⟨hlow', hhigh'⟩ | ⟨port, input, -, hdata⟩
    · exact .inl ⟨hlow', Nat.lt_of_lt_of_le hhigh' happlied⟩
    · exact .inr (Edge.tail_of_eq_data hdata)
  · rcases hfrom with ⟨port, hport, input, hdata⟩ | ⟨q, hq, hkind, hgroup⟩
    · have htail : edge.tail = port.node := Edge.tail_of_eq_data hdata
      obtain ⟨i, hi, hplaced⟩ := hin.exists_applied hbehind hhigh
      have hoffered := (w.pipeline.expression.offered_layout .apply (foldScope fold) _ 0
        (w.pipeline.expression.testTrack fold)).1 i p hplaced port hport
      rw [htail]
      rcases hoffered with hfeatures | hlabel | ⟨hlow', hhigh'⟩
      · rw [List.mem_singleton.mp hfeatures]
        exact .inr rfl
      · cases hlabel
      · refine .inl ⟨Nat.lt_of_lt_of_le ?_ hlow', Nat.lt_trans hhigh' (hi ▸ hhigh)⟩
        simp only [Expression.appliedAt]
        omega
    · obtain ⟨hlow', hhigh'⟩ :=
        h.fitted_of_trainer hevaluation hfolds hfold hin hlow hhigh hq hkind hgroup
      exact .inl ⟨hlow', Nat.lt_of_lt_of_le hhigh' happlied⟩

/-- An edge into a fold's splitter, or into a node before all folds, comes from before all folds. -/
theorem tail_lt_two (h : w.Compiled producer receiver .eval g)
    (hevaluation : w.evaluation = some evaluation) (hfold : fold < evaluation.folds) {edge : Edge}
    (hedge : edge ∈ g.edges)
    (hhead : edge.head < 2 ∨ edge.head = w.pipeline.expression.splitterAt fold) :
    edge.tail < 2 := by
  rcases hhead with hhead | hhead
  · exact Nat.lt_trans (h.tail_lt_of_grounded h.grounded_eval edge hedge) hhead
  · obtain ⟨label, hlabel⟩ := h.exists_label
    have hsplitter := (InFold.splitter : w.InFold evaluation fold _ _).getElem?_layout producer
      receiver hevaluation hlabel hfold
    obtain ⟨p, hp, hfrom⟩ := h.cases_edge hedge
    rw [hhead, hsplitter] at hp
    obtain rfl := Option.some.inj hp
    rcases hfrom with ⟨port, hport, input, hdata⟩ | ⟨q, hq, hkind, hgroup⟩
    · have htail : edge.tail = port.node := Edge.tail_of_eq_data hdata
      simp only [List.mem_cons, List.not_mem_nil, or_false] at hport
      rw [htail]
      rcases hport with rfl | rfl <;> exact Nat.one_lt_two
    · obtain ⟨other, -, hsome, -⟩ := h.exists_fold_of_trainer hevaluation hq hkind
      rw [hgroup] at hsome
      cases hsome

/-! ### Sets of nodes that no edge enters -/

/-- If every edge into certain nodes behind a fold's splitter comes from such nodes or from the
splitter, then no edge enters them, the splitter and what precedes the folds from elsewhere. -/
theorem closed_of_into (h : w.Compiled producer receiver .eval g)
    (hevaluation : w.evaluation = some evaluation) (hfold : fold < evaluation.folds) {last : Nat}
    (hinto : ∀ edge ∈ g.edges, w.pipeline.expression.splitterAt fold < edge.head →
      edge.head < last → (w.pipeline.expression.splitterAt fold < edge.tail ∧ edge.tail < last) ∨
        edge.tail = w.pipeline.expression.splitterAt fold) (edge : Edge) (hedge : edge ∈ g.edges)
    (hhead : w.Upstream fold last edge.head) : w.Upstream fold last edge.tail := by
  rcases hhead with hhead | ⟨hlow, hhigh⟩
  · exact .inl (h.tail_lt_two hevaluation hfold hedge (.inl hhead))
  · rcases Nat.eq_or_lt_of_le hlow with hsame | hlow
    · exact .inl (h.tail_lt_two hevaluation hfold hedge (.inr hsame.symm))
    · rcases hinto edge hedge hlow hhigh with ⟨hlow', hhigh'⟩ | hsame
      · exact .inr ⟨Nat.le_of_lt hlow', hhigh'⟩
      · rw [hsame]
        exact .inr ⟨Nat.le_refl _, Nat.lt_trans hlow hhigh⟩

/-- No edge enters what precedes the folds, a fold's splitter and its pipeline from elsewhere. -/
theorem closed_pipeline (h : w.Compiled producer receiver .eval g)
    (hevaluation : w.evaluation = some evaluation) (hfolds : evaluation.folds < UInt32.size)
    (hfold : fold < evaluation.folds) (edge : Edge) (hedge : edge ∈ g.edges)
    (hhead : w.Upstream fold (w.pipeline.expression.metricAt fold) edge.head) :
    w.Upstream fold (w.pipeline.expression.metricAt fold) edge.tail :=
  h.closed_of_into hevaluation hfold
    (fun _ hedge ↦ h.into_pipeline hevaluation hfolds hfold hedge) edge hedge hhead

/-- No edge enters what precedes the folds, a fold's splitter and the nodes of the fold that are
fitted from elsewhere. -/
theorem closed_fitted (h : w.Compiled producer receiver .eval g)
    (hevaluation : w.evaluation = some evaluation) (hfolds : evaluation.folds < UInt32.size)
    (hfold : fold < evaluation.folds) (edge : Edge) (hedge : edge ∈ g.edges)
    (hhead : w.Upstream fold (w.pipeline.expression.appliedAt fold) edge.head) :
    w.Upstream fold (w.pipeline.expression.appliedAt fold) edge.tail := by
  refine h.closed_of_into hevaluation hfold (fun other hother hlow hhigh ↦ ?_) edge hedge hhead
  exact (h.into_fitted hevaluation hfolds hfold hother hlow hhigh).imp_right
    fun ⟨_, _, _, hdata⟩ ↦ Edge.tail_of_eq_data hdata

/-- An edge from a splitter into such nodes carries a training part. -/
theorem exists_port_lt_two (h : w.Compiled producer receiver .eval g)
    (hevaluation : w.evaluation = some evaluation) (hfolds : evaluation.folds < UInt32.size)
    (hfold : fold < evaluation.folds) (other : Nat) {edge : Edge} (hedge : edge ∈ g.edges)
    (htail : edge.tail = w.pipeline.expression.splitterAt other)
    (hhead : w.Upstream fold (w.pipeline.expression.appliedAt fold) edge.head) :
    ∃ port input, port < 2 ∧
      edge = .data ⟨w.pipeline.expression.splitterAt other, port⟩ edge.head input := by
  have hlate : ¬ edge.tail < 2 := by
    rw [htail]
    exact Nat.not_lt.mpr (Nat.le_add_right _ _)
  have happlied : w.pipeline.expression.appliedAt fold ≤ w.pipeline.expression.metricAt fold :=
    Nat.le_add_right _ _
  rcases hhead with hhead | ⟨hlow, hhigh⟩
  · exact absurd (h.tail_lt_two hevaluation hfold hedge (.inl hhead)) hlate
  · rcases Nat.eq_or_lt_of_le hlow with hsame | hlow
    · exact absurd (h.tail_lt_two hevaluation hfold hedge (.inr hsame.symm)) hlate
    · rcases h.into_fitted hevaluation hfolds hfold hedge hlow hhigh with
        ⟨hlow', hhigh'⟩ | ⟨port, input, hport, hdata⟩
      · -- between the nodes of one fold there is no splitter of another
        rw [htail] at hlow' hhigh'
        obtain rfl := w.pipeline.expression.fold_unique (Nat.le_of_lt hlow')
          (Nat.le_of_lt (Nat.lt_of_lt_of_le hhigh' happlied)) (Nat.le_refl _)
          (w.pipeline.expression.splitterAt_le_metricAt other)
        exact absurd hlow' (Nat.lt_irrefl _)
      · have hsame : w.pipeline.expression.splitterAt fold =
            w.pipeline.expression.splitterAt other :=
          (Edge.tail_of_eq_data hdata).symm.trans htail
        exact ⟨port, input, hport, hsame ▸ hdata⟩

/-- The nodes of a fold's scope stand between its splitter and its metric. -/
theorem mem_members_iff (h : w.Compiled producer receiver .eval g)
    (hevaluation : w.evaluation = some evaluation) (hfolds : evaluation.folds < UInt32.size)
    (hfold : fold < evaluation.folds) {node : Node ε σ} (hnode : node ∈ g.nodes) :
    node ∈ g.members (fold + 1) ↔ w.pipeline.expression.splitterAt fold < node.id ∧
      node.id < w.pipeline.expression.metricAt fold := by
  obtain ⟨k, hk⟩ := List.getElem?_of_mem hnode
  obtain ⟨p, hp, rfl⟩ := h.exists_placement hk
  have hscope : foldScope fold = fold + 1 := foldScope_of_lt (Nat.lt_trans hfold hfolds)
  change _ ↔ w.pipeline.expression.splitterAt fold < k ∧ k < w.pipeline.expression.metricAt fold
  constructor
  · intro hmem
    obtain ⟨-, hin⟩ := List.mem_filter.mp hmem
    obtain ⟨group, hgroup, hsame⟩ := (Option.any_eq_true _ _).mp hin
    have hgroup : p.group = some ⟨foldScope fold, group.ordinal⟩ := by
      rw [hscope, ← eq_of_beq hsame]
      exact hgroup
    rcases (h.inFold_of_group hevaluation hfolds hfold hp hgroup).cases_group with
      ⟨hbetween, -⟩ | ⟨-, hnone, -⟩
    · exact hbetween
    · rw [hgroup] at hnone
      cases hnone
  · rintro ⟨hlow, hhigh⟩
    obtain ⟨i, hgroup⟩ := (h.inFold_of_le hevaluation hfold hp (Nat.le_of_lt hlow)
      (Nat.le_of_lt hhigh)).exists_group hlow hhigh
    refine List.mem_filter.mpr ⟨hnode, (Option.any_eq_true _ _).mpr ⟨_, hgroup, ?_⟩⟩
    rw [hscope]
    exact beq_self_eq_true _

/-- The source is the first node. -/
theorem source {mode : Mode} (h : w.Compiled producer receiver mode g) : g.source = 0 := by
  have hnode := h.getElem?_nodes 0
  rw [layout, List.append_assoc] at hnode
  exact (id_of_single (validate_eq_ok h.valid).2.2.1 (List.mem_of_getElem? hnode) rfl).symm

/-- A path from a splitter to a trainer leaves the splitter with a training part. -/
theorem exists_port_of_path (h : w.Compiled producer receiver .eval g)
    (hevaluation : w.evaluation = some evaluation) (hfolds : evaluation.folds < UInt32.size)
    {trainer : Node ε σ} (htrainer : trainer ∈ g.nodes) (hkind : trainer.kind = .trainer)
    {edge : Edge} {edges : List Edge}
    (hpath : g.Path (w.pipeline.expression.splitterAt fold) (edge :: edges) trainer.id) :
    ∃ port input, port < 2 ∧
      edge = .data ⟨w.pipeline.expression.splitterAt fold, port⟩ edge.head input := by
  obtain ⟨k, hk⟩ := List.getElem?_of_mem htrainer
  obtain ⟨p, hp, rfl⟩ := h.exists_placement hk
  obtain ⟨own, hown, -, hlow, hhigh⟩ := h.exists_fold_of_trainer hevaluation hp hkind
  generalize hstart : w.pipeline.expression.splitterAt fold = start at hpath
  cases hpath with
  | cons hedge hrest =>
    have hend : w.Upstream own (w.pipeline.expression.appliedAt own) k :=
      .inr ⟨Nat.le_of_lt hlow, hhigh⟩
    have hhead := hrest.start_of_closed (h.closed_fitted hevaluation hfolds hown) hend
    rw [← hstart]
    exact h.exists_port_lt_two hevaluation hfolds hown fold hedge hstart.symm hhead

end Compiled

end Workflow

/-! ### Sealed folds -/

/-- The folds of a graph, of which each stands between two nodes, take in nothing that is not
theirs. -/
structure Graph.SealedFolds (g : Graph ε σ) (evaluation : Evaluation ε σ)
    (first last : Nat → NodeId) : Prop where
  splitter : ∀ fold < evaluation.folds, ∃ node, g.nodes[first fold]? = some node ∧
    node.role = .plain .applier (evaluation.splitter fold)
  metric : ∀ fold < evaluation.folds, ∃ node, g.nodes[last fold]? = some node ∧
    node.role = .plain .applier evaluation.metric
  /-- Between splitter and metric are the nodes of the fold's scope. -/
  members : ∀ fold < evaluation.folds, ∀ node ∈ g.nodes,
    node ∈ g.members (fold + 1) ↔ first fold < node.id ∧ node.id < last fold
  /-- From the source they are reached through the splitter. -/
  entered : ∀ fold < evaluation.folds, ∀ target ∈ g.members (fold + 1), ∀ edges,
    g.Path g.source edges target.id → ∃ edge ∈ edges, edge.head = first fold
  /-- From another fold they are not reached. -/
  apart : ∀ fold < evaluation.folds, ∀ target ∈ g.members (fold + 1),
    ∀ other < evaluation.folds, other ≠ fold → ∀ id, first other ≤ id → id ≤ last other →
      ∀ edges, ¬ g.Path id edges target.id
  /-- A path from the splitter to a trainer of the fold leaves by the training features or the
  training label. -/
  fitted : ∀ fold < evaluation.folds, ∀ trainer ∈ g.members (fold + 1), trainer.kind = .trainer →
    ∀ edge edges, g.Path (first fold) (edge :: edges) trainer.id →
      ∃ port input, port < 2 ∧ edge = .data ⟨first fold, port⟩ edge.head input
  /-- The test features and the test label reach no trainer at all. -/
  tested : ∀ fold < evaluation.folds, ∀ trainer ∈ g.nodes, trainer.kind = .trainer →
    ∀ port head input edges, 2 ≤ port →
      ¬ g.Path (first fold) (.data ⟨first fold, port⟩ head input :: edges) trainer.id

/-- The folds of an evaluation are sealed. -/
theorem Workflow.Compiled.sealedFolds [Inhabited σ] {w : Workflow ε σ}
    {producer receiver : Spec ε σ} {g : Graph ε σ} (h : w.Compiled producer receiver .eval g)
    {evaluation : Evaluation ε σ} (hevaluation : w.evaluation = some evaluation)
    (hfolds : evaluation.folds < UInt32.size) :
    g.SealedFolds evaluation w.pipeline.expression.splitterAt w.pipeline.expression.metricAt where
  splitter fold hfold := ⟨_, h.getElem?_nodes_of_inFold hevaluation hfold .splitter, rfl⟩
  metric fold hfold := ⟨_, h.getElem?_nodes_of_inFold hevaluation hfold .metric, rfl⟩
  members fold hfold node hnode := h.mem_members_iff hevaluation hfolds hfold hnode
  entered fold hfold target htarget edges hpath := by
    have hend :=
      (h.mem_members_iff hevaluation hfolds hfold (List.mem_filter.mp htarget).1).mp htarget
    have hstart : g.source < w.pipeline.expression.splitterAt fold := by
      rw [h.source]
      exact Nat.lt_of_lt_of_le Nat.two_pos (Nat.le_add_right _ _)
    refine hpath.passes (fun id ↦ w.pipeline.expression.splitterAt fold < id ∧
      id < w.pipeline.expression.metricAt fold) (fun edge hedge hhead ↦ ?_) (fun hin ↦ ?_)
      (Nat.ne_of_lt hstart) hend
    · exact h.into_pipeline hevaluation hfolds hfold hedge hhead.1 hhead.2
    · exact Nat.lt_asymm hstart hin.1
  apart fold hfold target htarget other hother hne id hlow hhigh edges hpath := by
    obtain ⟨hlow', hhigh'⟩ :=
      (h.mem_members_iff hevaluation hfolds hfold (List.mem_filter.mp htarget).1).mp htarget
    have hend : w.Upstream fold (w.pipeline.expression.metricAt fold) target.id :=
      .inr ⟨Nat.le_of_lt hlow', hhigh'⟩
    rcases hpath.start_of_closed (h.closed_pipeline hevaluation hfolds hfold) hend with
      hearly | ⟨hafter, hbefore⟩
    · exact Nat.not_lt.mpr (Nat.le_trans (Nat.le_add_right _ _) hlow) hearly
    · exact hne (w.pipeline.expression.fold_unique hlow hhigh hafter (Nat.le_of_lt hbefore))
  fitted fold hfold trainer htrainer hkind edge edges hpath :=
    h.exists_port_of_path hevaluation hfolds (List.mem_filter.mp htrainer).1 hkind hpath
  tested fold hfold trainer htrainer hkind port head input edges hport hpath := by
    obtain ⟨other, input', hlt, hedge⟩ :=
      h.exists_port_of_path hevaluation hfolds htrainer hkind hpath
    have hsame : port = other := by
      injection hedge with htail
      exact (PortRef.mk.inj htail).2
    omega

end Dataflow
