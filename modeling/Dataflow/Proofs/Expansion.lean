import Dataflow.Proofs.Widths
import Dataflow.Workflow

/-!
# The nodes of a workflow's graph

`Workflow.layout` lists the nodes of the graph of a workflow for a mode, as placements: the source,
what lies between, and the sink. Like the layout of an expression it is a plain recursion that
checks nothing. `Workflow.expand_ok` says that a workflow which is expanded has exactly these nodes
and edges, and the groups that the leaves of the pipeline take, in order, and that the check of widths
has accepted its pipeline; `Workflow.graph_ok` says the same of the graph.

The pipeline is expanded once in a train or apply graph and twice for each fold of an evaluation.
None of these expansions is found in the memo of the builder, because each starts from a track of
its own.
-/

set_option autoImplicit false
set_option relaxedAutoImplicit false

namespace Dataflow

variable {ε σ : Type} [Inhabited σ]

/-! ### Layouts -/

namespace Workflow

/-- The extraction of the label, if the source has one. -/
def extraction (w : Workflow ε σ) (node : Nat) (head : Track) : List (Placement ε σ) × Track :=
  match w.source.label with
  | none => ([], head)
  | some label =>
    ([⟨.applier, Builtin.extract label, none, head.ports⟩], ⟨[⟨node, 0⟩], some ⟨node, 1⟩⟩)

/-- The removal of the label, if the source has one. -/
def removal (w : Workflow ε σ) (node : Nat) (head : Track) : List (Placement ε σ) × Track :=
  match w.source.label with
  | none => ([], head)
  | some label => ([⟨.applier, Builtin.strip label, none, head.ports⟩], head.rebased node 1)

/-- The pipeline in a context, laid out from a track. -/
def body {ε σ : Type} (w : Workflow ε σ) (context : Context) (node : Nat) (left : Track) :
    List (Placement ε σ) × Track :=
  w.pipeline.expression.layout context.shape context.scope node 0 left

/-- One fold: the splitter, the pipeline fitted on the training part, the pipeline applied to the
test features, and the metric of its predictions, with the port of the metric. -/
def foldLayout {ε σ : Type} (w : Workflow ε σ) (evaluation : Evaluation ε σ) (head : Track)
    (node fold : Nat) : List (Placement ε σ) × PortRef :=
  let splitter : Placement ε σ :=
    ⟨.applier, evaluation.splitter fold, none, head.ports ++ head.label.toList⟩
  let fitted := w.body ⟨foldScope fold, .train⟩ (node + 1) ⟨[⟨node, 0⟩], some ⟨node, 1⟩⟩
  let applied := w.body ⟨foldScope fold, .apply⟩ (node + 1 + fitted.1.length) ⟨[⟨node, 2⟩], none⟩
  let metric : Placement ε σ := ⟨.applier, evaluation.metric, none, applied.2.ports ++ [⟨node, 3⟩]⟩
  ([splitter] ++ fitted.1 ++ applied.1 ++ [metric],
    ⟨node + 1 + fitted.1.length + applied.1.length, 0⟩)

/-- Folds in order, with the ports of their metrics. -/
def foldsLayout {ε σ : Type} (w : Workflow ε σ) (evaluation : Evaluation ε σ) (head : Track) :
    Nat → List Nat → List (Placement ε σ) × List PortRef
  | _, [] => ([], [])
  | node, fold :: rest =>
    let front := w.foldLayout evaluation head node fold
    let back := w.foldsLayout evaluation head (node + front.1.length) rest
    (front.1 ++ back.1, front.2 :: back.2)

/-- The evaluation: the extraction of the label, the folds, and the aggregator of their metrics. -/
def evaluationLayout (w : Workflow ε σ) (evaluation : Evaluation ε σ) (node : Nat) (head : Track) :
    List (Placement ε σ) × Track :=
  let front := w.extraction node head
  let folds := w.foldsLayout evaluation front.2 (node + front.1.length)
    (List.range evaluation.folds)
  let aggregator : Placement ε σ :=
    ⟨.applier, evaluation.aggregator evaluation.folds, none, folds.2⟩
  (front.1 ++ folds.1 ++ [aggregator],
    ⟨[⟨node + front.1.length + folds.1.length, 0⟩], none⟩)

/-- What lies between source and sink in a mode. -/
def middleLayout (w : Workflow ε σ) (mode : Mode) (node : Nat) (head : Track) :
    List (Placement ε σ) × Track :=
  match mode, w.evaluation with
  | .train, _ =>
    let front := w.extraction node head
    let back := w.body ⟨0, .train⟩ (node + front.1.length) front.2
    (front.1 ++ back.1, back.2)
  | .apply, _ =>
    let front := w.removal node head
    let back := w.body ⟨0, .apply⟩ (node + front.1.length) front.2
    (front.1 ++ back.1, back.2)
  | .eval, some evaluation => w.evaluationLayout evaluation node head
  | .eval, none => ([], head)

/-- All nodes of the graph for a mode, with the given producing and receiving actors. -/
def layout (w : Workflow ε σ) (producer receiver : Spec ε σ) (mode : Mode) : List (Placement ε σ) :=
  let middle := w.middleLayout mode 1 ⟨[⟨0, 0⟩], none⟩
  [⟨.source, producer, none, []⟩] ++ middle.1 ++ [⟨.sink, receiver, none, middle.2.ports⟩]

/-- The groups that one expansion of the pipeline takes in a scope. -/
def groupsIn {ε σ : Type} (w : Workflow ε σ) (scope : Nat) : List (GroupId × Spec ε σ) :=
  groupsFrom scope 0 w.pipeline.expression.leaves

/-- The groups that are taken in a mode, in order. -/
def taken {ε σ : Type} (w : Workflow ε σ) : Mode → List (GroupId × Spec ε σ)
  | .train => w.groupsIn 0
  | .apply => w.groupsIn 0
  | .eval =>
    match w.evaluation with
    | some evaluation =>
      (List.range evaluation.folds).flatMap fun fold ↦
        w.groupsIn (foldScope fold) ++ w.groupsIn (foldScope fold)
    | none => []

/-- The check accepts the pipeline in the shapes that a mode needs, on one port. Where its outputs go
to the sink or to a metric, there is one. -/
def Accepts {ε σ : Type} (w : Workflow ε σ) : Mode → Prop
  | .train => w.pipeline.expression.check .train w.source.label.isSome 1 = .ok 1
  | .apply => w.pipeline.expression.check .apply false 1 = .ok 1
  | .eval =>
    (∃ width, w.pipeline.expression.check .train true 1 = .ok width) ∧
      w.pipeline.expression.check .apply false 1 = .ok 1

end Workflow

/-- Behind the extraction there is a label if the source has one. -/
theorem Workflow.label_extraction (w : Workflow ε σ) (node : Nat) {head : Track}
    (h : head.label = none) : (w.extraction node head).2.label.isSome = w.source.label.isSome := by
  unfold extraction
  cases w.source.label with
  | none =>
    rw [h]
    rfl
  | some label => rfl

theorem Workflow.width_extraction (w : Workflow ε σ) (node : Nat) {head : Track}
    (h : head.width = 1) : (w.extraction node head).2.width = 1 := by
  unfold extraction
  cases w.source.label with
  | none => exact h
  | some label => rfl

theorem Workflow.width_removal (w : Workflow ε σ) (node : Nat) {head : Track}
    (h : head.width = 1) : (w.removal node head).2.width = 1 := by
  unfold removal
  cases w.source.label with
  | none => exact h
  | some label => rfl

theorem Workflow.label_removal (w : Workflow ε σ) (node : Nat) (head : Track) :
    (w.removal node head).2.label = head.label := by
  unfold removal
  cases w.source.label <;> rfl

/-- Leaves of a pipeline that the check accepts are admissible. -/
theorem Workflow.Accepts.admissible {ε σ : Type} {w : Workflow ε σ} {mode : Mode}
    (h : w.Accepts mode) (hlabel : mode = .eval → w.source.label.isSome = true) :
    ∀ leaf ∈ w.pipeline.expression.leaves,
      leaf.Admissible mode.shape w.source.label.isSome := by
  cases mode with
  | train => exact w.pipeline.expression.admissible_of_check h
  | apply =>
    exact fun leaf hleaf ↦ (w.pipeline.expression.admissible_of_check h leaf hleaf).unlabelled
  | eval =>
    obtain ⟨⟨width, htrain⟩, -⟩ := h
    rw [hlabel rfl]
    exact w.pipeline.expression.admissible_of_check htrain

/-! ### Expanding a workflow -/

/-- All remembered expansions started from nodes below a number. -/
def Builder.Recalls {ε σ : Type} (b : Builder ε σ) (n : Nat) : Prop :=
  ∀ entry ∈ b.memo, ∀ port ∈ entry.1.left.ports, port.node < n

theorem Builder.Recalls.lookup_eq_none {ε σ : Type} {b : Builder ε σ} {n : Nat} (h : b.Recalls n)
    {key : ExpansionKey} (hkey : ∃ port ∈ key.left.ports, n ≤ port.node) :
    b.memo.lookup key = none := by
  obtain ⟨port, hport, hle⟩ := hkey
  rw [List.lookup_eq_none_iff]
  intro entry hentry
  rw [bne_iff_ne]
  rintro rfl
  exact Nat.not_lt.mpr hle (h entry hentry port hport)

theorem Builder.Recalls.congr {ε σ : Type} {b c : Builder ε σ} {n : Nat} (h : b.Recalls n)
    (hmemo : c.memo = b.memo) : c.Recalls n := fun entry hentry ↦ h entry (hmemo ▸ hentry)

theorem Builder.Recalls.mono {ε σ : Type} {b : Builder ε σ} {n m : Nat} (h : b.Recalls n)
    (hle : n ≤ m) : b.Recalls m := fun entry hentry port hport ↦
  Nat.lt_of_lt_of_le (h entry hentry port hport) hle

theorem Builder.Recalls.remember {ε σ : Type} {b c : Builder ε σ} {n : Nat} (h : b.Recalls n)
    {key : ExpansionKey} {right : Track} (hmemo : c.memo = (key, right) :: b.memo)
    (hkey : ∀ port ∈ key.left.ports, port.node < n) : c.Recalls n := by
  intro entry hentry
  rw [hmemo] at hentry
  rcases List.mem_cons.mp hentry with rfl | hold
  · exact hkey
  · exact h entry hold

namespace Workflow

open Build

/-- What a step between the pipeline's expansions has done: it remembers nothing. -/
structure Passed {ε σ : Type} (b : Builder ε σ) (laid : List (Placement ε σ) × Track)
    (right : Track) (last : Builder ε σ) : Prop where
  track : right = laid.2
  grown : Grown b laid.1 [] last
  memo : last.memo = b.memo

/-- What adding an applier behind some ports does. -/
theorem run_applierBehind_ok {ε σ : Type} {spec : Spec ε σ} {ports : List PortRef}
    {behind : NodeId → Track} {right : Track} {b last : Builder ε σ}
    (h : run (do
        let node ← addNode .applier spec none
        connectAll ports node
        return behind node) b = (.ok right, last)) :
    Passed b ([⟨.applier, spec, none, ports⟩], behind b.nodes.length) right last := by
  simp only [run_bind_ok, run_addNode, run_pure, Prod.mk.injEq, Except.ok.injEq] at h
  obtain ⟨_, _, ⟨rfl, rfl⟩, _, _, hports, rfl, rfl⟩ := h
  obtain ⟨rfl, hfits⟩ := run_connectAll_ok (p := ⟨.applier, spec, none, ports⟩) hports
  exact ⟨rfl, Grown.place b hfits, rfl⟩

theorem run_labelled_ok {w : Workflow ε σ} {head right : Track} {b last : Builder ε σ}
    (h : run (w.labelled head) b = (.ok right, last)) :
    Passed b (w.extraction b.nodes.length head) right last := by
  unfold labelled at h
  unfold extraction
  cases hlabel : w.source.label with
  | none =>
    simp only [hlabel, run_pure, Prod.mk.injEq, Except.ok.injEq] at h
    obtain ⟨rfl, rfl⟩ := h
    exact ⟨rfl, Grown.refl b, rfl⟩
  | some label =>
    rw [hlabel] at h
    exact run_applierBehind_ok h

theorem run_stripped_ok {w : Workflow ε σ} {head right : Track} {b last : Builder ε σ}
    (h : run (w.stripped head) b = (.ok right, last)) :
    Passed b (w.removal b.nodes.length head) right last := by
  unfold stripped at h
  unfold removal
  cases hlabel : w.source.label with
  | none =>
    simp only [hlabel, run_pure, Prod.mk.injEq, Except.ok.injEq] at h
    obtain ⟨rfl, rfl⟩ := h
    exact ⟨rfl, Grown.refl b, rfl⟩
  | some label =>
    rw [hlabel] at h
    exact run_applierBehind_ok h

/-- What the first expansion of the pipeline on a track does. -/
theorem run_body_ok {ε σ : Type} {w : Workflow ε σ} {context : Context} {left right : Track}
    {b last : Builder ε σ} (hnew : b.memo.lookup ⟨w.pipeline.id, context, left⟩ = none)
    (h : run (inContext context (w.pipeline.expand left)) b = (.ok right, last)) :
    right = (w.body context b.nodes.length left).2 ∧
      Grown b (w.body context b.nodes.length left).1 (w.groupsIn context.scope) last ∧
      last.memo = (⟨w.pipeline.id, context, left⟩, right) :: b.memo ∧
      w.pipeline.expression.check context.shape left.label.isSome left.width = .ok right.width :=
  Operator.run_expand_ok hnew h

/-- What adding one fold does. -/
theorem run_addFold_ok {ε σ : Type} {w : Workflow ε σ} {evaluation : Evaluation ε σ} {head : Track}
    {label metric : PortRef} {fold : Nat} {b last : Builder ε σ} (hlabel : head.label = some label)
    (hmemo : b.Recalls b.nodes.length)
    (h : run (w.addFold evaluation head label fold) b = (.ok metric, last)) :
    let laid := w.foldLayout evaluation head b.nodes.length fold
    metric = laid.2 ∧
      Grown b laid.1 (w.groupsIn (foldScope fold) ++ w.groupsIn (foldScope fold)) last ∧
      last.Recalls last.nodes.length ∧ w.Accepts .eval := by
  simp only [addFold, run_bind_ok, run_addNode, run_check_ok, run_pure, Prod.mk.injEq,
    Except.ok.injEq] at h
  obtain ⟨_, _, ⟨rfl, rfl⟩, _, _, hfeatures, _, started, hsplit, _, fitted, hfit, predictions,
    applied, happly, _, _, ⟨hwidth, rfl⟩, _, _, ⟨rfl, rfl⟩, _, _, hpredictions, _, scored, hscore,
    rfl, rfl⟩ := h
  -- the splitter
  obtain ⟨hstarted, hsplitter⟩ := run_connect_last_ok
    (p := ⟨.applier, evaluation.splitter fold, none, head.ports ++ head.label.toList⟩)
    (by rw [hlabel]; rfl) rfl hfeatures hsplit
  have hfirst := Grown.place b hsplitter
  rw [← hstarted] at hfirst
  have hrecalls : started.Recalls b.nodes.length := hmemo.congr (by rw [hstarted]; rfl)
  have hcount : started.nodes.length = b.nodes.length + 1 := hfirst.length_nodes
  -- the pipeline in train shape
  obtain ⟨-, htrain, hkept, hfitted⟩ := run_body_ok
    (hrecalls.lookup_eq_none ⟨⟨b.nodes.length, 0⟩, List.mem_cons_self, Nat.le_refl _⟩) hfit
  have hcount' := htrain.length_nodes
  rw [hcount] at htrain hcount'
  -- the pipeline in apply shape
  obtain ⟨hpredicted, hserve, hkept', happlied⟩ := run_body_ok (by
    rw [hkept, List.lookup_cons, beq_false_of_ne (by simp)]
    exact hrecalls.lookup_eq_none ⟨⟨b.nodes.length, 2⟩, List.mem_cons_self, Nat.le_refl _⟩) happly
  have hcount'' := hserve.length_nodes
  rw [hcount'] at hserve hcount'' hpredicted
  -- the metric
  have hone := Track.expectWidth_eq_ok.mp hwidth
  rw [hone] at happlied
  have hinputs : (⟨.applier, evaluation.metric, none, predictions.ports ++ [⟨b.nodes.length, 3⟩]⟩ :
      Placement ε σ).inputs = predictions.ports ++ [⟨b.nodes.length, 3⟩] := rfl
  obtain ⟨hscored, hmetric⟩ := run_connect_last_ok hinputs hone hpredictions hscore
  have hlast := Grown.place applied hmetric
  rw [← hscored] at hlast
  have hall := ((hfirst.trans htrain).trans hserve).trans hlast
  rw [List.append_nil, List.nil_append] at hall
  rw [hpredicted] at hall
  refine ⟨?_, hall, ?_, ⟨_, hfitted⟩, happlied⟩
  · rw [hcount'']
    rfl
  · have hstart : b.nodes.length < scored.nodes.length := by
      rw [hlast.length_nodes, hcount'']
      omega
    -- both expansions started from an output of the splitter
    have hsplits : ∀ output, ∀ port ∈ [(⟨b.nodes.length, output⟩ : PortRef)],
        port.node < scored.nodes.length := fun output port hport ↦
      List.mem_singleton.mp hport ▸ hstart
    have hboth := ((hrecalls.mono (Nat.le_of_lt hstart)).remember hkept (hsplits 0)).remember hkept'
      (hsplits 2)
    exact hboth.congr (by rw [hscored]; rfl)

/-- What adding folds does. -/
theorem run_addFolds_ok {ε σ : Type} {w : Workflow ε σ} {evaluation : Evaluation ε σ} {head : Track}
    {label : PortRef} (hlabel : head.label = some label) {folds : List Nat} {metrics : List PortRef}
    {b last : Builder ε σ} (hmemo : b.Recalls b.nodes.length)
    (h : run (w.addFolds evaluation head label folds) b = (.ok metrics, last)) :
    let laid := w.foldsLayout evaluation head b.nodes.length folds
    metrics = laid.2 ∧
      Grown b laid.1
        (folds.flatMap fun fold ↦ w.groupsIn (foldScope fold) ++ w.groupsIn (foldScope fold)) last ∧
      (folds ≠ [] → w.Accepts .eval) := by
  induction folds generalizing metrics b with
  | nil =>
    rw [addFolds, run_pure] at h
    obtain ⟨hmetrics, rfl⟩ := Prod.mk.inj h
    exact ⟨(Except.ok.inj hmetrics).symm, Grown.refl b, fun hne ↦ absurd rfl hne⟩
  | cons fold rest ih =>
    simp only [addFolds, run_bind_ok, run_pure, Prod.mk.injEq, Except.ok.injEq] at h
    obtain ⟨metric, middle, hfold, others, _, hrest, rfl, rfl⟩ := h
    obtain ⟨rfl, hgrown, hrecalls, haccepts⟩ := run_addFold_ok hlabel hmemo hfold
    obtain ⟨rfl, hothers, -⟩ := ih hrecalls hrest
    rw [hgrown.length_nodes] at hothers ⊢
    exact ⟨rfl, hgrown.trans hothers, fun _ ↦ haccepts⟩

/-- What adding the nodes between source and sink has done. -/
structure Added {ε σ : Type} (w : Workflow ε σ) (mode : Mode) (b : Builder ε σ)
    (laid : List (Placement ε σ) × Track) (right : Track) (last : Builder ε σ) : Prop where
  track : right = laid.2
  grown : Grown b laid.1 (w.taken mode) last
  admissible : ∀ leaf ∈ w.pipeline.expression.leaves,
    leaf.Admissible mode.shape w.source.label.isSome
  evaluation : mode = .eval → w.evaluation.isSome
  labelled : mode = .eval → w.source.label.isSome = true

theorem run_evaluated_ok {w : Workflow ε σ} {head right : Track} {b last : Builder ε σ}
    (hhead : head.label = none) (hmemo : b.Recalls b.nodes.length)
    (h : run (w.evaluated head) b = (.ok right, last)) :
    w.Added .eval b (w.middleLayout .eval b.nodes.length head) right last ∧ w.Accepts .eval := by
  unfold evaluated at h
  cases hevaluation : w.evaluation with
  | none =>
    rw [hevaluation] at h
    simp at h
  | some evaluation =>
    simp only [hevaluation, run_bind_ok, run_check_ok] at h
    obtain ⟨labelled, middle, hlabelled, label, _, ⟨hlabel, rfl⟩, h⟩ := h
    by_cases hfolds : evaluation.folds = 0
    · simp [hfolds] at h
    · simp only [hfolds, if_false, run_bind_ok, run_addNode, run_pure, Prod.mk.injEq,
        Except.ok.injEq] at h
      obtain ⟨metrics, middle', hmetrics, _, _, ⟨rfl, rfl⟩, _, _, hports, rfl, rfl⟩ := h
      have hpassed := run_labelled_ok hlabelled
      have hcount := hpassed.grown.length_nodes
      have hrecalls : middle.Recalls middle.nodes.length := by
        intro entry hentry port hport
        rw [hpassed.memo] at hentry
        rw [hcount]
        exact Nat.lt_of_lt_of_le (hmemo entry hentry port hport) (Nat.le_add_right _ _)
      obtain ⟨rfl, hgrown, haccepts⟩ :=
        run_addFolds_ok (Track.requireLabel_eq_ok.mp hlabel) hrecalls hmetrics
      have hcount' := hgrown.length_nodes
      obtain ⟨rfl, hfits⟩ := run_connectAll_ok
        (p := ⟨.applier, evaluation.aggregator evaluation.folds, none, _⟩) hports
      have hall := (hpassed.grown.trans hgrown).trans (Grown.place middle' hfits)
      rw [List.nil_append, List.append_nil, hpassed.track, hcount] at hall
      have hlayout : w.middleLayout .eval b.nodes.length head =
          w.evaluationLayout evaluation b.nodes.length head := by
        simp only [middleLayout, hevaluation]
      have htaken : w.taken .eval = (List.range evaluation.folds).flatMap fun fold ↦
          w.groupsIn (foldScope fold) ++ w.groupsIn (foldScope fold) := by
        simp only [taken, hevaluation]
      have hlabelled : w.source.label.isSome = true := by
        rw [← w.label_extraction b.nodes.length hhead, ← hpassed.track,
          Track.requireLabel_eq_ok.mp hlabel]
        rfl
      have haccepts := haccepts (List.range_eq_nil.not.mpr hfolds)
      refine ⟨⟨?_, ?_, haccepts.admissible fun _ ↦ hlabelled, ?_, fun _ ↦ hlabelled⟩, haccepts⟩
      · rw [hlayout, hcount', hpassed.track, hcount]
        rfl
      · rw [hlayout, htaken, hpassed.track, hcount]
        exact hall
      · rw [hevaluation]
        exact fun _ ↦ rfl

/-- What lies between source and sink is laid out. If it ends in one port, the check has accepted the
pipeline. -/
theorem run_middle_ok {w : Workflow ε σ} {mode : Mode} {head right : Track} {b last : Builder ε σ}
    (hhead : head.label = none) (hone : head.width = 1) (hmemo : b.memo = [])
    (h : run (w.middle mode head) b = (.ok right, last)) :
    w.Added mode b (w.middleLayout mode b.nodes.length head) right last ∧
      (right.width = 1 → w.Accepts mode) := by
  have hrecalls : b.Recalls b.nodes.length := by
    simp [Builder.Recalls, hmemo]
  cases mode with
  | train =>
    rw [middle, run_bind_ok] at h
    obtain ⟨labelled, middle, hlabelled, hbody⟩ := h
    have hpassed := run_labelled_ok hlabelled
    obtain ⟨rfl, hgrown, -, hcheck⟩ := run_body_ok (by rw [hpassed.memo, hmemo]; rfl) hbody
    rw [hpassed.track, w.label_extraction b.nodes.length hhead,
      w.width_extraction b.nodes.length hone] at hcheck
    have hadmissible := w.pipeline.expression.admissible_of_check hcheck
    rw [hpassed.grown.length_nodes] at hcheck
    rw [hpassed.grown.length_nodes, hpassed.track] at hgrown ⊢
    exact ⟨⟨rfl, hpassed.grown.trans hgrown, hadmissible, by simp, by simp⟩,
      fun hwidth ↦ by rwa [hwidth] at hcheck⟩
  | apply =>
    rw [middle, run_bind_ok] at h
    obtain ⟨stripped, middle, hstripped, hbody⟩ := h
    have hpassed := run_stripped_ok hstripped
    obtain ⟨rfl, hgrown, -, hcheck⟩ := run_body_ok (by rw [hpassed.memo, hmemo]; rfl) hbody
    rw [hpassed.track, w.label_removal, hhead, w.width_removal b.nodes.length hone] at hcheck
    have hadmissible := w.pipeline.expression.admissible_of_check hcheck
    rw [hpassed.grown.length_nodes] at hcheck
    rw [hpassed.grown.length_nodes, hpassed.track] at hgrown ⊢
    exact ⟨⟨rfl, hpassed.grown.trans hgrown, fun leaf hleaf ↦ (hadmissible leaf hleaf).unlabelled,
      by simp, by simp⟩, fun hwidth ↦ by rwa [hwidth] at hcheck⟩
  | eval =>
    obtain ⟨hadded, haccepts⟩ := run_evaluated_ok hhead hrecalls h
    exact ⟨hadded, fun _ ↦ haccepts⟩

/-! ### The graph -/

/-- A graph of a workflow, read off the layout of the workflow. -/
structure Compiled (w : Workflow ε σ) (producer receiver : Spec ε σ) (mode : Mode)
    (g : Graph ε σ) : Prop where
  purpose : g.mode = mode
  nodes : g.nodes = ((Builder.new mode).placeAll (w.layout producer receiver mode)).nodes
  edges : g.edges = ((Builder.new mode).placeAll (w.layout producer receiver mode)).edges
  groups : g.groups = insertGroups [] (w.taken mode)
  valid : validate g.nodes g.edges = .ok ⟨g.order, g.source, g.sink⟩
  fits : ∀ p ∈ w.layout producer receiver mode, p.Fits
  admissible : ∀ leaf ∈ w.pipeline.expression.leaves,
    leaf.Admissible mode.shape w.source.label.isSome
  evaluation : mode = .eval → w.evaluation.isSome
  labelled : mode = .eval → w.source.label.isSome = true
  width : (w.middleLayout mode 1 ⟨[⟨0, 0⟩], none⟩).2.width = 1

/-- What expanding a workflow on a new builder has done: all nodes of the layout are placed, and the
pipeline was accepted. -/
structure Expanded (w : Workflow ε σ) (producer receiver : Spec ε σ) (mode : Mode)
    (expansion : Expansion) (b : Builder ε σ) : Prop where
  purpose : b.mode = mode
  nodes : b.nodes = ((Builder.new mode).placeAll (w.layout producer receiver mode)).nodes
  edges : b.edges = ((Builder.new mode).placeAll (w.layout producer receiver mode)).edges
  groups : b.groups = insertGroups [] (w.taken mode)
  fits : ∀ p ∈ w.layout producer receiver mode, p.Fits
  accepts : w.Accepts mode
  evaluation : mode = .eval → w.evaluation.isSome
  labelled : mode = .eval → w.source.label.isSome = true
  width : (w.middleLayout mode 1 ⟨[⟨0, 0⟩], none⟩).2.width = 1
  source : expansion.source = 0
  sink : expansion.sink = b.nodes.length - 1

/-- Expanding a workflow on a new builder places its layout. -/
theorem expand_ok {w : Workflow ε σ} {feed : Feed ε σ} {sinks : SinkProvider ε σ} {mode : Mode}
    {expansion : Expansion} {b : Builder ε σ}
    (h : run (w.expand feed sinks) (Builder.new mode) = (.ok expansion, b)) :
    ∃ producer, feed w.source.query = .ok producer ∧
      w.Expanded producer (sinks mode) mode expansion b := by
  simp only [expand, run_bind_ok, run_get, Prod.mk.injEq, Except.ok.injEq] at h
  obtain ⟨_, _, ⟨rfl, rfl⟩, h⟩ := h
  simp only [Builder.new, run_bind_ok, run_get, run_check_ok, run_addNode, run_modify, run_pure,
    Prod.mk.injEq, Except.ok.injEq] at h
  obtain ⟨_, _, ⟨rfl, rfl⟩, producer, _, ⟨hproducer, rfl⟩, _, _, ⟨rfl, rfl⟩, tail, middle,
    hmiddle, _, _, ⟨hwidth, rfl⟩, _, _, ⟨rfl, rfl⟩, _, _, hports, _, _, ⟨-, rfl⟩, rfl, rfl⟩ := h
  obtain ⟨⟨rfl, hgrown, -, hevaluation, hlabelled⟩, haccepts⟩ := run_middle_ok rfl rfl rfl hmiddle
  obtain ⟨rfl, hfits⟩ := run_connectAll_ok (p := ⟨.sink, sinks mode, none, _⟩) hports
  have hsource : Placement.Fits (⟨.source, producer, none, []⟩ : Placement ε σ) := Nat.zero_le _
  have hall := ((Grown.place (Builder.new mode) hsource).trans hgrown).trans
    (Grown.place middle hfits)
  have hone := Track.expectWidth_eq_ok.mp hwidth
  rw [List.nil_append, List.append_nil] at hall
  exact ⟨producer, hproducer, {
    purpose := hall.mode
    nodes := hall.nodes
    edges := hall.edges
    groups := hall.groups
    fits := hall.fits
    accepts := haccepts hone
    evaluation := hevaluation
    labelled := hlabelled
    width := hone
    source := rfl
    sink := by rw [Builder.length_nodes_place, Nat.add_sub_cancel] }⟩

/-- A workflow has a graph if it is expanded on a new builder, which is then frozen. -/
theorem graph_eq_ok {w : Workflow ε σ} {feed : Feed ε σ} {sinks : SinkProvider ε σ} {mode : Mode}
    {g : Graph ε σ} : w.graph feed sinks mode = .ok g ↔
      ∃ expansion b, run (w.expand feed sinks) (Builder.new mode) = (.ok expansion, b) ∧
        b.build = .ok g := by
  unfold graph
  rcases run (w.expand feed sinks) (Builder.new mode) with ⟨e | expansion, last⟩
  · simp
  · simp

/-- A graph that is built is the layout of its workflow, with the groups of the pipeline's
leaves. -/
theorem graph_ok {w : Workflow ε σ} {feed : Feed ε σ} {sinks : SinkProvider ε σ} {mode : Mode}
    {g : Graph ε σ} (h : w.graph feed sinks mode = .ok g) :
    ∃ producer, feed w.source.query = .ok producer ∧ w.Compiled producer (sinks mode) mode g := by
  obtain ⟨expansion, last, hrun, hbuild⟩ := graph_eq_ok.mp h
  obtain ⟨found, hvalid, rfl⟩ := Builder.build_eq_ok.mp hbuild
  obtain ⟨producer, hproducer, hexpanded⟩ := expand_ok hrun
  exact ⟨producer, hproducer, {
    purpose := hexpanded.purpose
    nodes := hexpanded.nodes
    edges := hexpanded.edges
    groups := hexpanded.groups
    valid := hvalid
    fits := hexpanded.fits
    admissible := hexpanded.accepts.admissible hexpanded.labelled
    evaluation := hexpanded.evaluation
    labelled := hexpanded.labelled
    width := hexpanded.width }⟩

namespace Compiled

variable {w : Workflow ε σ} {producer receiver : Spec ε σ} {mode : Mode} {g : Graph ε σ}

theorem getElem?_nodes (h : w.Compiled producer receiver mode g) (k : Nat) :
    g.nodes[k]? = (w.layout producer receiver mode)[k]?.map fun p ↦ p.node k := by
  rw [h.nodes]
  exact Builder.getElem?_placeAll_new mode _ k

/-- A node is that of a placement of the layout. -/
theorem exists_placement (h : w.Compiled producer receiver mode g) {k : Nat} {node : Node ε σ}
    (hnode : g.nodes[k]? = some node) :
    ∃ p, (w.layout producer receiver mode)[k]? = some p ∧ p.node k = node := by
  rw [h.getElem?_nodes] at hnode
  exact Option.map_eq_some_iff.mp hnode

theorem length_nodes (h : w.Compiled producer receiver mode g) :
    g.nodes.length = (w.layout producer receiver mode).length := by
  rw [h.nodes, Builder.length_nodes_placeAll]
  exact Nat.zero_add _

end Compiled

end Workflow

end Dataflow
