import Dataflow.Proofs.Composability
import Dataflow.Proofs.ValidGraphs

/-!
# A workflow that can be trained can be applied and evaluated

Whether a workflow has a graph for a mode is a matter of its pipeline alone, once the feed answers.
The nodes around the pipeline are bound to ports that exist, and the pipeline is expanded on such
ports, so that a workflow which the check accepts is expanded (`Workflow.exists_expand`). What is
expanded is a valid graph.

In both shapes the check gives the same widths, if consumers have as many outputs as inputs: the
train shape passes on the track that a consumer is trained on, the apply shape goes on with its
outputs. The apply shape asks for less, as nothing needs a label there (`Expression.check_apply`).
So a pipeline that was accepted for training is accepted for the other modes
(`Workflow.graphs_of_train`).
-/

set_option autoImplicit false
set_option relaxedAutoImplicit false

namespace Dataflow

variable {ε σ : Type}

/-! ### The check in both shapes -/

namespace Expression

theorem mem_branchLeaves {branches : List (Expression ε σ)} {branch : Expression ε σ}
    (hbranch : branch ∈ branches) {leaf : Leaf ε σ} (hleaf : leaf ∈ branch.leaves) :
    leaf ∈ branchLeaves branches := by
  induction branches with
  | nil => simp at hbranch
  | cons other rest ih =>
    rcases List.mem_cons.mp hbranch with rfl | hbranch
    · exact List.mem_append_left _ hleaf
    · exact List.mem_append_right _ (ih hbranch)

theorem checkBranches_apply {branches : List (Expression ε σ)} {labelled : Bool} {width n : Nat}
    (hbranches : ∀ branch ∈ branches, ∀ m, branch.check .train labelled width = .ok m →
      branch.check .apply false width = .ok m)
    (h : checkBranches .train labelled branches width = .ok n) :
    checkBranches .apply false branches width = .ok n := by
  induction branches generalizing n with
  | nil => exact h
  | cons branch rest ih =>
    obtain ⟨front, back, hfront, hback, hsum⟩ := checkBranches_cons.mp h
    have hrest := ih (fun other hother ↦ hbranches other (List.mem_cons_of_mem _ hother)) hback
    exact checkBranches_cons.mpr
      ⟨front, back, hbranches branch List.mem_cons_self front hfront, hrest, hsum⟩

/-- An expression that the check accepts in train shape is accepted in apply shape without a label,
with the same width, if consumers have as many outputs as inputs. -/
theorem check_apply (expression : Expression ε σ)
    (hleaves : ∀ spec, Leaf.consumer spec ∈ expression.leaves →
      spec.arity.outputs = spec.arity.inputs)
    {labelled : Bool} {width n : Nat} (h : expression.check .train labelled width = .ok n) :
    expression.check .apply false width = .ok n := by
  induction expression using Expression.induction generalizing width n with
  | mapper spec =>
    obtain ⟨hwidth, hadmissible, rfl⟩ := Leaf.check_eq_ok.mp h
    refine Leaf.check_eq_ok.mpr ⟨hwidth, hadmissible.unlabelled, ?_⟩
    by_cases hstateful : spec.stateful = true <;> simp [Leaf.kinds, hstateful, Leaf.spec]
  | consumer spec =>
    obtain ⟨hwidth, hadmissible, rfl⟩ := Leaf.check_eq_ok.mp h
    have hkept := hleaves spec (List.mem_singleton.mpr rfl)
    refine Leaf.check_eq_ok.mpr ⟨hwidth, hadmissible.unlabelled, ?_⟩
    rw [hwidth]
    exact hkept.symm
  | sequence first second ihfirst ihsecond =>
    rw [check] at h ⊢
    obtain ⟨middle, hfirst, hsecond⟩ := bind_eq_ok.mp h
    refine bind_eq_ok.mpr ⟨middle, ihfirst (fun spec hspec ↦ ?_) hfirst,
      ihsecond (fun spec hspec ↦ ?_) hsecond⟩
    · exact hleaves spec (List.mem_append_left _ hspec)
    · exact hleaves spec (List.mem_append_right _ hspec)
  | parallel branches ih =>
    rw [check] at h ⊢
    split_ifs at h ⊢
    refine checkBranches_apply (fun branch hbranch m hm ↦ ?_) h
    exact ih branch hbranch (fun spec hspec ↦ hleaves spec (mem_branchLeaves hbranch hspec)) hm

end Expression

/-! ### Steps that succeed -/

open Build

/-- No edge of a builder enters a node that does not exist, and what is remembered of the operator
agrees with the check. -/
structure Operator.Ready (operator : Operator ε σ) (b : Builder ε σ) : Prop where
  closed : b.Closed
  remembered : operator.Remembered b

/-- A builder goes on from another: nodes were added, and it is ready for the operator. -/
structure Operator.Continues (operator : Operator ε σ) (b last : Builder ε σ) : Prop where
  nodes : ∃ more, last.nodes = b.nodes ++ more
  ready : operator.Ready last

namespace Operator

variable {operator : Operator ε σ} {b middle last : Builder ε σ}

theorem Ready.continues (h : operator.Ready b) : operator.Continues b b :=
  ⟨⟨[], (List.append_nil _).symm⟩, h⟩

theorem Continues.trans (h : operator.Continues b middle) (h' : operator.Continues middle last) :
    operator.Continues b last := by
  obtain ⟨more, hmore⟩ := h.nodes
  obtain ⟨others, hothers⟩ := h'.nodes
  refine ⟨⟨more ++ others, ?_⟩, h'.ready⟩
  rw [hothers, hmore, List.append_assoc]

/-- Ports that exist still exist later. -/
theorem Continues.declared {port : PortRef} (h : operator.Continues b last)
    (hport : port.Declared b.nodes) : port.Declared last.nodes := by
  obtain ⟨more, hmore⟩ := h.nodes
  rw [hmore]
  exact hport.append more

theorem Continues.track_declared {t : Track} (h : operator.Continues b last)
    (ht : t.Declared b.nodes) : t.Declared last.nodes :=
  ⟨fun port hport ↦ h.declared (ht.ports port hport),
    fun port hport ↦ h.declared (ht.label port hport)⟩

theorem Ready.place (h : operator.Ready b) (p : Placement ε σ) :
    operator.Continues b (b.place p) := by
  have hnodes := b.nodes_place p
  exact ⟨⟨_, hnodes⟩, Builder.head_lt_of_place h.closed p, h.remembered.of_nodes rfl hnodes⟩

/-- The node of a placement has the outputs that its kind and its actor declare. -/
theorem declared_place (b : Builder ε σ) {p : Placement ε σ} {output : Nat}
    (h : output < (p.kind.arity p.spec.arity).outputs) :
    (⟨b.nodes.length, output⟩ : PortRef).Declared (b.place p).nodes :=
  ⟨p.node b.nodes.length, by rw [b.nodes_place]; exact List.getElem?_concat_length, h⟩

/-- An operator that the check accepts is expanded on ports that exist, in any context. -/
theorem Ready.exists_expand (h : operator.Ready b) (context : Context) (left : Track) {n : Nat}
    (hleft : left.Declared b.nodes)
    (hcheck : operator.expression.check context.shape left.label.isSome left.width = .ok n) :
    ∃ right last, run (inContext context (operator.expand left)) b = (.ok right, last) ∧
      operator.Continues b last ∧ right.Declared last.nodes ∧ right.width = n := by
  have hclosed : (b.enter context).Closed := h.closed
  have hremembered : operator.Remembered (b.enter context) := h.remembered
  have hchecks :=
    checksOut_expand hclosed hremembered (hleft : left.Declared (b.enter context).nodes)
  obtain ⟨hclosed', hremembered'⟩ := hremembered.expand hclosed left
  have hnodes := operator.nodes_expand left (b.enter context)
  have hwidth := hchecks.width
  rw [show (b.enter context).context = context from rfl, hcheck] at hwidth
  rcases hrun : run (operator.expand left) (b.enter context) with ⟨e | right, after⟩
  · rw [hrun] at hwidth
    cases hwidth
  · rw [hrun] at hclosed' hremembered' hnodes hwidth hchecks
    exact ⟨right, _, run_inContext_ok.mpr ⟨after, hrun, rfl⟩,
      ⟨hnodes, hclosed', hremembered'⟩, hchecks.declared right rfl, Except.ok.inj hwidth⟩

end Operator

namespace Workflow

variable [Inhabited σ] {w : Workflow ε σ} {b : Builder ε σ}

/-- An applier is added behind ports that exist. -/
theorem run_applierBehind {ε σ : Type} {spec : Spec ε σ} {ports : List PortRef}
    {behind : NodeId → Track} {b : Builder ε σ} (hb : b.Closed)
    (hfits : ports.length ≤ spec.arity.inputs) (hports : ∀ port ∈ ports, port.Declared b.nodes) :
    run (do
        let node ← addNode .applier spec none
        connectAll ports node
        return behind node) b =
      (.ok (behind b.nodes.length), b.place ⟨.applier, spec, none, ports⟩) := by
  have hplace := run_connectAll (p := ⟨.applier, spec, none, ports⟩) hb hfits hports
  simp only [run_bind_ok, run_addNode, run_pure]
  exact ⟨_, _, rfl, _, _, hplace, rfl⟩

/-- The label is extracted behind a port that exists. -/
theorem exists_labelled (h : w.pipeline.Ready b) {head : Track} (hhead : head.Declared b.nodes)
    (hwidth : head.width = 1) (hlabel : head.label = none) :
    ∃ right last, run (w.labelled head) b = (.ok right, last) ∧ w.pipeline.Continues b last ∧
      right.Declared last.nodes ∧ right.width = 1 ∧
      right.label.isSome = w.source.label.isSome := by
  unfold labelled
  cases hsource : w.source.label with
  | none => exact ⟨head, b, rfl, h.continues, hhead, hwidth, congrArg Option.isSome hlabel⟩
  | some label =>
    let extract : Placement ε σ := ⟨.applier, Builtin.extract label, none, head.ports⟩
    refine ⟨_, _, run_applierBehind h.closed (Nat.le_of_eq hwidth) hhead.ports, h.place _,
      ⟨fun port hport ↦ ?_, fun port hport ↦ ?_⟩, rfl, rfl⟩
    · rw [List.mem_singleton.mp hport]
      exact Operator.declared_place b (p := extract) (by decide : 0 < 2)
    · rw [← Option.mem_some.mp hport]
      exact Operator.declared_place b (p := extract) (by decide : 1 < 2)

/-- The label is removed behind a port that exists. -/
theorem exists_stripped (h : w.pipeline.Ready b) {head : Track} (hhead : head.Declared b.nodes)
    (hwidth : head.width = 1) (hlabel : head.label = none) :
    ∃ right last, run (w.stripped head) b = (.ok right, last) ∧ w.pipeline.Continues b last ∧
      right.Declared last.nodes ∧ right.width = 1 ∧ right.label = none := by
  unfold stripped
  cases hsource : w.source.label with
  | none => exact ⟨head, b, rfl, h.continues, hhead, hwidth, hlabel⟩
  | some label =>
    let strip : Placement ε σ := ⟨.applier, Builtin.strip label, none, head.ports⟩
    refine ⟨_, _, run_applierBehind h.closed (Nat.le_of_eq hwidth) hhead.ports, h.place _,
      ⟨fun port hport ↦ ?_, fun port hport ↦ ?_⟩, Track.width_rebased, hlabel⟩
    · obtain ⟨output, houtput, rfl⟩ := List.mem_map.mp hport
      exact Operator.declared_place b (p := strip) (List.mem_range.mp houtput)
    · exact (h.place strip).declared (hhead.label port hport)

/-- A fold of cross-validation is added behind a track that has a label. -/
theorem exists_addFold (plan : CrossValidation) (h : w.pipeline.Ready b) {head : Track}
    {label : PortRef} (hhead : head.Declared b.nodes) (hwidth : head.width = 1)
    (hlabel : head.label = some label) (haccepts : w.Accepts .eval) (fold : Nat) :
    ∃ metric last, run (w.addFold plan.evaluation head label fold) b = (.ok metric, last) ∧
      w.pipeline.Continues b last ∧ metric.Declared last.nodes := by
  obtain ⟨⟨width, htrain⟩, happly⟩ := haccepts
  -- the splitter
  let splitter : Placement ε σ := ⟨.applier, plan.splitter fold, none, head.ports ++ [label]⟩
  have hinputs : splitter.inputs.length = 2 := by
    rw [List.length_append]
    exact congrArg (· + 1) hwidth
  obtain ⟨begun, hfeatures, hsplit⟩ := run_connect_last (p := splitter) rfl rfl h.closed
    (Nat.le_of_eq hinputs) (by
      intro port hport
      rcases List.mem_append.mp hport with hport | hport
      · exact hhead.ports port hport
      · rw [List.mem_singleton.mp hport]
        exact hhead.label label hlabel)
  have hstarted := h.place splitter
  have hparts : ∀ output < 4,
      (⟨b.nodes.length, output⟩ : PortRef).Declared (b.place splitter).nodes :=
    fun output houtput ↦ Operator.declared_place b (p := splitter) houtput
  -- the pipeline in both shapes
  obtain ⟨fitted, trained, hfit, htrained, -⟩ :=
    hstarted.ready.exists_expand ⟨foldScope fold, .train⟩
      ⟨[⟨b.nodes.length, 0⟩], some ⟨b.nodes.length, 1⟩⟩
      ⟨by simpa using hparts 0 (by decide), by simpa using hparts 1 (by decide)⟩ htrain
  obtain ⟨predictions, applied, hpredict, happlied, hpredictions, hone⟩ :=
    htrained.ready.exists_expand ⟨foldScope fold, .apply⟩ ⟨[⟨b.nodes.length, 2⟩], none⟩
      ⟨by simpa using htrained.declared (hparts 2 (by decide)), by simp⟩ happly
  have hcontinues := (hstarted.trans htrained).trans happlied
  -- the metric
  let metric : Placement ε σ :=
    ⟨.applier, plan.scorer, none, predictions.ports ++ [⟨b.nodes.length, 3⟩]⟩
  have hinputs' : metric.inputs.length = 2 := by
    rw [List.length_append]
    exact congrArg (· + 1) hone
  obtain ⟨scored, hports, hscore⟩ := run_connect_last (p := metric) rfl hone happlied.ready.closed
    (Nat.le_of_eq hinputs') (by
      intro port hport
      rcases List.mem_append.mp hport with hport | hport
      · exact hpredictions.ports port hport
      · rw [List.mem_singleton.mp hport]
        exact (htrained.trans happlied).declared (hparts 3 (by decide)))
  refine ⟨⟨applied.nodes.length, 0⟩, applied.place metric, ?_,
    hcontinues.trans (happlied.ready.place metric),
    Operator.declared_place applied (p := metric) (by decide : 0 < 1)⟩
  simp only [addFold, run_bind_ok, run_addNode, run_check_ok, run_pure]
  exact ⟨_, _, rfl, _, _, hfeatures, _, _, hsplit, _, _, hfit, _, _, hpredict, (), _,
    ⟨Track.expectWidth_eq_ok.mpr hone, rfl⟩, _, _, rfl, _, _, hports, _, _, hscore, rfl⟩

/-- Folds of cross-validation are added behind a track that has a label. -/
theorem exists_addFolds (plan : CrossValidation) (h : w.pipeline.Ready b) {head : Track}
    {label : PortRef} (hhead : head.Declared b.nodes) (hwidth : head.width = 1)
    (hlabel : head.label = some label) (haccepts : w.Accepts .eval) (folds : List Nat) :
    ∃ metrics last, run (w.addFolds plan.evaluation head label folds) b = (.ok metrics, last) ∧
      w.pipeline.Continues b last ∧ metrics.length = folds.length ∧
      ∀ port ∈ metrics, port.Declared last.nodes := by
  induction folds generalizing b with
  | nil => exact ⟨[], b, rfl, h.continues, rfl, by simp⟩
  | cons fold rest ih =>
    obtain ⟨metric, middle, hfold, hmiddle, hmetric⟩ :=
      exists_addFold plan h hhead hwidth hlabel haccepts fold
    obtain ⟨metrics, last, hrest, hlast, hlength, hmetrics⟩ :=
      ih hmiddle.ready (hmiddle.track_declared hhead)
    refine ⟨metric :: metrics, last, ?_, hmiddle.trans hlast, congrArg (· + 1) hlength,
      fun port hport ↦ ?_⟩
    · simp only [addFolds, run_bind_ok, run_pure]
      exact ⟨_, _, hfold, _, _, hrest, rfl⟩
    · rcases List.mem_cons.mp hport with rfl | hport
      · exact hlast.declared hmetric
      · exact hmetrics port hport

/-- Cross-validation is added behind a port that exists. -/
theorem exists_evaluated {plan : CrossValidation} (h : w.pipeline.Ready b) {head : Track}
    (hhead : head.Declared b.nodes) (hwidth : head.width = 1) (hnone : head.label = none)
    (hlabel : w.source.label.isSome = true) (hevaluation : w.evaluation = some plan.evaluation)
    (hfolds : plan.folds ≠ 0) (haccepts : w.Accepts .eval) :
    ∃ right last, run (w.evaluated head) b = (.ok right, last) ∧ w.pipeline.Continues b last ∧
      right.Declared last.nodes ∧ right.width = 1 := by
  obtain ⟨labelled, middle, hlabelled, hmiddle, hdeclared, hone, hsome⟩ :=
    exists_labelled h hhead hwidth hnone
  rw [hlabel] at hsome
  obtain ⟨label, hlabel⟩ := Option.isSome_iff_exists.mp hsome
  obtain ⟨metrics, folded, haddFolds, hfolded, hlength, hmetrics⟩ :=
    exists_addFolds plan hmiddle.ready hdeclared hone hlabel haccepts (List.range plan.folds)
  let aggregator : Placement ε σ := ⟨.applier, CrossValidation.averager plan.folds, none, metrics⟩
  have hfits : aggregator.Fits := Nat.le_of_eq (hlength.trans List.length_range)
  have hplace := run_connectAll (p := aggregator) hfolded.ready.closed hfits hmetrics
  refine ⟨⟨[⟨folded.nodes.length, 0⟩], none⟩, folded.place aggregator, ?_,
    (hmiddle.trans hfolded).trans (hfolded.ready.place aggregator),
    ⟨fun port hport ↦ ?_, by simp⟩, rfl⟩
  · have hne : (plan.evaluation : Evaluation ε σ).folds ≠ 0 := hfolds
    simp only [evaluated, hevaluation, run_bind_ok, run_check_ok, if_neg hne, run_addNode, run_pure]
    exact ⟨_, _, hlabelled, label, _, ⟨Track.requireLabel_eq_ok.mpr hlabel, rfl⟩, _, _,
      haddFolds, _, _, rfl, _, _, hplace, rfl⟩
  · rw [List.mem_singleton.mp hport]
    exact Operator.declared_place folded (p := aggregator) (by decide : 0 < 1)

/-- The workflow is evaluated by cross-validation, in at least one fold and against a label. -/
structure CrossValidates {ε σ : Type} [Inhabited σ] (w : Workflow ε σ) (plan : CrossValidation) :
    Prop where
  label : w.source.label.isSome = true
  evaluation : w.evaluation = some plan.evaluation
  folds : plan.folds ≠ 0

/-- What lies between source and sink is added behind a port that exists, in a mode for which the
check accepts the pipeline. -/
theorem exists_middle {mode : Mode} (h : w.pipeline.Ready b) (head : Track)
    (hhead : head.Declared b.nodes) (hwidth : head.width = 1) (hnone : head.label = none)
    (haccepts : w.Accepts mode) (heval : mode = .eval → ∃ plan, w.CrossValidates plan) :
    ∃ right last, run (w.middle mode head) b = (.ok right, last) ∧ w.pipeline.Continues b last ∧
      right.Declared last.nodes ∧ right.width = 1 := by
  cases mode with
  | train =>
    obtain ⟨labelled, middle, hlabelled, hmiddle, hdeclared, hone, hlabel⟩ :=
      exists_labelled h hhead hwidth hnone
    obtain ⟨right, last, hbody, hlast, hright⟩ := hmiddle.ready.exists_expand ⟨0, .train⟩ labelled
      (n := 1) hdeclared (by rw [hlabel, hone]; exact haccepts)
    exact ⟨right, last, run_bind_ok.mpr ⟨labelled, middle, hlabelled, hbody⟩,
      hmiddle.trans hlast, hright⟩
  | apply =>
    obtain ⟨stripped, middle, hstripped, hmiddle, hdeclared, hone, hlabel⟩ :=
      exists_stripped h hhead hwidth hnone
    obtain ⟨right, last, hbody, hlast, hright⟩ := hmiddle.ready.exists_expand ⟨0, .apply⟩ stripped
      (n := 1) hdeclared (by rw [hlabel, hone]; exact haccepts)
    exact ⟨right, last, run_bind_ok.mpr ⟨stripped, middle, hstripped, hbody⟩,
      hmiddle.trans hlast, hright⟩
  | eval =>
    obtain ⟨plan, hplan⟩ := heval rfl
    exact exists_evaluated h hhead hwidth hnone hplan.label hplan.evaluation hplan.folds haccepts

/-- A workflow is expanded on a new builder if the feed answers and the check accepts the
pipeline. -/
theorem exists_expand {feed : Feed ε σ} (sinks : SinkProvider ε σ) {mode : Mode}
    {producer : Spec ε σ} (hfeed : feed w.source.query = .ok producer) (haccepts : w.Accepts mode)
    (heval : mode = .eval → ∃ plan, w.CrossValidates plan) :
    ∃ expansion b, run (w.expand feed sinks) (Builder.new mode) = (.ok expansion, b) := by
  let source : Placement ε σ := ⟨.source, producer, none, []⟩
  have hready : w.pipeline.Ready (Builder.new mode : Builder ε σ) :=
    ⟨by simp [Builder.Closed, Builder.new], by simp [Operator.Remembered, Builder.new]⟩
  have hsource := hready.place source
  obtain ⟨tail, middle, hmiddle, hcontinues, htail, hone⟩ := exists_middle hsource.ready
    ⟨[⟨0, 0⟩], none⟩ ⟨fun port hport ↦ by
      rw [List.mem_singleton.mp hport]
      exact Operator.declared_place (Builder.new mode) (p := source) (by decide : 0 < 1),
      by simp⟩ rfl rfl haccepts heval
  let sink : Placement ε σ := ⟨.sink, sinks mode, none, tail.ports⟩
  have hplace := run_connectAll (p := sink) hcontinues.ready.closed (Nat.le_of_eq hone) htail.ports
  have hstart : (Builder.new mode).place source =
      (Builder.new mode).addNode .source producer none := by
    simp [Builder.place, source, wires]
  rw [hstart] at hmiddle
  refine ⟨⟨0, middle.nodes.length⟩,
    { middle.place sink with expansion := some ⟨0, middle.nodes.length⟩ }, ?_⟩
  simp only [expand, run_bind_ok, run_get]
  refine ⟨_, _, rfl, ?_⟩
  simp only [Builder.new, run_bind_ok, run_get, run_check_ok, run_addNode, run_modify, run_pure]
  exact ⟨_, _, rfl, producer, _, ⟨hfeed, rfl⟩, _, _, rfl, tail, middle, hmiddle, (), _,
    ⟨Track.expectWidth_eq_ok.mpr hone, rfl⟩, _, _, rfl, _, _, hplace, (), _, rfl, rfl⟩

/-- Such a workflow has a graph. -/
theorem exists_graph {feed : Feed ε σ} {sinks : SinkProvider ε σ} {mode : Mode}
    {producer : Spec ε σ} (hfeed : feed w.source.query = .ok producer) (haccepts : w.Accepts mode)
    (heval : mode = .eval → ∃ plan, w.CrossValidates plan) :
    ∃ g, w.graph feed sinks mode = .ok g := by
  obtain ⟨expansion, b, hrun⟩ := exists_expand sinks hfeed haccepts heval
  obtain ⟨_, -, hexpanded⟩ := expand_ok hrun
  have hbuild := hexpanded.build_eq fun hmode ↦ by
    obtain ⟨plan, hplan⟩ := heval hmode
    exact ⟨plan, hplan.evaluation⟩
  exact ⟨_, graph_eq_ok.mpr ⟨expansion, b, hrun, hbuild⟩⟩

/-- A workflow that can be trained can be applied and evaluated. If the consumers of its pipeline have
as many outputs as inputs and it has a train graph, it has an apply graph. If moreover its source
has a label and it is cross-validated, in at least one fold, it has an evaluation graph. -/
theorem graphs_of_train {feed : Feed ε σ} {sinks : SinkProvider ε σ} {g : Graph ε σ}
    (hleaves : ∀ spec, Leaf.consumer spec ∈ w.pipeline.expression.leaves →
      spec.arity.outputs = spec.arity.inputs)
    (htrain : w.graph feed sinks .train = .ok g) :
    (∃ g, w.graph feed sinks .apply = .ok g) ∧
      ∀ plan : CrossValidation, w.source.label.isSome = true →
        w.evaluation = some plan.evaluation → 0 < plan.folds →
        ∃ g, w.graph feed sinks .eval = .ok g := by
  obtain ⟨expansion, b, hrun, -⟩ := graph_eq_ok.mp htrain
  obtain ⟨producer, hproducer, hexpanded⟩ := expand_ok hrun
  have hfit : w.pipeline.expression.check .train w.source.label.isSome 1 = .ok 1 :=
    hexpanded.accepts
  have hserve := w.pipeline.expression.check_apply hleaves hfit
  refine ⟨exists_graph hproducer hserve nofun, fun plan hlabel hevaluation hfolds ↦ ?_⟩
  rw [hlabel] at hfit
  exact exists_graph hproducer ⟨⟨1, hfit⟩, hserve⟩ fun _ ↦
    ⟨plan, hlabel, hevaluation, Nat.pos_iff_ne_zero.mp hfolds⟩

theorem graphs_of_train_branching :
    let feed : Feed Unit Unit := .ofTables [("rows", ⟨[], []⟩)]
    (∃ g, branching.graph feed .collecting .apply = .ok g) ∧
      ∃ g, branching.graph feed .collecting .eval = .ok g := by
  intro feed
  obtain ⟨train, htrain⟩ := exists_eq_ok
    (by decide +kernel : (branching.graph feed .collecting .train).isOk = true)
  have hleaves : ∀ spec, Leaf.consumer spec ∈ branching.pipeline.expression.leaves →
      spec.arity.outputs = spec.arity.inputs := by
    intro spec hspec
    have hspec : spec = { Builtin.collector with stateful := true } := by
      simpa [branching, Expression.merged, Expression.leaves, Expression.branchLeaves] using hspec
    rw [hspec]
    rfl
  obtain ⟨happly, heval⟩ := graphs_of_train hleaves htrain
  exact ⟨happly, heval _ rfl rfl (by decide : 0 < 2)⟩

end Workflow

end Dataflow
