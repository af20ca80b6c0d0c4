import Dataflow.Evaluation
import Dataflow.Operator

/-!
# Workflows

A workflow joins a data source, a pipeline and, optionally, an evaluation. The source names what to
ask of a feed and which column of the answer is the label. A feed turns a query into the actor that
produces the data; a sink provider gives, for each mode, the actor that receives the result.
-/

set_option autoImplicit false
set_option relaxedAutoImplicit false

namespace Dataflow

variable {ε σ : Type}

/-- What to ask of the feed, and the name of the label column if there is one. -/
structure Source where
  query : String
  label : Option String
  deriving DecidableEq, Repr

/-- Gives the producing actor, without inputs and with one output, for a query. -/
abbrev Feed (ε σ : Type) : Type :=
  String → Except FlowError (Spec ε σ)

/-- Gives the receiving actor, with one input and one output, for a mode. -/
abbrev SinkProvider (ε σ : Type) : Type :=
  Mode → Spec ε σ

/-- The feed that serves frames kept under names. -/
def Feed.ofTables [Inhabited σ] (tables : List (String × Frame)) : Feed ε σ := fun query ↦
  match tables.lookup query with
  | some frame =>
    .ok { name := s!"source:{query}", behavior := .function fun _ ↦ .ok (.frame frame)
          arity := ⟨0, 1⟩ }
  | none => .error (.composition "source" s!"feed has no table '{query}'")

/-- The sink that hands the result on, in every mode. -/
def SinkProvider.collecting [Inhabited σ] : SinkProvider ε σ := fun _ ↦ Builtin.collector

/-- A source, a pipeline and an optional evaluation. -/
structure Workflow (ε σ : Type) where
  source : Source
  pipeline : Operator ε σ
  evaluation : Option (Evaluation ε σ)

/-- A workflow of which any part may still be missing. -/
structure WorkflowDraft (ε σ : Type) where
  source : Option Source := none
  pipeline : Option (Operator ε σ) := none
  evaluation : Option (Evaluation ε σ) := none

/-- The workflow of a draft that has a source and a pipeline. -/
def WorkflowDraft.finish (draft : WorkflowDraft ε σ) : Except FlowError (Workflow ε σ) :=
  match draft.source, draft.pipeline with
  | none, _ => .error (.incompleteDescriptor .source)
  | some _, none => .error (.incompleteDescriptor .pipeline)
  | some source, some pipeline => .ok ⟨source, pipeline, draft.evaluation⟩

end Dataflow

/-!
## The graphs of a workflow

Expanding a workflow puts all its nodes into a builder, for the builder's mode:

* *train*: the source, the extraction of the label, the pipeline in train shape, the sink;
* *apply*: the source, the removal of the label, the pipeline in apply shape, the sink;
* *eval*: the source, the extraction of the label, and for each fold a splitter, the pipeline in train
  shape on the training part, the pipeline in apply shape on the test features, and the metric of its
  predictions; then the aggregator of all metrics, and the sink.

The groups of a train or apply graph are in scope 0. Fold `k` has scope `k + 1`, shared by its two
expansions of the pipeline, so what is fitted in a fold is what predicts in it. Scopes are numbers
of 32 bits.
-/

namespace Dataflow

variable {ε σ : Type} [Inhabited σ]

namespace Workflow

/-- The track behind the extraction of the label, if the source has one. -/
def labelled (w : Workflow ε σ) (head : Track) : Build ε σ Track :=
  match w.source.label with
  | none => return head
  | some label => do
    let extract ← Build.addNode .applier (Builtin.extract label) none
    Build.connectAll head.ports extract
    return ⟨[⟨extract, 0⟩], some ⟨extract, 1⟩⟩

/-- The track behind the removal of the label, if the source has one. -/
def stripped (w : Workflow ε σ) (head : Track) : Build ε σ Track :=
  match w.source.label with
  | none => return head
  | some label => do
    let strip ← Build.addNode .applier (Builtin.strip label) none
    Build.connectAll head.ports strip
    return head.rebased strip 1

/-- The scope of a fold. -/
def foldScope (fold : Nat) : Nat :=
  fold % UInt32.size + 1

/-- Adds one fold to the features and label of a track, and gives the port of its metric. -/
def addFold (w : Workflow ε σ) (evaluation : Evaluation ε σ) (head : Track) (label : PortRef)
    (fold : Nat) : Build ε σ PortRef := do
  let splitter ← Build.addNode .applier (evaluation.splitter fold) none
  Build.connectAll head.ports splitter
  Build.connect label splitter head.width
  let train : Track := ⟨[⟨splitter, 0⟩], some ⟨splitter, 1⟩⟩
  let _ ← Build.inContext ⟨foldScope fold, .train⟩ (w.pipeline.expand train)
  let test : Track := ⟨[⟨splitter, 2⟩], none⟩
  let predictions ← Build.inContext ⟨foldScope fold, .apply⟩ (w.pipeline.expand test)
  Build.check (predictions.expectWidth "evaluation" 1)
  let metric ← Build.addNode .applier evaluation.metric none
  Build.connectAll predictions.ports metric
  Build.connect ⟨splitter, 3⟩ metric 1
  return ⟨metric, 0⟩

/-- Adds folds in order, and gives the ports of their metrics. -/
def addFolds (w : Workflow ε σ) (evaluation : Evaluation ε σ) (head : Track) (label : PortRef) :
    List Nat → Build ε σ (List PortRef)
  | [] => return []
  | fold :: rest => do
    let metric ← w.addFold evaluation head label fold
    let metrics ← w.addFolds evaluation head label rest
    return metric :: metrics

/-- Adds the whole evaluation, and gives the track of the aggregated metric. -/
def evaluated (w : Workflow ε σ) (head : Track) : Build ε σ Track := do
  match w.evaluation with
  | none => throw (.incompleteDescriptor .evaluation)
  | some evaluation =>
    let head ← w.labelled head
    let label ← Build.check (head.requireLabel "evaluation")
    if evaluation.folds = 0 then
      throw (.composition "evaluation" "at least one fold is required")
    let metrics ← w.addFolds evaluation head label (List.range evaluation.folds)
    let aggregator ← Build.addNode .applier (evaluation.aggregator evaluation.folds) none
    Build.connectAll metrics aggregator
    return ⟨[⟨aggregator, 0⟩], none⟩

/-- Adds what lies between source and sink in a mode. -/
def middle (w : Workflow ε σ) (mode : Mode) (head : Track) : Build ε σ Track :=
  match mode with
  | .train => do
    let head ← w.labelled head
    Build.inContext ⟨0, .train⟩ (w.pipeline.expand head)
  | .apply => do
    let head ← w.stripped head
    Build.inContext ⟨0, .apply⟩ (w.pipeline.expand head)
  | .eval => w.evaluated head

/-- Adds all nodes of a workflow for the builder's mode, unless a workflow was expanded there
before; gives source and sink. -/
def expand (w : Workflow ε σ) (feed : Feed ε σ) (sinks : SinkProvider ε σ) :
    Build ε σ Expansion := do
  match (← get).expansion with
  | some expansion => return expansion
  | none =>
    let mode := (← get).mode
    let producer ← Build.check (feed w.source.query)
    let source ← Build.addNode .source producer none
    let tail ← w.middle mode ⟨[⟨source, 0⟩], none⟩
    Build.check (tail.expectWidth "sink" 1)
    let sink ← Build.addNode .sink (sinks mode) none
    Build.connectAll tail.ports sink
    modify fun b ↦ { b with expansion := some ⟨source, sink⟩ }
    return ⟨source, sink⟩

/-- The validated graph of a workflow for a mode. -/
def graph (w : Workflow ε σ) (feed : Feed ε σ) (sinks : SinkProvider ε σ) (mode : Mode) :
    Except FlowError (Graph ε σ) :=
  match Build.run (w.expand feed sinks) (Builder.new mode) with
  | (.ok _, b) => b.build
  | (.error e, _) => .error e

end Workflow

end Dataflow
