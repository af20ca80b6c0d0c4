import Dataflow.Actor

/-!
# Evaluation

How predictions are scored, and how rows are dealt out to the folds that score them.
-/

set_option autoImplicit false
set_option relaxedAutoImplicit false

/-!
## The fold shuffle

Rows are put into an order that depends on a seed alone: each row gets the sort key `mix (seed ^^^
mix row)`, where `mix` adds a constant to a 64-bit word and then scrambles it by three rounds of
shift, exclusive or and multiplication.
-/

namespace Dataflow

/-- Scrambles a 64-bit word. -/
def mix (z : UInt64) : UInt64 :=
  let z := z + 0x9E3779B97F4A7C15
  let z := (z ^^^ (z >>> 30)) * 0xBF58476D1CE4E5B9
  let z := (z ^^^ (z >>> 27)) * 0x94D049BB133111EB
  z ^^^ (z >>> 31)

/-- The sort key of a row under a seed. -/
def shuffleKey (seed : UInt64) (row : Nat) : UInt64 :=
  mix (seed ^^^ mix (UInt64.ofNat row))

/-- The rows below `rows` in shuffled order. -/
def shuffled (seed : UInt64) (rows : Nat) : List Nat :=
  let keyed := (List.range rows).map fun row ↦ (shuffleKey seed row, row)
  (keyed.mergeSort fun a b ↦ a.1 ≤ b.1).map (·.2)

/-!
## Scoring predictions

Predictions are a column of predicted classes, or a frame of class probabilities with one column for
each class, named by the class. A class is named by the key of its label value.

*Accuracy* is the share of rows whose predicted class, in a frame the most probable one, is the true
class. *Log loss* is the mean of the negative logarithms of the probabilities given to the true
classes, each kept between `1e-15` and `1`; it needs a frame.
-/

/-- How predictions are compared with the truth. -/
inductive Metric
  | accuracy
  | logLoss
  deriving DecidableEq, Repr

namespace Metric

/-- The name of a metric. -/
def name : Metric → String
  | accuracy => "accuracy"
  | logLoss => "log_loss"

/-- There must be as many predictions as true labels. -/
def checkRows (predicted truth : Nat) : Except (Halt ActorError) Unit :=
  if predicted = truth then .ok ()
  else .error (.error (.invalidInput s!"{predicted} predictions for {truth} truth rows"))

/-- Of two candidates the one with the greater number; the earlier one if neither is greater. -/
def better (best : Option (String × Float)) (candidate : String × Float) : Option (String × Float) :=
  match best with
  | some (name, top) => if top ≥ candidate.2 then some (name, top) else some candidate
  | none => some candidate

/-- The first class whose cell in a row is the greatest number; cells that are no numbers, and cells
or classes without a counterpart, do not count. -/
def mostProbable (classes : List String) (row : List Json) : Option String :=
  let candidates := (classes.zip row).filterMap fun (name, cell) ↦ cell.number?.map (name, ·)
  (candidates.foldl better none).map (·.1)

/-- The share of true rows. -/
def share (hits : List Bool) : Float :=
  Float.ofNat (hits.count true) / Float.ofNat hits.length

/-- The probability a row gives to a class: zero if there is no column for it or no number in the
cell. -/
def probability (frame : Frame) (row : List Json) (label : String) : Except (Halt ActorError) Float :=
  match frame.columnIndex? label with
  | none => .ok 0.0
  | some index =>
    match row[index]? with
    | some cell => .ok (cell.number?.getD 0.0)
    | none => .error .crash

/-- A number kept between two others. -/
def clamp (x low high : Float) : Float :=
  if x < low then low else if x > high then high else x

/-- Subtracts from a total the logarithms of the probabilities of the true classes, row by row. -/
def logTotal (frame : Frame) (total : Float) :
    List (List Json × Json) → Except (Halt ActorError) Float
  | [] => .ok total
  | (row, label) :: rest => do
    let p ← probability frame row label.key
    logTotal frame (total - Float.log (clamp p 1e-15 1.0)) rest

/-- The score of predictions against the true labels. -/
def score (metric : Metric) (predictions : Payload) (truth : List Json) :
    Except (Halt ActorError) Float := do
  if truth.isEmpty then throw (.error (.invalidInput "no rows to score"))
  match metric, predictions with
  | accuracy, .column predicted =>
    checkRows predicted.length truth.length
    return share ((predicted.zip truth).map fun (p, t) ↦ p.key == t.key)
  | accuracy, .frame f =>
    checkRows f.height truth.length
    return share ((f.rows.zip truth).map fun (row, t) ↦ mostProbable f.columns row == some t.key)
  | logLoss, .frame f =>
    checkRows f.height truth.length
    let total ← logTotal f 0.0 (f.rows.zip truth)
    return total / Float.ofNat truth.length
  | metric, other =>
    throw (.error (.invalidInput s!"{metric.name} cannot score a {other.kind}"))

end Metric

/-- A frame of class probabilities, one column for each class. -/
def probabilityFrame (classes : List String) (rows : List (List Float)) : Except FrameError Frame :=
  Frame.ofRows classes
    (rows.map fun row ↦ row.map Json.ofFloat)

/-!
## Cross-validation

An `Evaluation` supplies the actors an evaluation graph is made of: for each fold a splitter, which
turns features and label into training features, training label, test features and test label; a
metric, which turns predictions and truth into a number; and an aggregator of the folds' numbers.

`CrossValidation` is the one defined here. Of the shuffled rows, fold `k` tests on every `folds`-th
one starting at position `k` and trains on the others, both in the order of the table.
-/

/-- The actors of an evaluation. -/
structure Evaluation (ε σ : Type) where
  folds : Nat
  splitter : Nat → Spec ε σ
  metric : Spec ε σ
  aggregator : Nat → Spec ε σ

/-- A number of folds, the seed of the shuffle, and a metric. -/
structure CrossValidation where
  folds : Nat
  seed : UInt64
  metric : Metric
  deriving DecidableEq, Repr

namespace CrossValidation

/-- Whether the row at a shuffled position is tested in a fold. No folds count as one. -/
def tests (plan : CrossValidation) (fold position : Nat) : Bool :=
  position % max plan.folds 1 == fold

/-- The rows a fold trains on and those it tests on, of a table with `rows` rows. -/
def split (plan : CrossValidation) (fold rows : Nat) : List Nat × List Nat :=
  let placed := (shuffled plan.seed rows).zipIdx
  let (test, train) := placed.partition fun (_, position) ↦ plan.tests fold position
  let sorted (part : List (Nat × Nat)) : List Nat :=
    (part.map (·.1)).mergeSort fun a b ↦ a ≤ b
  (sorted train, sorted test)

/-- The cells of a column at the given rows; crashes at a row past its end. -/
def pick (cells : List Json) (rows : List Nat) : Except (Halt ActorError) (List Json) :=
  match rows.mapM (cells[·]?) with
  | some picked => .ok picked
  | none => .error .crash

/-- Splits the features at input 0 and the label column at input 1 for one fold. -/
def splitRows (plan : CrossValidation) (fold : Nat) (inputs : List Payload) :
    Except (Halt ActorError) Payload := do
  let features ← Halt.lift (frameInput inputs 0)
  let label ← Halt.lift (columnInput inputs 1)
  Metric.checkRows features.height label.length
  let (train, test) := plan.split fold features.height
  let trainLabel ← pick label train
  let testLabel ← pick label test
  return .tuple [.frame (features.takeRows train), .column trainLabel,
    .frame (features.takeRows test), .column testLabel]

/-- Scores the predictions at input 0 against the truth at input 1. -/
def scoreInputs (metric : Metric) (inputs : List Payload) : Except (Halt ActorError) Payload :=
  match inputs.head? with
  | none => .error (.error (.invalidInput "missing predictions"))
  | some predictions => do
    let truth ← Halt.lift (columnInput inputs 1)
    return .scalar (← metric.score predictions truth)

/-- The numbers of the inputs, which must all be scalars. -/
def scores (inputs : List Payload) : Except ActorError (List Float) :=
  inputs.mapM fun
    | .scalar x => .ok x
    | other => .error (.invalidInput s!"cannot average a {other.kind}")

/-- The sum of floats from left to right. A sum of negative zeros, and the empty one, is negative
zero. -/
def sum (xs : List Float) : Float :=
  xs.foldl (· + ·) (-0.0)

/-- The mean of all inputs. -/
def meanInputs (inputs : List Payload) : Except ActorError Payload := do
  let xs ← scores inputs
  if xs.isEmpty then throw (.invalidInput "no scores to average")
  return .scalar (sum xs / Float.ofNat xs.length)

variable {ε σ : Type} [Inhabited σ]

/-- The actor that splits for one fold. -/
def splitter (plan : CrossValidation) (fold : Nat) : Spec ε σ :=
  { name := s!"split{fold}", behavior := .pure (plan.splitRows fold), arity := ⟨2, 4⟩ }

/-- The actor that scores one fold. -/
def scorer (plan : CrossValidation) : Spec ε σ :=
  { name := plan.metric.name, behavior := .pure (scoreInputs plan.metric), arity := ⟨2, 1⟩ }

/-- The actor that averages the scores of a number of folds. -/
def averager (folds : Nat) : Spec ε σ :=
  { name := "mean", behavior := .pure fun inputs ↦ Halt.lift (meanInputs inputs)
    arity := ⟨folds, 1⟩ }

/-- The actors of cross-validation. -/
def evaluation (plan : CrossValidation) : Evaluation ε σ :=
  { folds := plan.folds, splitter := plan.splitter, metric := plan.scorer, aggregator := averager }

end CrossValidation

/-!
## Plans of cross-validation as JSON

A plan is written as an object of its three parts, the metric by its name. It is read from such an
object, whose other members do not count, or from the list of the three parts in order.
-/

/-- The metric of a name. -/
def Metric.ofName? (name : String) : Option Metric :=
  [accuracy, logLoss].find? fun metric ↦ metric.name = name

/-- Reads the name of a metric. -/
def Metric.ofJson? (j : Json) : Option Metric := do
  Metric.ofName? (← j.choice?)

namespace CrossValidation

/-- A plan as an object. -/
def toJson (plan : CrossValidation) : Json :=
  .object [("folds", .int plan.folds), ("metric", .text plan.metric.name),
    ("seed", .int plan.seed.toNat)]

/-- Reads a plan. -/
def ofJson? (j : Json) : Option CrossValidation := do
  match ← j.fields? ["folds", "seed", "metric"] with
  | [folds, seed, metric] =>
    let seed ← seed.natural?
    return ⟨← folds.natural?, UInt64.ofNat seed, ← Metric.ofJson? metric⟩
  | _ => none

end CrossValidation

end Dataflow
