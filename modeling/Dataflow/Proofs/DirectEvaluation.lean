import Dataflow.Proofs.Layout
import Dataflow.Proofs.Stepping
import Dataflow.Workflow

/-!
# Evaluating a pipeline directly

What a workflow means can be said without a graph. `Expression.evaluate` hands payloads from actor
to actor by recursion on the expression: a mapper applies its actor, and in the train shape a
stateful one first trains it; a consumer trains its actor and passes its inputs on, or in the apply
shape applies it; a sequence hands on what its first part gives; parallel branches get the same
inputs, and their outputs stand side by side. `Workflow.evaluate` puts the source, the extraction or
removal of the label, and the sink around it.

The actors of the leaves are numbered from left to right. The only other thing evaluation keeps is
how many actors it has called, because an error names the call that raised it.
-/

set_option autoImplicit false
set_option relaxedAutoImplicit false

namespace Dataflow

variable {ε σ α β : Type}

/-- Where direct evaluation stands. -/
structure Stage (ε σ : Type) where
  /-- How many actors have been called. -/
  calls : Nat
  /-- The ordinal of the next leaf. -/
  leaf : Nat
  /-- The actor of each leaf. -/
  actors : Nat → Instance ε σ

/-- A step of direct evaluation, which may fail or crash. -/
abbrev Direct (ε σ α : Type) : Type :=
  ExceptT (Halt FlowError) (StateM (Stage ε σ)) α

namespace Direct

/-- What a step gives at a stage, and the stage after it. -/
def result (body : Direct ε σ α) (s : Stage ε σ) : Except (Halt FlowError) α × Stage ε σ :=
  StateT.run (ExceptT.run body) s

/-- Ends a call of an actor: an error is reported with the number of the call and the actor's
name. -/
def call (name : String) (outcome : Except (Halt ActorError) α) : Direct ε σ α := do
  let s ← get
  set { s with calls := s.calls + 1 }
  match Halt.mapError (FlowError.ofActor (NodeId.name s.calls ++ ":" ++ name)) outcome with
  | .ok a => return a
  | .error h => throw h

/-- Applies an actor that belongs to no leaf, made for this call. -/
def applyNew (env : Environment ε) (spec : Spec ε σ) (outputs : Nat) (inputs : List Payload) :
    Direct ε σ (List Payload) :=
  call spec.name (spec.instantiate.applied env outputs inputs)

/-- Applies the actor of the next leaf. -/
def applyLeaf (env : Environment ε) (spec : Spec ε σ) (inputs : List Payload) :
    Direct ε σ (List Payload) := do
  let s ← get
  call spec.name ((s.actors s.leaf).applied env spec.arity.outputs inputs)

/-- Trains the actor of the next leaf, which needs a label. -/
def trainLeaf (env : Environment ε) (spec : Spec ε σ) (inputs : List Payload)
    (label : Option Payload) : Direct ε σ Unit := do
  match label with
  | none =>
    throw (.error (.composition spec.name "training requires a label but none is available"))
  | some label =>
    let s ← get
    let fitted := (s.actors s.leaf).trained env inputs label
    set { s with actors := fun i ↦ if i = s.leaf then fitted.2 else s.actors i }
    call spec.name fitted.1

/-- Passes to the next leaf. -/
def nextLeaf : Direct ε σ Unit :=
  modify fun s ↦ { s with leaf := s.leaf + 1 }

end Direct

namespace Expression

open Direct

mutual

/-- What an expression gives for inputs and a label. -/
def evaluate (shape : Shape) (env : Environment ε) :
    Expression ε σ → List Payload → Option Payload → Direct ε σ (List Payload)
  | mapper spec, inputs, label => do
    if shape = .train ∧ spec.stateful then
      trainLeaf env spec inputs label
    let outputs ← applyLeaf env spec inputs
    nextLeaf
    return outputs
  | consumer spec, inputs, label => do
    let outputs ←
      match shape with
      | .train => do
        trainLeaf env spec inputs label
        pure inputs
      | .apply => applyLeaf env spec inputs
    nextLeaf
    return outputs
  | sequence first second, inputs, label => do
    let middle ← evaluate shape env first inputs label
    evaluate shape env second middle label
  | parallel branches, inputs, label => evaluateBranches shape env branches inputs label

/-- What branches give for the same inputs, side by side. -/
def evaluateBranches (shape : Shape) (env : Environment ε) :
    List (Expression ε σ) → List Payload → Option Payload → Direct ε σ (List Payload)
  | [], _, _ => return []
  | branch :: rest, inputs, label => do
    let outputs ← evaluate shape env branch inputs label
    let others ← evaluateBranches shape env rest inputs label
    return outputs ++ others

end

end Expression

/-- The mode whose graph has a shape and nothing else. -/
def Shape.mode : Shape → Mode
  | train => .train
  | apply => .apply

theorem Shape.mode_ne_eval (shape : Shape) : shape.mode ≠ .eval := by
  cases shape <;> decide

namespace Workflow

open Direct

variable [Inhabited σ]

/-- Separates the label from the data when training, and removes it when applying; without a label
column the data are the features. -/
def features (w : Workflow ε σ) (env : Environment ε) (shape : Shape) (data : List Payload) :
    Direct ε σ (List Payload × Option Payload) :=
  match shape, w.source.label with
  | _, none => return (data, none)
  | .train, some label => do
    let parts ← applyNew env (Builtin.extract label) 2 data
    return (parts.take 1, parts[1]?)
  | .apply, some label => do
    let features ← applyNew env (Builtin.strip label) 1 data
    return (features, none)

/-- What the sink gives in the end, with the producing and the receiving actor. -/
def evaluate (w : Workflow ε σ) (env : Environment ε) (producer receiver : Spec ε σ)
    (shape : Shape) : Direct ε σ (Option Payload) := do
  let data ← applyNew env producer 1 []
  let (features, label) ← w.features env shape data
  let outputs ← w.pipeline.expression.evaluate shape env features label
  let received ← applyNew env receiver 1 outputs
  return received.getLast?

end Workflow

/-! ### Evaluating step by step -/

namespace Direct

@[simp] theorem result_pure (a : α) (s : Stage ε σ) :
    result (pure a : Direct ε σ α) s = (.ok a, s) := rfl

@[simp] theorem result_get (s : Stage ε σ) :
    result (get : Direct ε σ (Stage ε σ)) s = (.ok s, s) := rfl

@[simp] theorem result_set (s next : Stage ε σ) :
    result (set next : Direct ε σ PUnit) s = (.ok ⟨⟩, next) := rfl

theorem result_bind (body : Direct ε σ α) (next : α → Direct ε σ β) (s : Stage ε σ) :
    result (body >>= next) s =
      match result body s with
      | (.ok a, after) => result (next a) after
      | (.error h, after) => (.error h, after) := by
  change ExceptT.bindCont next (result body s).1 (result body s).2 = _
  rcases result body s with ⟨_ | _, _⟩ <;> rfl

@[simp] theorem result_nextLeaf (s : Stage ε σ) :
    result nextLeaf s = (.ok (), { s with leaf := s.leaf + 1 }) := rfl

/-- The label an error carries at a stage. -/
def place (s : Stage ε σ) (name : String) : String :=
  NodeId.name s.calls ++ ":" ++ name

theorem result_call (name : String) (outcome : Except (Halt ActorError) α) (s : Stage ε σ) :
    result (call name outcome) s =
      (Halt.mapError (FlowError.ofActor (place s name)) outcome,
        { s with calls := s.calls + 1 }) := by
  cases outcome <;> rfl

theorem result_applyLeaf (env : Environment ε) (spec : Spec ε σ) (inputs : List Payload)
    (s : Stage ε σ) :
    result (applyLeaf env spec inputs) s =
      (Halt.mapError (FlowError.ofActor (place s spec.name))
        ((s.actors s.leaf).applied env spec.arity.outputs inputs),
        { s with calls := s.calls + 1 }) := by
  rw [applyLeaf, result_bind, result_get]
  exact result_call spec.name _ s

/-- The stage after the actor of the next leaf has been trained. -/
def afterTraining (s : Stage ε σ) (env : Environment ε) (inputs : List Payload) (label : Payload) :
    Stage ε σ :=
  { s with
    calls := s.calls + 1
    actors := fun i ↦
      if i = s.leaf then ((s.actors s.leaf).trained env inputs label).2 else s.actors i }

theorem result_trainLeaf (env : Environment ε) (spec : Spec ε σ) (inputs : List Payload)
    (label : Payload) (s : Stage ε σ) :
    result (trainLeaf env spec inputs (some label)) s =
      (Halt.mapError (FlowError.ofActor (place s spec.name))
        ((s.actors s.leaf).trained env inputs label).1, afterTraining s env inputs label) := by
  unfold trainLeaf
  simp only [result_bind, result_get, result_set, result_call]
  rfl

end Direct

end Dataflow
