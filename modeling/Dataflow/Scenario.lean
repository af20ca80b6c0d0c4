import Dataflow.Actor

/-!
# Scenarios

A scenario tries an actor in isolation: it says what to train a fresh instance on, what to apply it
to afterwards, and whether the last of these steps returns something or fails. Its outcome is read
off those choices alone, whatever actor it is tried on:

| train | apply | fails | outcome              |
|-------|-------|-------|----------------------|
| no    | any   | yes   | `plainApplyRaises`   |
| no    | any   | no    | `plainApplyReturns`  |
| yes   | no    | yes   | `stateTrainRaises`   |
| yes   | no    | no    | `stateTrainReturns`  |
| yes   | yes   | yes   | `stateApplyRaises`   |
| yes   | yes   | no    | `stateApplyReturns`  |

A failure is expected either with a text that its wording has to contain, or with any wording.
-/

set_option autoImplicit false
set_option relaxedAutoImplicit false

namespace Dataflow

/-- What a scenario is about. -/
inductive Outcome
  | plainApplyRaises
  | plainApplyReturns
  | stateTrainRaises
  | stateTrainReturns
  | stateApplyRaises
  | stateApplyReturns
  deriving DecidableEq, Repr

namespace Outcome

/-- Whether a failure is expected. -/
def raises : Outcome → Bool
  | plainApplyRaises => true
  | stateTrainRaises => true
  | stateApplyRaises => true
  | _ => false

/-- The name of an outcome, as messages use it. -/
def name : Outcome → String
  | plainApplyRaises => "PlainApplyRaises"
  | plainApplyReturns => "PlainApplyReturns"
  | stateTrainRaises => "StateTrainRaises"
  | stateTrainReturns => "StateTrainReturns"
  | stateApplyRaises => "StateApplyRaises"
  | stateApplyReturns => "StateApplyReturns"

end Outcome

/-- What the last step of a scenario is expected to do. -/
inductive Expectation
  /-- It succeeds; an application yields this payload, a training nothing. -/
  | returns (output : Option Payload)
  /-- It fails; the wording contains this text if one is given. -/
  | raises (mention : Option String)

/-- What an actor is trained on. -/
structure Lesson where
  features : List Payload
  label : Payload

/-- The steps of a scenario that lacks its expectation. -/
structure Trial where
  train : Option Lesson := none
  apply : Option (List Payload) := none

/-- The steps tried on an actor, and what is expected of them. -/
structure Scenario extends Trial where
  expected : Expectation

namespace Trial

/-- Applies an actor that has not been trained. -/
def applying (inputs : List Payload) : Trial :=
  { apply := some inputs }

/-- Trains an actor. -/
def training (features : List Payload) (label : Payload) : Trial :=
  { train := some ⟨features, label⟩ }

/-- Applies the actor after its training. -/
def thenApply (t : Trial) (inputs : List Payload) : Trial :=
  { t with apply := some inputs }

/-- Expects the last step to succeed, and to yield a payload if it is an application. -/
def returns (t : Trial) (output : Payload) : Scenario :=
  { t with expected := .returns (t.apply.map fun _ ↦ output) }

/-- Expects the training to succeed, with nothing applied. -/
def trains (t : Trial) : Scenario :=
  { t with expected := .returns none }

/-- Expects a failure. -/
def raises (t : Trial) (mention : Option String) : Scenario :=
  { t with expected := .raises mention }

end Trial

/-- Whether a text contains another. -/
def mentions (part : List Char) : List Char → Bool
  | [] => part.isEmpty
  | c :: rest => part.isPrefixOf (c :: rest) || mentions part rest

/-- An output that may be missing, as messages show it. -/
def shownOutput : Option Payload → String
  | some payload => "Some(" ++ payload.shown ++ ")"
  | none => "None"

/-- Equality of outputs that may be missing. -/
def sameOutput : Option Payload → Option Payload → Bool
  | some a, some b => a == b
  | none, none => true
  | _, _ => false

/-- A scenario that did not go as expected. -/
structure ScenarioFailure where
  outcome : Outcome
  message : String
  deriving DecidableEq, Repr

/-- The wording of a failed scenario. -/
def ScenarioFailure.text (f : ScenarioFailure) : String :=
  s!"{f.outcome.name} scenario failed: {f.message}"

namespace Expectation

/-- Whether a failure is expected. -/
def isRaises : Expectation → Bool
  | returns _ => false
  | raises _ => true

/-- What is wrong with an observation, if anything. -/
def mismatch? : Expectation → Except ActorError (Option Payload) → Option String
  | returns wanted, .ok actual =>
    if sameOutput wanted actual then none
    else some s!"expected {shownOutput wanted}, got {shownOutput actual}"
  | returns _, .error e => some s!"unexpected failure: {e.message}"
  | raises none, .error _ => none
  | raises (some text), .error e =>
    if mentions text.toList e.message.toList then none
    else some s!"expected failure mentioning '{text}', got '{e.message}'"
  | raises _, .ok actual => some s!"expected a failure, got {shownOutput actual}"

end Expectation

namespace Scenario

/-- What a scenario is about. -/
def outcome (s : Scenario) : Outcome :=
  match s.train, s.apply, s.expected.isRaises with
  | none, _, true => .plainApplyRaises
  | none, _, false => .plainApplyReturns
  | some _, none, true => .stateTrainRaises
  | some _, none, false => .stateTrainReturns
  | some _, some _, true => .stateApplyRaises
  | some _, some _, false => .stateApplyReturns

variable {ε σ : Type}

/-- Takes a fresh instance through the steps of a scenario, up to the first that fails. -/
def observe (s : Scenario) (behavior : Behavior ε σ) (env : Environment ε) :
    Except (Halt ActorError) (Option Payload) × Environment ε :=
  let (trained, fit, env) : Except (Halt ActorError) Unit × σ × Environment ε :=
    match s.train with
    | none => (.ok (), behavior.fresh, env)
    | some lesson => behavior.train lesson.features lesson.label behavior.fresh env
  match trained, s.apply with
  | .error h, _ => (.error h, env)
  | .ok (), none => (.ok none, env)
  | .ok (), some inputs =>
    let (result, env) := behavior.apply inputs fit env
    (result.map some, env)

/-- Tries a scenario on a fresh instance of an actor. -/
def check (s : Scenario) (spec : Spec ε σ) (env : Environment ε) :
    Except (Halt ScenarioFailure) Unit :=
  let judge (observation : Except ActorError (Option Payload)) : Except (Halt ScenarioFailure) Unit :=
    match s.expected.mismatch? observation with
    | none => .ok ()
    | some message => .error (.error ⟨s.outcome, message⟩)
  match (s.observe spec.behavior env).1 with
  | .ok output => judge (.ok output)
  | .error (.error e) => judge (.error e)
  | .error .crash => .error .crash

end Scenario

end Dataflow
