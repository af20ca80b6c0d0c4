/-!
# What stops a computation

A computation that yields no result either reports an error or crashes. It crashes where it reaches
for a cell that a row does not have; a crash carries no message, and nothing after it happens.
-/

set_option autoImplicit false
set_option relaxedAutoImplicit false

namespace Dataflow

/-- An error of type `ε`, or a crash. -/
inductive Halt (ε : Type)
  | error (e : ε)
  | crash
  deriving DecidableEq, Repr

/-- Changes the error and keeps a crash. -/
def Halt.map {ε δ : Type} (f : ε → δ) : Halt ε → Halt δ
  | error e => error (f e)
  | crash => crash

/-- A result, or what stopped the computation, with its error changed. -/
def Halt.mapError {ε δ α : Type} (f : ε → δ) : Except (Halt ε) α → Except (Halt δ) α
  | .ok a => .ok a
  | .error h => .error (h.map f)

/-- An ordinary failure seen as one among the ways to stop. -/
def Halt.lift {ε α : Type} : Except ε α → Except (Halt ε) α
  | .ok a => .ok a
  | .error e => .error (error e)

/-!
## Errors

An actor reports an `ActorError`. Everything between composing operators and finishing a run reports
a `FlowError`; a runner wraps an actor's error with the label of the node that raised it, except
that a node whose actor has not been trained is an error of its own.

A composition error and a cyclic graph are faults of the definition, not of a run.
-/

/-- Why an actor refuses a call. -/
inductive ActorError
  | notTrained
  | notStateful
  | invalidInput (text : String)
  | arity (expected found : Nat)
  | state (text : String)
  | failed (text : String)
  deriving DecidableEq, Repr

/-- The wording of an actor's error. -/
def ActorError.message : ActorError → String
  | notTrained => "actor has not been trained"
  | notStateful => "actor is stateless"
  | invalidInput text => s!"invalid input: {text}"
  | arity expected found => s!"expected {expected} outputs, actor produced {found}"
  | state text => s!"state error: {text}"
  | failed text => text

/-- What a workflow's description may lack. -/
inductive Component
  | source
  | pipeline
  | evaluation
  deriving DecidableEq, Repr

/-- The name of a component. -/
def Component.name : Component → String
  | source => "source"
  | pipeline => "pipeline"
  | evaluation => "evaluation"

/-- Why a workflow cannot be composed, built or run. -/
inductive FlowError
  | composition (operator message : String)
  | cyclicGraph (nodes : List String)
  | notTrained (actor : String)
  | nodeExecution (node : String) (cause : ActorError)
  | incompleteDescriptor (component : Component)
  | unknownRunner (name : String)
  | state (text : String)
  | cancelled
  | internal (text : String)
  deriving DecidableEq, Repr

namespace FlowError

/-- The wording of an error. -/
def message : FlowError → String
  | composition operator text => s!"composition error in '{operator}': {text}"
  | cyclicGraph nodes => "cyclic graph: nodes [" ++ ", ".intercalate nodes ++ "] could not be ordered"
  | notTrained actor => s!"actor '{actor}' has not been trained"
  | nodeExecution node cause => s!"node '{node}' failed: {cause.message}"
  | incompleteDescriptor component => s!"descriptor has no {component.name} component"
  | unknownRunner name => s!"unknown runner '{name}'"
  | state text => s!"state error: {text}"
  | cancelled => "run cancelled"
  | internal text => s!"internal error: {text}"

/-- An actor's error, with the label of the node that raised it. -/
def ofActor (node : String) : ActorError → FlowError
  | .notTrained => notTrained node
  | cause => nodeExecution node cause

/-- Whether the definition is at fault, and not the run. -/
def isBuildTime : FlowError → Bool
  | composition _ _ => true
  | cyclicGraph _ => true
  | _ => false

end FlowError

end Dataflow
