import Dataflow.Graph.Ledger

/-!
# Operator expressions

An operator expression says how actors are composed into a pipeline. It holds no nodes: `compose`
puts the nodes it stands for onto a track and gives the track that what follows attaches to. Which
nodes these are depends on the shape of the builder's context.

* A *mapper* applies its actor. If the actor is stateful, the train shape first trains it on the same
  inputs and the label.
* A *consumer* needs a stateful actor. The train shape trains it and passes the track on; the apply
  shape applies it.
* A *sequence* puts the second part onto the track of the first.
* *Parallel* branches start from the same track, and their outputs stand side by side.

Every mapper and consumer takes the next group, so both shapes number the same leaves alike.

An `Operator` is an expression with an identity. Expanding an operator again, in the same context
and on the same track, gives the track of the first expansion and adds nothing. Expressions inside
an expression have no identity: each occurrence is expanded anew.
-/

set_option autoImplicit false
set_option relaxedAutoImplicit false

namespace Dataflow

variable {ε σ : Type}

/-- How actors are composed. -/
inductive Expression (ε σ : Type)
  | mapper (spec : Spec ε σ)
  | consumer (spec : Spec ε σ)
  | sequence (first second : Expression ε σ)
  | parallel (branches : List (Expression ε σ))

/-- An expression with an identity. -/
structure Operator (ε σ : Type) where
  id : Nat
  expression : Expression ε σ

namespace Expression

/-- Parallel branches whose frames are joined side by side. -/
def merged [Inhabited σ] (branches : List (Expression ε σ)) : Expression ε σ :=
  .sequence (.parallel branches) (.mapper (Builtin.concat branches.length))

mutual

/-- The name of an expression, made from the names of its actors. -/
def name : Expression ε σ → String
  | mapper spec => spec.name
  | consumer spec => spec.name
  | sequence first second => name first ++ " >> " ++ name second
  | parallel branches => "[" ++ ", ".intercalate (names branches) ++ "]"

/-- The names of branches. -/
def names : List (Expression ε σ) → List String
  | [] => []
  | branch :: rest => name branch :: names rest

end

/-! ### Composition -/

/-- Adds a trainer for a group on a track that has a label. -/
def addTrainer (spec : Spec ε σ) (group : GroupId) (left : Track) : Build ε σ Unit := do
  let label ← Build.check (left.requireLabel spec.name)
  let trainer ← Build.addNode .trainer spec (some group)
  Build.connectAll left.ports trainer
  Build.connect label trainer spec.arity.inputs

/-- Adds an applier for a group and moves the track to its outputs. -/
def addApplier (spec : Spec ε σ) (group : GroupId) (left : Track) : Build ε σ Track := do
  let applier ← Build.addNode .applier spec (some group)
  Build.connectAll left.ports applier
  return left.rebased applier spec.arity.outputs

/-- Composes a mapper. -/
def composeMapper (spec : Spec ε σ) (left : Track) : Build ε σ Track := do
  Build.check (left.expectWidth spec.name spec.arity.inputs)
  let group ← Build.allocateGroup spec
  if (← get).context.shape = .train ∧ spec.stateful then
    addTrainer spec group left
  addApplier spec group left

/-- Composes a consumer. -/
def composeConsumer (spec : Spec ε σ) (left : Track) : Build ε σ Track := do
  if ¬ spec.stateful then
    throw (.composition spec.name "a consumer requires a stateful actor")
  Build.check (left.expectWidth spec.name spec.arity.inputs)
  let group ← Build.allocateGroup spec
  match (← get).context.shape with
  | .train =>
    addTrainer spec group left
    return left
  | .apply => addApplier spec group left

mutual

/-- Adds the nodes of an expression to a builder and moves the track past them. -/
def compose : Expression ε σ → Track → Build ε σ Track
  | mapper spec, left => composeMapper spec left
  | consumer spec, left => composeConsumer spec left
  | sequence first second, left => do
    let middle ← compose first left
    compose second middle
  | parallel branches, left => do
    if branches.isEmpty then throw (.composition "parallel" "no branches given")
    let ports ← composeBranches branches left
    return ⟨ports, left.label⟩

/-- Composes branches onto one track and gives all their output ports, in order. -/
def composeBranches : List (Expression ε σ) → Track → Build ε σ (List PortRef)
  | [], _ => return []
  | branch :: rest, left => do
    let track ← compose branch left
    let ports ← composeBranches rest left
    return track.ports ++ ports

end

end Expression

/-- Expands an operator, or finds its earlier expansion in the same context on the same track. -/
def Operator.expand (operator : Operator ε σ) (left : Track) : Build ε σ Track := do
  let key : ExpansionKey := ⟨operator.id, (← get).context, left⟩
  match (← get).memo.lookup key with
  | some track => return track
  | none =>
    let track ← operator.expression.compose left
    modify fun b ↦ { b with memo := (key, track) :: b.memo }
    return track

end Dataflow

/-!
## Expressions as scripts

To a builder that keeps books an expression is an operator like any other: composing it is a script,
and its parts are expanded as operators of their own, with identities of their own. Since these
expansions are nested in that of the whole, they are never found again.
-/

namespace Dataflow

variable {ε σ α : Type}

namespace Script

/-- Goes on with another script, unless there is a failure. -/
protected def bind {α β : Type} :
    Script ε σ α → (α → Script ε σ β) → Script ε σ β
  | done (.ok a), then' => then' a
  | done (.error e), _ => done (.error e)
  | look next, then' => look fun b ↦ (next b).bind then'
  | call operation next, then' => call operation fun r ↦ (next r).bind then'
  | expand operator compose left next, then' =>
    expand operator compose left fun r ↦ (next r).bind then'
  | inContext context body next, then' => inContext context body fun r ↦ (next r).bind then'

instance : Monad (Script ε σ) where
  pure a := done (.ok a)
  bind := Script.bind

/-- A single operation. -/
def perform (operation : Operation ε σ α) : Script ε σ α :=
  call operation done

end Script

namespace Expression

/-- Adds a trainer for a group on a track that has a label. -/
def scriptTrainer (spec : Spec ε σ) (group : GroupId) (left : Track) : Script ε σ Unit := do
  let label ← .done (left.requireLabel spec.name)
  let trainer ← .perform (.addNode .trainer spec (some group))
  .perform (.connectAll left.ports trainer)
  .perform (.connect label trainer spec.arity.inputs)

/-- Adds an applier for a group and moves the track to its outputs. -/
def scriptApplier (spec : Spec ε σ) (group : GroupId) (left : Track) : Script ε σ Track := do
  let applier ← .perform (.addNode .applier spec (some group))
  .perform (.connectAll left.ports applier)
  return left.rebased applier spec.arity.outputs

/-- Composes a mapper. -/
def scriptMapper (spec : Spec ε σ) (left : Track) : Script ε σ Track := do
  .done (left.expectWidth spec.name spec.arity.inputs)
  let group ← .perform (.allocateGroup spec)
  .look fun b ↦
    if b.context.shape = .train ∧ spec.stateful then do
      scriptTrainer spec group left
      scriptApplier spec group left
    else scriptApplier spec group left

/-- Composes a consumer. -/
def scriptConsumer (spec : Spec ε σ) (left : Track) : Script ε σ Track :=
  if ¬ spec.stateful then
    .done (.error (.composition spec.name "a consumer requires a stateful actor"))
  else do
    .done (left.expectWidth spec.name spec.arity.inputs)
    let group ← .perform (.allocateGroup spec)
    .look fun b ↦
      match b.context.shape with
      | .train => do
        scriptTrainer spec group left
        return left
      | .apply => scriptApplier spec group left

mutual

/-- Composes an expression, of which the parts are expanded under the identities they are given. -/
def script (identity : Expression ε σ → Nat) : Expression ε σ → Track → Script ε σ Track
  | mapper spec, left => scriptMapper spec left
  | consumer spec, left => scriptConsumer spec left
  | sequence first second, left => do
    let middle ← .expand (identity first) (script identity first) left .done
    .expand (identity second) (script identity second) middle .done
  | parallel branches, left =>
    if branches.isEmpty then .done (.error (.composition "parallel" "no branches given"))
    else do
      let ports ← scriptBranches identity branches left
      return ⟨ports, left.label⟩

/-- Expands branches onto one track and gives all their output ports, in order. -/
def scriptBranches (identity : Expression ε σ → Nat) :
    List (Expression ε σ) → Track → Script ε σ (List PortRef)
  | [], _ => return []
  | branch :: rest, left => do
    let track ← .expand (identity branch) (script identity branch) left .done
    let ports ← scriptBranches identity rest left
    return track.ports ++ ports

end

end Expression

end Dataflow
