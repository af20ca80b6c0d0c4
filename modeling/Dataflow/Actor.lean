import Dataflow.Payload

/-!
# Actors

What actors are, the actors every workflow uses, and how an object becomes one.
-/

set_option autoImplicit false
set_option relaxedAutoImplicit false

/-!
## What an actor does

An actor is described by a `Spec`: a name, an arity, whether it is stateful, and a `Behavior`. Any
number of instances can be made from one spec. An instance has a fit state of its own, of type `σ`;
instances may also share an environment. Applying an instance leaves its fit state alone. Training
and loading change it, and may do so even when they fail.

The environment records which sessions have been cancelled, in order, beside whatever `ε` the actors
keep in common. An actor may cancel a session while it runs, so a run that started earlier can see
it.
-/

namespace Dataflow

/-- Bytes of persisted state. -/
abbrev Bytes := List UInt8

/-- What all actors share: the numbers of the sessions cancelled so far, and their common state. -/
structure Environment (ε : Type) where
  cancelled : List Nat
  shared : ε

/-- Records that a session is cancelled. -/
def Environment.cancel {ε : Type} (env : Environment ε) (session : Nat) : Environment ε :=
  { env with cancelled := env.cancelled ++ [session] }

/-- How often a session has been cancelled. -/
def Environment.cancellations {ε : Type} (env : Environment ε) (session : Nat) : Nat :=
  env.cancelled.count session

/-- What an instance does with its fit state and the environment. -/
structure Behavior (ε σ : Type) where
  /-- The fit state of a new instance. -/
  fresh : σ
  apply : List Payload → σ → Environment ε → Except (Halt ActorError) Payload × Environment ε
  train : List Payload → Payload → σ → Environment ε →
    Except (Halt ActorError) Unit × σ × Environment ε
  /-- The persisted form of the fit state; `none` if there is none to persist. -/
  exportState : σ → Except ActorError (Option Bytes)
  loadState : Bytes → σ → Except ActorError Unit × σ

namespace Behavior

variable {ε σ τ : Type}

/-- A behaviour without fit state: it refuses training and loading and exports nothing. -/
def stateless [Inhabited σ]
    (apply : List Payload → Environment ε → Except (Halt ActorError) Payload × Environment ε) :
    Behavior ε σ where
  fresh := default
  apply inputs _ env := apply inputs env
  train _ _ s env := (.error (.error .notStateful), s, env)
  exportState _ := .ok none
  loadState _ s := (.error .notStateful, s)

/-- A stateless behaviour that does not use the environment either. -/
def pure [Inhabited σ] (apply : List Payload → Except (Halt ActorError) Payload) : Behavior ε σ :=
  stateless fun inputs env ↦ (apply inputs, env)

/-- A stateless behaviour given by a function that fails with a text. -/
def function [Inhabited σ] (apply : List Payload → Except (Halt String) Payload) : Behavior ε σ :=
  pure fun inputs ↦ Halt.mapError .failed (apply inputs)

/-- A behaviour over one kind of fit state, as a behaviour over a type that holds several. A state
of another kind counts as a fresh one. -/
def embed (b : Behavior ε τ) (inject : τ → σ) (project : σ → Option τ) : Behavior ε σ where
  fresh := inject b.fresh
  apply inputs s env := b.apply inputs ((project s).getD b.fresh) env
  train inputs label s env :=
    let (result, t, env) := b.train inputs label ((project s).getD b.fresh) env
    (result, inject t, env)
  exportState s := b.exportState ((project s).getD b.fresh)
  loadState bytes s :=
    let (result, t) := b.loadState bytes ((project s).getD b.fresh)
    (result, inject t)

end Behavior

/-- How many payloads a node or an actor takes and gives. -/
structure Arity where
  inputs : Nat
  outputs : Nat
  deriving DecidableEq, Repr

/-- A description from which instances of an actor are made. -/
structure Spec (ε σ : Type) where
  name : String
  behavior : Behavior ε σ
  stateful : Bool := false
  arity : Arity := ⟨1, 1⟩

/-- A spec as messages show it. -/
def Spec.shown {ε σ : Type} (spec : Spec ε σ) (quotedName : String) : String :=
  "ActorSpec \x7b name: " ++ quotedName ++ ", stateful: " ++ (if spec.stateful then "true" else "false") ++
    ", szin: " ++ toString spec.arity.inputs ++ ", szout: " ++ toString spec.arity.outputs ++ " \x7d"

/-!
## Reading the inputs of an actor

An actor that needs a frame or a column at some input says so: an input that is not there, or has
another form, is an invalid input.
-/

/-- The input at a position. -/
def inputAt (inputs : List Payload) (index : Nat) : Except ActorError Payload :=
  match inputs[index]? with
  | some payload => .ok payload
  | none => .error (.invalidInput s!"missing input {index}")

/-- The frame at an input. -/
def frameInput (inputs : List Payload) (index : Nat) : Except ActorError Frame := do
  let payload ← inputAt inputs index
  match payload.frame? with
  | some frame => return frame
  | none => throw (.invalidInput s!"input {index} is a {payload.kind}, expected a frame")

/-- The column at an input. -/
def columnInput (inputs : List Payload) (index : Nat) : Except ActorError (List Json) := do
  let payload ← inputAt inputs index
  match payload.column? with
  | some cells => return cells
  | none => throw (.invalidInput s!"input {index} is a {payload.kind}, expected a column")

end Dataflow

/-!
## The actors every workflow uses

`extract` separates the label column of a frame from its features, `strip` drops that column if it
is there, `concat` puts frames side by side, and `collector` hands on its input. They are the actors
a workflow places around its pipeline, and the one that joins parallel branches.
-/

namespace Dataflow.Builtin

/-- The features and the label column of the frame at input 0. -/
def extractLabel (label : String) (inputs : List Payload) : Except (Halt ActorError) Payload := do
  let frame ← Halt.lift (frameInput inputs 0)
  let invalid (e : FrameError) : ActorError := .invalidInput e.message
  match ← Halt.mapError invalid (frame.column? label) with
  | none => throw (.error (.invalidInput s!"frame has no label column '{label}'"))
  | some cells =>
    let features ← Halt.mapError invalid (frame.withoutColumn label)
    return .tuple [.frame features, .column cells]

/-- The frame at input 0 without its label column. -/
def stripLabel (label : String) (inputs : List Payload) : Except (Halt ActorError) Payload := do
  let frame ← Halt.lift (frameInput inputs 0)
  let features ← Halt.mapError (fun e ↦ .invalidInput e.message) (frame.withoutColumn label)
  return .frame features

/-- All inputs, which must be frames, side by side. -/
def concatFrames (inputs : List Payload) : Except ActorError Payload := do
  let frames ← (List.range inputs.length).mapM (frameInput inputs)
  match Frame.concat frames with
  | .ok frame => return .frame frame
  | .error e => throw (.invalidInput e.message)

/-- The first input. -/
def firstInput (inputs : List Payload) : Except ActorError Payload :=
  match inputs.head? with
  | some payload => .ok payload
  | none => .error (.invalidInput "collector received no input")

variable {ε σ : Type} [Inhabited σ]

/-- Splits a frame into features and label. -/
def extract (label : String) : Spec ε σ :=
  { name := "extract", behavior := .pure (extractLabel label), arity := ⟨1, 2⟩ }

/-- Drops the label column of a frame. -/
def strip (label : String) : Spec ε σ :=
  { name := "strip", behavior := .pure (stripLabel label) }

/-- Joins `width` frames. -/
def concat (width : Nat) : Spec ε σ :=
  { name := "concat"
    behavior := .pure fun inputs ↦ Halt.lift (concatFrames inputs)
    arity := ⟨width, 1⟩ }

/-- Hands on its input. -/
def collector : Spec ε σ :=
  { name := "collector", behavior := .pure fun inputs ↦ Halt.lift (firstInput inputs) }

end Dataflow.Builtin

/-!
## Objects as actors

An object of any type `τ` becomes an actor by mapping what an actor is asked to do onto the object:
apply always, and optionally train, export and load. An actor with a train mapping is stateful. It
refuses to be applied until a training or a load has succeeded, and the object it holds is exported
only from then on. Without a train mapping it refuses training and loading, and exports nothing.

A mapping that fails does so with a text.
-/

namespace Dataflow

variable {ε τ : Type}

/-- An object, and whether a training or a load of it has succeeded. -/
structure Wrapped (τ : Type) where
  inner : τ
  trained : Bool

/-- What an object is asked to do. -/
structure Mapping (ε τ : Type) where
  apply : List Payload → τ → Environment ε → Except (Halt String) Payload × Environment ε
  train : Option (List Payload → Payload → τ → Environment ε →
    Except (Halt String) Unit × τ × Environment ε)
  exportState : Option (τ → Except String Bytes)
  loadState : Option (Bytes → Except String τ)

namespace Mapping

/-- The behaviour of the actor that holds an object, which is `initial` in a new instance. -/
def behavior (m : Mapping ε τ) (initial : τ) : Behavior ε (Wrapped τ) where
  fresh := ⟨initial, false⟩
  apply inputs w env :=
    if m.train.isSome ∧ ¬ w.trained then (.error (.error .notTrained), env)
    else
      let (result, env) := m.apply inputs w.inner env
      (Halt.mapError .failed result, env)
  train inputs label w env :=
    match m.train with
    | none => (.error (.error .notStateful), w, env)
    | some train =>
      match train inputs label w.inner env with
      | (.ok (), inner, env) => (.ok (), ⟨inner, true⟩, env)
      | (.error h, inner, env) => (.error (h.map .failed), ⟨inner, w.trained⟩, env)
  exportState w :=
    match m.exportState with
    | some exportState =>
      if w.trained then
        match exportState w.inner with
        | .ok bytes => .ok (some bytes)
        | .error text => .error (.state text)
      else .ok none
    | none => .ok none
  loadState bytes w :=
    match m.train, m.loadState with
    | none, _ => (.error .notStateful, w)
    | some _, none => (.error (.state "actor does not support state loading"), w)
    | some _, some loadState =>
      match loadState bytes with
      | .ok inner => (.ok (), ⟨inner, true⟩)
      | .error text => (.error (.state text), w)

end Mapping

/-- A description of a wrapped object that may still lack its apply mapping. -/
structure WrappedDraft (ε τ : Type) where
  name : String
  initial : τ
  apply : Option (List Payload → τ → Environment ε →
    Except (Halt String) Payload × Environment ε) := none
  train : Option (List Payload → Payload → τ → Environment ε →
    Except (Halt String) Unit × τ × Environment ε) := none
  exportState : Option (τ → Except String Bytes) := none
  loadState : Option (Bytes → Except String τ) := none
  arity : Arity := ⟨1, 1⟩

/-- The spec of a wrapped object, stateful exactly if it has a train mapping; the apply mapping is
mandatory. -/
def WrappedDraft.spec (d : WrappedDraft ε τ) : Except FlowError (Spec ε (Wrapped τ)) :=
  match d.apply with
  | none => .error (.composition d.name "wrapped actor has no apply mapping")
  | some apply =>
    let mapping : Mapping ε τ := ⟨apply, d.train, d.exportState, d.loadState⟩
    .ok { name := d.name
          behavior := mapping.behavior d.initial
          stateful := d.train.isSome
          arity := d.arity }

end Dataflow
