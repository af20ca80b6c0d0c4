import Dataflow.Actor

/-!
# Stock actors

A small set of ready-made actors to try workflows with, and what they keep.
-/

set_option autoImplicit false
set_option relaxedAutoImplicit false

/-!
## What stock actors keep

The stock actors are a small set of ready-made actors to try workflows with. Their fit state is one
of a few kinds, gathered in `Fit`. What they have in common is in `Shared`: which switches are on,
how often each probe was applied and trained, and how often the instances of each counting actor
were trained.
-/

namespace Dataflow.Stock

/-- How often each label occurs, by the key of the label. -/
structure Tally where
  classes : List String
  counts : List Nat
  deriving Inhabited, DecidableEq, Repr

/-- The fit state of a stock actor. -/
inductive Fit
  | stateless
  | offset (w : Wrapped Float)
  | tally (w : Wrapped Tally)
  | levels (w : Wrapped (List String))
  | number (w : Wrapped Float)

instance : Inhabited Fit := ⟨.stateless⟩

/-- Two numbers of calls. -/
structure Calls where
  applied : Nat := 0
  trained : Nat := 0
  deriving DecidableEq, Repr

/-- What stock actors have in common. -/
structure Shared where
  /-- The switches that are on. -/
  switches : List String := []
  /-- The calls of each probe that was called. -/
  probes : List (String × Calls) := []
  /-- The trainings of each counting actor, over all its instances. -/
  trainings : List (Nat × Nat) := []

namespace Shared

/-- Changes the value kept under a key, which is `none` if there is none yet. -/
def update {κ ν : Type} [DecidableEq κ] (key : κ) (f : Option ν → ν) : List (κ × ν) → List (κ × ν)
  | [] => [(key, f none)]
  | (k, v) :: rest => if key = k then (k, f (some v)) :: rest else (k, v) :: update key f rest

/-- Turns a switch on. -/
def turnOn (s : Shared) (switch : String) : Shared :=
  { s with switches := switch :: s.switches.filter (· ≠ switch) }

/-- Turns a switch off. -/
def turnOff (s : Shared) (switch : String) : Shared :=
  { s with switches := s.switches.filter (· ≠ switch) }

/-- Counts a call of a probe. -/
def count (s : Shared) (probe : String) (f : Calls → Calls) : Shared :=
  { s with probes := update probe (fun calls ↦ f (calls.getD {})) s.probes }

/-- Counts a training of a counting actor. -/
def countTraining (s : Shared) (actor : Nat) : Shared :=
  { s with trainings := update actor (fun n ↦ n.getD 0 + 1) s.trainings }

/-- How often a counting actor was trained. -/
def trainingsOf (s : Shared) (actor : Nat) : Nat :=
  (s.trainings.lookup actor).getD 0

end Shared

/-- The environment of stock actors. -/
abbrev Surroundings : Type :=
  Environment Shared

/-- The spec of a stock actor. -/
abbrev ActorSpec : Type :=
  Spec Shared Fit

/-- The inputs' first payload. -/
def firstInput (inputs : List Payload) : Except String Payload :=
  match inputs.head? with
  | some payload => .ok payload
  | none => .error "no input"

/-- The number at input 0. -/
def scalarInput (inputs : List Payload) : Except String Float := do
  match ← firstInput inputs with
  | .scalar x => return x
  | _ => throw "expected a scalar"

/-- The column of a name in a frame. -/
def namedColumn (frame : Frame) (name : String) : Except (Halt String) (List Json) := do
  match ← Halt.mapError FrameError.message (frame.column? name) with
  | some cells => return cells
  | none => throw (.error s!"no column '{name}'")

/-!
## Stock actors without fit state

Most are functions of their inputs that fail with a text. `tripwire` also looks at a switch,
`cancel` cancels a session, `probe` counts how often it is called and can be trained without
learning anything, and `raise` always fails in a given way.
-/

/-- The frame at input 0, its absence reported as a text. -/
def frameOrText (inputs : List Payload) : Except (Halt String) Frame :=
  Halt.mapError ActorError.message (Halt.lift (frameInput inputs 0))

/-! ### Functions -/

/-- Gives a payload without looking at its inputs. -/
def constant (name : String) (value : Payload) : ActorSpec :=
  { name, behavior := .function fun _ ↦ .ok value, arity := ⟨0, 1⟩ }

/-- Gives its first input. -/
def identity (name : String) : ActorSpec :=
  { name, behavior := .function fun inputs ↦ Halt.lift (firstInput inputs) }

/-- Adds an amount to the number at input 0. -/
def add (name : String) (amount : Float) : ActorSpec :=
  { name
    behavior := .function fun inputs ↦ do
      return .scalar ((← Halt.lift (scalarInput inputs)) + amount) }

/-- Adds all numbers among its inputs, left to right and from zero. -/
def sum (name : String) (width : Nat) : ActorSpec :=
  { name
    behavior := .function fun inputs ↦
      .ok (.scalar ((inputs.filterMap Payload.scalar?).foldl (· + ·) 0.0))
    arity := ⟨width, 1⟩ }

/-- Copies its first input to each of its outputs. -/
def fork (name : String) (width : Nat) : ActorSpec :=
  { name
    behavior := .function fun inputs ↦ do
      return .tuple (List.replicate width (← Halt.lift (firstInput inputs)))
    arity := ⟨1, width⟩ }

/-- Packs all its inputs into a tuple. -/
def pack (name : String) (width : Nat) : ActorSpec :=
  { name, behavior := .function fun inputs ↦ .ok (.tuple inputs), arity := ⟨width, 1⟩ }

/-- Always fails with a text. -/
def fail (name : String) (text : String) : ActorSpec :=
  { name, behavior := .function fun _ ↦ .error (.error text) }

/-- Counts the rows of a frame. -/
def size (name : String) : ActorSpec :=
  { name
    behavior := .function fun inputs ↦ do
      return .scalar (Float.ofNat (← frameOrText inputs).height) }

/-- Gives one column of a frame. -/
def col (name column : String) : ActorSpec :=
  { name
    behavior := .function fun inputs ↦ do
      return .column (← namedColumn (← frameOrText inputs) column) }

/-- Writes one cell into a column of every row. -/
def set (name column : String) (value : Json) : ActorSpec :=
  { name
    behavior := .function fun inputs ↦ do
      let frame ← frameOrText inputs
      let values := List.replicate frame.height value
      return .frame (← Halt.mapError FrameError.message (frame.withColumn column values)) }

/-! ### Actors with an effect -/

/-- Gives its first input, but fails while a switch is on. -/
def tripwire (name switch : String) : ActorSpec :=
  { name
    behavior := .stateless fun inputs (env : Surroundings) ↦
      let result :=
        if env.shared.switches.contains switch then .error "tripped" else firstInput inputs
      (Halt.mapError .failed (Halt.lift result), env) }

/-- Cancels a session, if there is one to cancel, and gives its first input. -/
def cancel (name : String) (session : Option Nat) : ActorSpec :=
  { name
    behavior := .stateless fun inputs (env : Surroundings) ↦
      let env :=
        match session with
        | some session => env.cancel session
        | none => env
      (Halt.mapError .failed (Halt.lift (firstInput inputs)), env) }

/-- Gives its first input or the unit, and counts its calls. -/
def probe (name : String) : ActorSpec :=
  { name
    behavior :=
      { fresh := default
        apply := fun inputs _ (env : Surroundings) ↦
          let shared := env.shared.count name fun c ↦ { c with applied := c.applied + 1 }
          (.ok (inputs.head?.getD .unit), { env with shared })
        train := fun _ _ s (env : Surroundings) ↦
          let shared := env.shared.count name fun c ↦ { c with trained := c.trained + 1 }
          (.ok (), s, { env with shared })
        exportState := fun _ ↦ .ok none
        loadState := fun _ s ↦ (.error .notStateful, s) } }

/-- Always fails with the given error. -/
def raise (name : String) (e : ActorError) : ActorSpec :=
  { name, behavior := .pure fun _ ↦ .error (.error e) }

/-- Gives the frame at an input. -/
def pickFrame (name : String) (index : Nat) : ActorSpec :=
  { name, behavior := .pure fun inputs ↦ Halt.lift (.frame <$> frameInput inputs index) }

/-- Gives the column at an input. -/
def pickColumn (name : String) (index : Nat) : ActorSpec :=
  { name, behavior := .pure fun inputs ↦ Halt.lift (.column <$> columnInput inputs index) }

end Dataflow.Stock
