import Dataflow.Evaluation
import Dataflow.Json.Record
import Dataflow.Stock.Plain

/-!
# Stock actors that are fitted

Each is a wrapped object:

* the *mean offset* learns the mean of the numbers in the label and adds it to a number;
* the *prior* learns how often each label occurs and predicts these shares for every row;
* the *levels* of a column are its distinct values, and each cell is replaced by the position of its
  value among them;
* the *fit number* counts the trainings of all instances of its spec, and gives what it was at the last
  training of this instance.

Fit state is persisted as the JSON of the object, as that JSON behind a mark, not at all, or refuses
to be persisted. A mapping may also be left out.
-/

set_option autoImplicit false
set_option relaxedAutoImplicit false

namespace Dataflow.Stock

open Json.Record (record number count text listOf need refuse)

/-- How fit state is persisted. -/
inductive Persistence
  /-- As JSON. -/
  | document
  /-- As JSON behind the mark. -/
  | marked
  /-- Not at all. -/
  | absent
  /-- Exporting and loading fail. -/
  | refused
  deriving DecidableEq, Repr

/-- The mark in front of marked state. -/
def mark : List Char := ['v', '1', ':']

/-- An object that can be fitted. -/
structure Estimator (τ : Type) where
  initial : τ
  apply : List Payload → τ → Except (Halt String) Payload
  train : List Payload → Payload → τ → Surroundings →
    Except (Halt String) Unit × τ × Surroundings
  toJson : τ → Json
  /-- Reads an object from its JSON. -/
  document : Json.Record.Step τ

/-- How an estimator is made into an actor. -/
structure Options where
  name : String
  withApply : Bool := true
  withTrain : Bool := true
  persistence : Persistence := .document
  arity : Arity := ⟨1, 1⟩

namespace Estimator

variable {τ : Type}

/-- The bytes of a text. -/
def bytesOf (s : String) : Bytes :=
  s.toUTF8.toList

/-- The text that bytes hold. -/
def textOf? (bytes : Bytes) : Option String :=
  String.fromUTF8? ⟨bytes.toArray⟩

/-- Reads an object from the octets of its JSON. -/
def read (e : Estimator τ) (bytes : Bytes) : Except String τ :=
  (Json.Record.read e.document (Json.Form.ofBytes bytes)).mapError Json.Fault.message

/-- The mapping that exports an object. -/
def export? (e : Estimator τ) : Persistence → Option (τ → Except String Bytes)
  | .document => some fun object ↦ .ok (bytesOf (e.toJson object).compact)
  | .marked => some fun object ↦ .ok (bytesOf (String.ofList mark ++ (e.toJson object).compact))
  | .absent => none
  | .refused => some fun _ ↦ .error "cannot export"

/-- The mapping that loads an object. -/
def load? (e : Estimator τ) : Persistence → Option (Bytes → Except String τ)
  | .document => some e.read
  | .marked => some fun bytes ↦
    let marked := bytesOf (String.ofList mark)
    if marked.isPrefixOf bytes then e.read (bytes.drop marked.length)
    else .error "bad state prefix"
  | .absent => none
  | .refused => some fun _ ↦ .error "cannot load"

/-- The actor of an estimator, its fit state being one of those of stock actors. -/
def spec (e : Estimator τ) (options : Options) (inject : Wrapped τ → Fit)
    (project : Fit → Option (Wrapped τ)) : Except FlowError ActorSpec := do
  let apply (inputs : List Payload) (object : τ) (env : Surroundings) :=
    (e.apply inputs object, env)
  let draft : WrappedDraft Shared τ :=
    { name := options.name
      initial := e.initial
      apply := if options.withApply then some apply else none
      train := if options.withTrain then some e.train else none
      exportState := e.export? options.persistence
      loadState := e.load? options.persistence
      arity := options.arity }
  let wrapped ← draft.spec
  return { wrapped with behavior := wrapped.behavior.embed inject project }

end Estimator

/-! ### The mean offset -/

/-- The numbers of a label. -/
def labelNumbers : Payload → Except String (List Float)
  | .scalar x => .ok [x]
  | .column cells => .ok (cells.filterMap Json.number?)
  | other => .error s!"label is a {other.kind}"

/-- The mean of numbers, added from left to right; zero if there are none. -/
def mean (xs : List Float) : Float :=
  xs.foldl (· + ·) 0.0 / Float.ofNat (max xs.length 1)

/-- Learns the mean of the label and adds it to a number. -/
def meanOffset : Estimator Float where
  initial := 0.0
  apply inputs offset := do return .scalar ((← Halt.lift (scalarInput inputs)) + offset)
  train _ label offset env :=
    match labelNumbers label with
    | .ok xs => (.ok (), mean xs, env)
    | .error text => (.error (.error text), offset, env)
  toJson offset := .object [("mean", .ofFloat offset)]
  document := do
    let [offset] ← record [("mean", number)] | refuse
    need offset.number?

/-! ### The prior -/

/-- Counts one more occurrence of a key in a list sorted by key. -/
def countKey (key : String) : List (String × Nat) → List (String × Nat)
  | [] => [(key, 1)]
  | (k, n) :: rest =>
    if key < k then (key, 1) :: (k, n) :: rest
    else if key = k then (k, n + 1) :: rest
    else (k, n) :: countKey key rest

/-- How often each key occurs in a column, sorted by key. -/
def countKeys (cells : List Json) : List (String × Nat) :=
  cells.foldl (fun counted cell ↦ countKey cell.key counted) []

/-- Each count as a share of all. -/
def shares (counts : List Nat) : List Float :=
  counts.map fun n ↦ Float.ofNat n / Float.ofNat (counts.foldl Nat.add 0)

/-- Learns how often each label occurs and predicts these shares for every row. -/
def prior : Estimator Tally where
  initial := ⟨[], []⟩
  apply inputs tally := do
    let frame ← frameOrText inputs
    let rows := List.replicate frame.height (shares tally.counts)
    let predicted := probabilityFrame tally.classes rows
    return .frame (← Halt.mapError FrameError.message (Halt.lift predicted))
  train _ label tally env :=
    match label.column? with
    | some cells =>
      let counted := countKeys cells
      (.ok (), ⟨counted.map (·.1), counted.map (·.2)⟩, env)
    | none => (.error (.error "label must be a column"), tally, env)
  toJson tally :=
    .object [("classes", .list (tally.classes.map .text)),
      ("counts", .list (tally.counts.map fun n ↦ .int (Int.ofNat n)))]
  document := do
    let [classes, counts] ← record [("classes", listOf text), ("counts", listOf count)] | refuse
    return ⟨← need classes.texts?, ← need ((← need counts.items?).mapM Json.natural?)⟩

/-! ### The levels of a column -/

/-- The position of a cell's key among levels, or minus one. -/
def levelOf (levels : List String) (cell : Json) : Json :=
  match levels.findIdx? (· == cell.key) with
  | some index => .int index
  | none => .int (-1)

/-- Learns the distinct values of a column and replaces each cell by the position of its value. -/
def levels (column : String) : Estimator (List String) where
  initial := []
  apply inputs known := do
    let frame ← frameOrText inputs
    let cells ← namedColumn frame column
    let coded := cells.map (levelOf known)
    return .frame (← Halt.mapError FrameError.message (frame.withColumn column coded))
  train inputs _ known env :=
    let learned : Except (Halt String) (List String) := do
      let cells ← namedColumn (← frameOrText inputs) column
      return (countKeys cells).map (·.1)
    match learned with
    | .ok found => (.ok (), found, env)
    | .error h => (.error h, known, env)
  toJson known := .object [("values", .list (known.map .text))]
  document := do
    let [values] ← record [("values", listOf text)] | refuse
    need values.texts?

/-! ### The fit number -/

/-- Counts the trainings of all instances of the counting actor of a number. -/
def fitNumber (actor : Nat) : Estimator Float where
  initial := 0.0
  apply _ number := .ok (.scalar number)
  train _ _ _ env :=
    let shared := env.shared.countTraining actor
    (.ok (), Float.ofNat (shared.trainingsOf actor), { env with shared })
  toJson number := .ofFloat number
  document := do need (← number).number?

/-! ### The actors -/

/-- The actor that learns a mean offset. -/
def meanOffsetSpec (options : Options) : Except FlowError ActorSpec :=
  meanOffset.spec options .offset fun
    | .offset w => some w
    | _ => none

/-- The actor that learns a prior. -/
def priorSpec (options : Options) : Except FlowError ActorSpec :=
  prior.spec options .tally fun
    | .tally w => some w
    | _ => none

/-- The actor that learns the levels of a column. -/
def levelsSpec (column : String) (options : Options) : Except FlowError ActorSpec :=
  (levels column).spec options .levels fun
    | .levels w => some w
    | _ => none

/-- The actor that counts its trainings. -/
def fitNumberSpec (actor : Nat) (options : Options) : Except FlowError ActorSpec :=
  (fitNumber actor).spec options .number fun
    | .number w => some w
    | _ => none

end Dataflow.Stock
