import Dataflow.Frame
import Dataflow.Text.Quoted

/-!
# Payloads

A payload is what one output port of a node produces and its successors consume: a frame, a column
of cells, a number, a tuple of payloads, or nothing.
-/

set_option autoImplicit false
set_option relaxedAutoImplicit false

namespace Dataflow

/-- A value passed along an edge of a graph. -/
inductive Payload
  | frame (f : Frame)
  | column (cells : List Json)
  | scalar (x : Float)
  | tuple (parts : List Payload)
  | unit
  deriving Inhabited

namespace Payload

mutual

/-- Equality of payloads, numbers compared as floats. -/
def beq : Payload → Payload → Bool
  | frame f, frame g => f == g
  | column a, column b => a == b
  | scalar x, scalar y => x == y
  | tuple a, tuple b => beqParts a b
  | unit, unit => true
  | _, _ => false

/-- Equality of lists of payloads. -/
def beqParts : List Payload → List Payload → Bool
  | [], [] => true
  | a :: as, b :: bs => beq a b && beqParts as bs
  | _, _ => false

end

instance : BEq Payload := ⟨beq⟩

/-- The frame a payload is. -/
def frame? : Payload → Option Frame
  | frame f => some f
  | _ => none

/-- The column a payload is. -/
def column? : Payload → Option (List Json)
  | column cells => some cells
  | _ => none

/-- The number a payload is. -/
def scalar? : Payload → Option Float
  | scalar x => some x
  | _ => none

/-- The name of a payload's form, as messages use it. -/
def kind : Payload → String
  | frame _ => "frame"
  | column _ => "column"
  | scalar _ => "scalar"
  | tuple _ => "tuple"
  | unit => "unit"

end Payload

/-!
## Payloads shown in messages

A message that compares two payloads names every constructor: `Scalar(3.0)`, `Tuple([Unit])`,
`Column([Number(1), String("a"), Null])`. A number inside a cell is written as in JSON, the number
of a scalar payload as in messages.
-/

/-- Items in brackets, separated by a comma and a space. -/
def Text.bracketed (items : List String) : String :=
  "[" ++ ", ".intercalate items ++ "]"

mutual

/-- A cell as messages show it. -/
def Json.shown : Json → String
  | .null => "Null"
  | .bool b => "Bool(" ++ (if b then "true" else "false") ++ ")"
  | .int n => "Number(" ++ toString n ++ ")"
  | .float x => "Number(" ++ Json.floatText x ++ ")"
  | .text s => "String(" ++ Text.shown s ++ ")"
  | .list items => "Array " ++ Text.bracketed (shownItems items)
  | .object members => "Object \x7b" ++ ", ".intercalate (shownMembers members) ++ "\x7d"

/-- The items of a list as messages show them. -/
def Json.shownItems : List Json → List String
  | [] => []
  | item :: rest => item.shown :: shownItems rest

/-- The members of an object as messages show them. -/
def Json.shownMembers : List (String × Json) → List String
  | [] => []
  | (key, value) :: rest => (Text.shown key ++ ": " ++ value.shown) :: shownMembers rest

end

/-- A frame as messages show it. -/
def Frame.shown (f : Frame) : String :=
  "Frame \x7b columns: " ++ Text.bracketed (f.columns.map Text.shown) ++
    ", rows: " ++ Text.bracketed (f.rows.map fun row ↦ Text.bracketed (row.map Json.shown)) ++ " \x7d"

mutual

/-- A payload as messages show it. -/
def Payload.shown : Payload → String
  | .frame f => "Frame(" ++ f.shown ++ ")"
  | .column cells => "Column(" ++ Text.bracketed (cells.map Json.shown) ++ ")"
  | .scalar x => "Scalar(" ++ Decimal.debug x ++ ")"
  | .tuple parts => "Tuple(" ++ Text.bracketed (shownParts parts) ++ ")"
  | .unit => "Unit"

/-- The parts of a tuple as messages show them. -/
def Payload.shownParts : List Payload → List String
  | [] => []
  | part :: rest => part.shown :: shownParts rest

end

/-!
## Payloads as JSON

A payload is written as an object with its form under `kind` and, except for the unit, its content
under `data`. A number that is not finite has no JSON number: it is written `null`, and `null` is
not read as a number.

Reading is lenient in the order of members, in members it does not know, and in taking an integer
for a number. An object may also be given as the list of its members' values, in order: `[kind,
data]` for a payload and `[columns, rows]` for a frame. The widths of rows are not compared with the
columns. Inside the content of an object a form may be stated in a few more ways.
-/

/-! ### Writing -/

/-- A frame as an object. -/
def Frame.toJson (f : Frame) : Json :=
  .object [("columns", .list (f.columns.map .text)), ("rows", .list (f.rows.map .list))]

namespace Payload

/-- The object of a form and its content. -/
def tagged (kind : String) (data : Json) : Json :=
  .object [("data", data), ("kind", .text kind)]

mutual

/-- A payload as an object. -/
def toJson : Payload → Json
  | frame f => tagged "frame" f.toJson
  | column cells => tagged "column" (.list cells)
  | scalar x => tagged "scalar" (.ofFloat x)
  | tuple parts => tagged "tuple" (.list (partsToJson parts))
  | unit => .object [("kind", .text "unit")]

/-- The parts of a tuple as JSON. -/
def partsToJson : List Payload → List Json
  | [] => []
  | part :: rest => toJson part :: partsToJson rest

end

end Payload

/-! ### Reading -/

/-- Reads a frame. -/
def Frame.ofJson? (j : Json) : Option Frame := do
  let (columns, rows) ←
    match j with
    | .object _ => do some ((← j.member? "columns"), (← j.member? "rows"))
    | .list [columns, rows] => some (columns, rows)
    | _ => none
  return ⟨← columns.texts?, ← (← rows.items?).mapM Json.items?⟩

namespace Payload

/-- The forms, in the order of their numbers. -/
def kinds : List String :=
  ["frame", "column", "scalar", "tuple", "unit"]

/-- The form that an object states: its name, or an object whose one member is the name with nothing
to it. Inside the content of another object, an empty object counts as nothing too. -/
def statedKind? (nested : Bool) : Json → Option String
  | .text kind => some kind
  | .object [(kind, .null)] => some kind
  | .object [(kind, .object [])] => if nested then some kind else none
  | _ => none

/-- The form that a list states: its name, or, inside the content of an object, its number. -/
def listedKind? (nested : Bool) : Json → Option String
  | .text kind => some kind
  | .int n => if nested ∧ 0 ≤ n then kinds[n.toNat]? else none
  | _ => none

/-- The form of a payload, its content if there is one, and whether that lies inside an object. -/
def parts? (nested : Bool) : Json → Option (String × Option Json × Bool)
  | j@(.object _) => do
    let kind ← statedKind? nested (← j.member? "kind")
    return (kind, j.member? "data", true)
  | .list [kind, data] => return (← listedKind? nested kind, some data, nested)
  | _ => none

/-- Reads a payload in which tuples nest less than `fuel` deep. -/
def read? (nested : Bool) : Nat → Json → Option Payload
  | 0, _ => none
  | fuel + 1, j => do
    match ← parts? nested j with
    | ("frame", some data, _) => frame <$> Frame.ofJson? data
    | ("column", some data, _) => column <$> data.items?
    | ("scalar", some data, _) => scalar <$> data.number?
    | ("tuple", some data, nested) => do
      return tuple (← (← data.items?).mapM (read? nested fuel))
    | ("unit", none, _) => some unit
    | ("unit", some .null, _) => some unit
    | _ => none

end Payload

mutual

/-- How deep lists and objects nest in a value. -/
def Json.depth : Json → Nat
  | .list items => depthItems items + 1
  | .object members => depthMembers members + 1
  | _ => 0

/-- The greatest depth of an item. -/
def Json.depthItems : List Json → Nat
  | [] => 0
  | item :: rest => max item.depth (depthItems rest)

/-- The greatest depth of a member's value. -/
def Json.depthMembers : List (String × Json) → Nat
  | [] => 0
  | (_, value) :: rest => max value.depth (depthMembers rest)

end

/-- Reads a payload. Each tuple is at least one level of the document, so the depth of the document
bounds the nesting. -/
def Payload.ofJson? (j : Json) : Option Payload :=
  read? false (j.depth + 1) j

end Dataflow
