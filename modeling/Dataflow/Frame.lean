import Dataflow.Error
import Dataflow.Json.Basic

/-!
# Frames

A frame is a table: a list of column names, which may repeat, and a list of rows of cells. A name
stands for the first column that bears it.

Frames made by `empty`, `ofRows` and the operations here are *rectangular*: every row has one cell
for each column. A frame read from outside need not be. An operation that reaches for a cell a row
does not have crashes, and the others do not look at the width of rows at all.
-/

set_option autoImplicit false
set_option relaxedAutoImplicit false

namespace Dataflow

/-- Column names and rows of cells. -/
structure Frame where
  columns : List String
  rows : List (List Json)
  deriving Inhabited

/-- Why an operation on frames is refused. -/
inductive FrameError
  | rowWidth (cells columns : Nat)
  | columnHeight (name : String) (values rows : Nat)
  | unequalHeights (first other : Nat)
  deriving DecidableEq, Repr

/-- The wording of a refusal. -/
def FrameError.message : FrameError → String
  | rowWidth cells columns => s!"row has {cells} cells but frame has {columns} columns"
  | columnHeight name values rows =>
    s!"column '{name}' has {values} values but frame has {rows} rows"
  | unequalHeights first other => s!"cannot concatenate frames of {first} and {other} rows"

namespace Frame

/-- Equality of names and cells. -/
instance : BEq Frame :=
  ⟨fun f g ↦ f.columns == g.columns && f.rows == g.rows⟩

/-- Every row has one cell for each column. -/
def IsRectangular (f : Frame) : Prop :=
  ∀ row ∈ f.rows, row.length = f.columns.length

instance (f : Frame) : Decidable f.IsRectangular :=
  inferInstanceAs (Decidable (∀ row ∈ f.rows, row.length = f.columns.length))

/-- The frame with these columns and no rows. -/
def empty (columns : List String) : Frame :=
  ⟨columns, []⟩

/-- The number of rows. -/
def height (f : Frame) : Nat :=
  f.rows.length

/-- The position of the first column of a name. -/
def columnIndex? (f : Frame) (name : String) : Option Nat :=
  f.columns.findIdx? (· == name)

/-! ### Rows -/

/-- Adds a row at the end; its width must be that of the frame. -/
def pushRow (f : Frame) (row : List Json) : Except FrameError Frame :=
  if row.length = f.columns.length then .ok { f with rows := f.rows ++ [row] }
  else .error (.rowWidth row.length f.columns.length)

/-- The frame with these columns and rows, each row checked. -/
def ofRows (columns : List String) (rows : List (List Json)) : Except FrameError Frame :=
  rows.foldlM pushRow (empty columns)

/-- The rows at the given positions, in the given order; positions past the end select nothing. -/
def takeRows (f : Frame) (positions : List Nat) : Frame :=
  { f with rows := positions.filterMap (f.rows[·]?) }

/-! ### Columns -/

/-- Reads one cell of every row; crashes at a row too short to have it. -/
def cellsAt (rows : List (List Json)) (index : Nat) : Except (Halt FrameError) (List Json) :=
  match rows.mapM (·[index]?) with
  | some cells => .ok cells
  | none => .error .crash

/-- The cells of the first column of a name, if there is one. -/
def column? (f : Frame) (name : String) : Except (Halt FrameError) (Option (List Json)) :=
  match f.columnIndex? name with
  | none => .ok none
  | some index => (cellsAt f.rows index).map some

/-- Writes one value into every row at a position; crashes at a row too short to have it. -/
def setCells (index : Nat) : List (List Json) → List Json → Except (Halt FrameError) (List (List Json))
  | row :: rows, value :: values =>
    if index < row.length then (setCells index rows values).map (row.set index value :: ·)
    else .error .crash
  | rows, _ => .ok rows

/-- Gives the first column of a name these cells, or adds such a column at the end. There must be
one value for each row. -/
def withColumn (f : Frame) (name : String) (values : List Json) : Except (Halt FrameError) Frame :=
  if values.length = f.rows.length then
    match f.columnIndex? name with
    | some index => (setCells index f.rows values).map fun rows ↦ { f with rows }
    | none =>
      .ok ⟨f.columns ++ [name], f.rows.zipWith (fun row value ↦ row ++ [value]) values⟩
  else .error (.error (.columnHeight name values.length f.rows.length))

/-- Removes one cell of every row; crashes at a row too short to have it. -/
def eraseCells (index : Nat) : List (List Json) → Except (Halt FrameError) (List (List Json))
  | [] => .ok []
  | row :: rows =>
    if index < row.length then (eraseCells index rows).map (row.eraseIdx index :: ·)
    else .error .crash

/-- Drops the first column of a name, if there is one. -/
def withoutColumn (f : Frame) (name : String) : Except (Halt FrameError) Frame :=
  match f.columnIndex? name with
  | none => .ok f
  | some index =>
    (eraseCells index f.rows).map fun rows ↦ ⟨f.columns.eraseIdx index, rows⟩

/-! ### Concatenation -/

/-- Frames of one height side by side. -/
def concat (frames : List Frame) : Except FrameError Frame :=
  let height := (frames.head?.map Frame.height).getD 0
  match frames.find? (·.height ≠ height) with
  | some other => .error (.unequalHeights height other.height)
  | none =>
    .ok ⟨frames.flatMap Frame.columns,
      (List.range height).map fun i ↦ frames.flatMap fun f ↦ f.rows.getD i []⟩

end Frame

end Dataflow

/-!
## Frames step by step

A frame can be changed where it is, and frames can be read row by row. Pushing a row checks its
width before anything is written, so a row that is refused leaves the frame as it was. Assembling
frames side by side first compares their heights one after another, up to the first that differs,
and then reads each row by its number from every frame; it crashes at a row that a frame does not
have.
-/

namespace Dataflow.Frame

/-- A change of a frame that may be refused; what was done before that stays done. -/
abbrev Edit (α : Type) : Type :=
  ExceptT FrameError (StateM Frame) α

/-- Makes a change; gives its outcome and the frame afterwards. -/
def Edit.run {α : Type} (edit : Edit α) (f : Frame) : Except FrameError α × Frame :=
  StateT.run (ExceptT.run edit) f

/-- Adds a row at the end of the frame at hand. -/
def push (row : List Json) : Edit Unit := do
  let f ← get
  if row.length ≠ f.columns.length then throw (.rowWidth row.length f.columns.length)
  set { f with rows := f.rows ++ [row] }

/-- The names of the columns of frames of one height, up to the first frame of another. -/
def namesAcross (height : Nat) : List Frame → Except (Halt FrameError) (List String)
  | [] => .ok []
  | f :: rest =>
    if f.height = height then (namesAcross height rest).map (f.columns ++ ·)
    else .error (.error (.unequalHeights height f.height))

/-- The row of a number from every frame, one after the other. -/
def rowAcross (number : Nat) : List Frame → Except (Halt FrameError) (List Json)
  | [] => .ok []
  | f :: rest =>
    match f.rows[number]? with
    | some row => (rowAcross number rest).map (row ++ ·)
    | none => .error .crash

/-- Frames of one height side by side, read row by row. -/
def assemble (frames : List Frame) : Except (Halt FrameError) Frame := do
  let height := (frames.head?.map Frame.height).getD 0
  let columns ← namesAcross height frames
  let rows ← (List.range height).mapM (rowAcross · frames)
  return ⟨columns, rows⟩

end Dataflow.Frame
