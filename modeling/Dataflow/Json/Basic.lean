import Dataflow.Decimal

/-!
# Cells and documents

`Json` is the one dynamic value of the library: a cell of a table, a label, and the document that
persisted state and configuration are read from. Whole numbers and floating-point numbers are
different values, so `int 1` and `float 1.0` are unequal; two floats are compared as numbers, so
`float 0.0` and `float (-0.0)` are equal.

A document keeps its members as they were written, in order and with repetitions. `canonical` is the
form in which values are compared and shown: members sorted by key, and of two members with one key
the later one.
-/

set_option autoImplicit false
set_option relaxedAutoImplicit false

namespace Dataflow

/-- A null, a truth value, a number, a text, a list or an object. -/
inductive Json
  | null
  | bool (b : Bool)
  | int (n : Int)
  | float (x : Float)
  | text (s : String)
  | list (items : List Json)
  | object (members : List (String × Json))
  deriving Inhabited

namespace Json

/-! ### Equality -/

mutual

/-- Equality of values, floats compared as numbers. -/
def beq : Json → Json → Bool
  | null, null => true
  | bool a, bool b => a == b
  | int a, int b => a == b
  | float a, float b => a == b
  | text a, text b => a == b
  | list a, list b => beqItems a b
  | object a, object b => beqMembers a b
  | _, _ => false

/-- Equality of lists of values. -/
def beqItems : List Json → List Json → Bool
  | [], [] => true
  | a :: as, b :: bs => beq a b && beqItems as bs
  | _, _ => false

/-- Equality of member lists, in order. -/
def beqMembers : List (String × Json) → List (String × Json) → Bool
  | [], [] => true
  | (k, a) :: as, (l, b) :: bs => k == l && beq a b && beqMembers as bs
  | _, _ => false

end

instance : BEq Json := ⟨beq⟩

/-! ### Parts -/

/-- The value of a number as a float; nothing for any other value. -/
def number? : Json → Option Float
  | int n => some (Float.ofInt n)
  | float x => some x
  | _ => none

/-- A float as a value: itself, or `null` if it is not finite. -/
def ofFloat (x : Float) : Json :=
  if x.isFinite then float x else null

/-- The truth value a value is. -/
def bool? : Json → Option Bool
  | bool b => some b
  | _ => none

/-- The whole number a value is, if it is not negative. -/
def natural? : Json → Option Nat
  | int n => if 0 ≤ n then some n.toNat else none
  | _ => none

/-- The text a value is. -/
def text? : Json → Option String
  | text s => some s
  | _ => none

/-- The members of an object. -/
def members? : Json → Option (List (String × Json))
  | object members => some members
  | _ => none

/-- The items of a list. -/
def items? : Json → Option (List Json)
  | list items => some items
  | _ => none

/-- The texts of a list of texts. -/
def texts? (j : Json) : Option (List String) := do
  (← j.items?).mapM text?

/-- The name of a choice: a text, or an object whose one member is the name with nothing to it. -/
def choice? : Json → Option String
  | text s => some s
  | object [(s, null)] => some s
  | _ => none

/-- The last member under `key` of an object. -/
def member? (key : String) : Json → Option Json
  | object members => (members.reverse.find? (·.1 == key)).map (·.2)
  | _ => none

/-- The values of the fields of a record, in the order of their names: each is a member that occurs
exactly once, and members of other names do not count. The list of the values stands for the record
as well. -/
def fields? (names : List String) : Json → Option (List Json)
  | object members =>
    names.mapM fun name ↦
      match members.filter (·.1 == name) with
      | [(_, value)] => some value
      | _ => none
  | list items => if items.length = names.length then some items else none
  | _ => none

/-! ### Canonical form -/

/-- Puts a member into a list sorted by key, in place of one with the same key. -/
def putMember (key : String) (value : Json) : List (String × Json) → List (String × Json)
  | [] => [(key, value)]
  | (k, v) :: rest =>
    if key < k then (key, value) :: (k, v) :: rest
    else if key == k then (key, value) :: rest
    else (k, v) :: putMember key value rest

mutual

/-- The value with the members of every object sorted by key, the last of a key kept. -/
def canonical : Json → Json
  | list items => list (canonicalItems items)
  | object members => object (canonicalMembers members [])
  | value => value

/-- The canonical form of each item. -/
def canonicalItems : List Json → List Json
  | [] => []
  | item :: rest => canonical item :: canonicalItems rest

/-- Adds members, in order, to a sorted list. -/
def canonicalMembers : List (String × Json) → List (String × Json) → List (String × Json)
  | [], sorted => sorted
  | (key, value) :: rest, sorted =>
    canonicalMembers rest (putMember key (canonical value) sorted)

end

end Json

end Dataflow

/-!
## Compact JSON text

`Json.compact` writes a value without insignificant spaces, members in the order they are kept. In a
text the quote and the backslash are escaped, the control characters below U+0020 are written by
their short escape if they have one and as `\u00xx` otherwise, and every other character stands for
itself. A float that is not finite has no JSON number and is written `null`.

`Json.key` is the text that names a label value: a text names itself, any other value is named by
its JSON text.
-/

namespace Dataflow.Json

/-- The lower-case digit of a number below sixteen. -/
def hexDigit (n : Nat) : Char :=
  if n < 10 then Char.ofNat (48 + n) else Char.ofNat (87 + n)

/-- A character as it stands between the quotes of a JSON text. -/
def escapeChar (c : Char) : List Char :=
  match c with
  | '"' => ['\\', '"']
  | '\\' => ['\\', '\\']
  | '\x08' => ['\\', 'b']
  | '\x0c' => ['\\', 'f']
  | '\n' => ['\\', 'n']
  | '\r' => ['\\', 'r']
  | '\t' => ['\\', 't']
  | c =>
    if c.toNat < 32 then
      ['\\', 'u', '0', '0', hexDigit (c.toNat / 16), hexDigit (c.toNat % 16)]
    else [c]

/-- A text in quotes, escaped. -/
def quoted (s : String) : String :=
  String.ofList ('"' :: (s.toList.flatMap escapeChar ++ ['"']))

/-- The text of a float: its shortest digits, or `null`. -/
def floatText (x : Float) : String :=
  (Decimal.Layout.json.finite? x).getD "null"

mutual

/-- The text of a value without insignificant spaces. -/
def compact : Json → String
  | null => "null"
  | bool b => if b then "true" else "false"
  | int n => toString n
  | float x => floatText x
  | text s => quoted s
  | list items => "[" ++ compactItems items ++ "]"
  | object members => "\x7b" ++ compactMembers members ++ "\x7d"

/-- The texts of the items, separated by commas. -/
def compactItems : List Json → String
  | [] => ""
  | [item] => compact item
  | item :: next :: rest => compact item ++ "," ++ compactItems (next :: rest)

/-- The texts of the members, separated by commas. -/
def compactMembers : List (String × Json) → String
  | [] => ""
  | [(key, value)] => quoted key ++ ":" ++ compact value
  | (key, value) :: next :: rest =>
    quoted key ++ ":" ++ compact value ++ "," ++ compactMembers (next :: rest)

end

/-- The text that names a label value. -/
def key : Json → String
  | text s => s
  | value => compact value

end Dataflow.Json
