import Dataflow.Json.Read
import Dataflow.Text.Quoted

/-!
# Forms and records of JSON

What can be told of a value without reading it, and how records are read.
-/

set_option autoImplicit false
set_option relaxedAutoImplicit false

/-!
## The form of JSON values

How far a value extends shows from its form alone. The form says nothing about the size of a number,
about the characters that the escapes of a text spell, or about what octets a text holds; so there
are values of the right form that cannot be read, while whatever can be read has the right form.

Octets are decoded as UTF-8, where a *stray* octet, one that belongs to no character, is kept as the
null character. A null character of the text itself may stand nowhere in JSON, no more than other
control characters, so another one takes its place. Then a text that is read may hold no stray
octet, while a text of which only the form counts may.
-/

namespace Dataflow.Json.Form

open Reader (skipBlanks isDigit fraction? exponent? hexWord? shortEscape? word?)

/-! ### Characters and stray octets -/

/-- Stands for a stray octet. -/
def stray : Char := '\x00'

/-- A character of a text, which is not taken for a stray octet. -/
def ofChar (c : Char) : Char :=
  if c = stray then '\x01' else c

/-- The characters of a text. -/
def ofText (s : String) : List Char :=
  s.toList.map ofChar

/-- The character that starts some octets, and the number of octets it takes. -/
def leading? (bytes : List UInt8) : Option (Char × Nat) :=
  [1, 2, 3, 4].findSome? fun size ↦
    match (String.fromUTF8? ⟨(bytes.take size).toArray⟩).map String.toList with
    | some [c] => some (c, size)
    | _ => none

/-- The characters and stray octets among at most `fuel` octets. -/
def decode : Nat → List UInt8 → List Char
  | 0, _ => []
  | _, [] => []
  | fuel + 1, byte :: rest =>
    match leading? (byte :: rest) with
    | some (c, size) => ofChar c :: decode fuel ((byte :: rest).drop size)
    | none => stray :: decode fuel rest

/-- The characters and stray octets of some octets. -/
def ofBytes (bytes : List UInt8) : List Char :=
  decode bytes.length bytes

/-! ### Ends of values -/

/-- What follows a text, given what follows its opening quote. -/
def textEnd? : List Char → Option (List Char)
  | '"' :: rest => some rest
  | '\\' :: 'u' :: a :: b :: c :: d :: rest =>
    if (hexWord? a b c d).isSome then textEnd? rest else none
  | '\\' :: c :: rest => if (shortEscape? c).isSome then textEnd? rest else none
  | c :: rest =>
    if (c.toNat < 32 ∧ c ≠ stray) ∨ c = '\\' then none else textEnd? rest
  | [] => none

/-- What follows a number, given what follows its sign. -/
def numberEnd? (cs : List Char) : Option (List Char) :=
  match cs.takeWhile isDigit with
  | [] => none
  | '0' :: _ :: _ => none
  | _ => do
    let (_, rest) ← fraction? (cs.dropWhile isDigit)
    let (_, rest) ← exponent? rest
    return rest

mutual

/-- What follows a value, found in at most `fuel` steps. -/
def valueEnd? : Nat → List Char → Option (List Char)
  | 0, _ => none
  | fuel + 1, cs =>
    match skipBlanks cs with
    | '"' :: rest => textEnd? rest
    | '[' :: rest =>
      match skipBlanks rest with
      | ']' :: rest => some rest
      | rest => itemsEnd? fuel rest
    | '{' :: rest =>
      match skipBlanks rest with
      | '}' :: rest => some rest
      | rest => membersEnd? fuel rest
    | '-' :: rest => numberEnd? rest
    | 'n' :: rest => word? ['u', 'l', 'l'] rest
    | 't' :: rest => word? ['r', 'u', 'e'] rest
    | 'f' :: rest => word? ['a', 'l', 's', 'e'] rest
    | rest => numberEnd? rest

/-- What follows the bracket after the items of a nonempty list. -/
def itemsEnd? : Nat → List Char → Option (List Char)
  | 0, _ => none
  | fuel + 1, cs => do
    match skipBlanks (← valueEnd? fuel cs) with
    | ',' :: rest => itemsEnd? fuel rest
    | ']' :: rest => return rest
    | _ => none

/-- What follows the brace after the members of a nonempty object. -/
def membersEnd? : Nat → List Char → Option (List Char)
  | 0, _ => none
  | fuel + 1, cs =>
    match skipBlanks cs with
    | '"' :: rest => do
      match skipBlanks (← textEnd? rest) with
      | ':' :: rest =>
        match skipBlanks (← valueEnd? fuel rest) with
        | ',' :: rest => membersEnd? fuel rest
        | '}' :: rest => return rest
        | _ => none
      | _ => none
    | _ => none

end

end Dataflow.Json.Form

/-!
## Records in JSON

A record is an object with given names, or the list of their values in order. In the object each
given name occurs exactly once. Other members may stand beside them, and of those only the name is
read and only the form matters: their numbers may be too great for a float, their escapes may spell
halves of surrogate pairs, and their texts may hold octets that belong to no character.

Reading goes from left to right and stops at the first fault. A `Step` reads a part. What is read of
a given member has a kind that is known beforehand: a number, a count, a text, a list or a map. A
text in the place of any other kind is a fault of its own, since the message quotes it.
-/

namespace Dataflow.Json

/-- Why a text does not hold what it should. -/
structure Fault where
  /-- The line where reading stopped, counted from one. -/
  line : Nat
  /-- The text that stands in the place of something else, if this is the fault. -/
  found : Option String
  deriving DecidableEq, Repr

/-- The text of a fault. -/
def Fault.message (fault : Fault) : String :=
  match fault.found with
  | some found => s!"invalid type: string {Text.shown found} at line {fault.line}"
  | none => s!"unreadable at line {fault.line}"

namespace Record

open Reader (skipBlanks magnitude?)

/-- Where a step failed, by what follows, and the text in the place of something else. -/
structure Failure where
  rest : List Char
  found : Option String

/-- Reads a part of the characters. -/
abbrev Step := StateT (List Char) (Except Failure)

/-- Stops here. -/
def refuse {α : Type} : Step α := fun rest ↦ .error ⟨rest, none⟩

/-- Stops at a text in the place of something else. -/
def misplaced {α : Type} (found : String) : Step α := fun rest ↦ .error ⟨rest, found⟩

/-- A value that must be there. -/
def need {α : Type} : Option α → Step α
  | some a => pure a
  | none => refuse

/-! ### Signs -/

/-- Goes past blanks, and gives the next character. -/
def peek : Step (Option Char) := do
  modify skipBlanks
  return (← get).head?

/-- Goes past a character. -/
def skip : Step Unit :=
  modify List.tail

/-- Goes past a sign if it is the next one, and tells whether it is. -/
def taken (sign : Char) : Step Bool := do
  if (← peek) = some sign then
    skip
    return true
  else return false

/-- Goes past a sign that must be the next one. -/
def expect (sign : Char) : Step Unit := do
  unless ← taken sign do refuse

/-- Goes past a comma or the sign that closes a list or an object, and tells whether it was a
comma. -/
def goesOn (close : Char) : Step Bool := do
  if ← taken ',' then return true
  else
    expect close
    return false

/-! ### Values -/

/-- Reads a text after its opening quote. -/
def textBody : Step String := do
  let (cs, rest) ← need (Reader.textBody (← get) [])
  set rest
  return String.ofList cs

/-- Goes past a sign that opens something. A text in its place is misplaced. -/
def opening (sign : Char) : Step Unit := do
  if ← taken '"' then misplaced (← textBody) else expect sign

/-- Reads a text. -/
def text : Step Json := do
  expect '"'
  return .text (← textBody)

/-- Reads a number. -/
def number : Step Json := do
  if ← taken '"' then misplaced (← textBody)
  else
    let negative ← taken '-'
    let (value, rest) ← need (magnitude? negative (← get))
    set rest
    return value

/-- Reads a count: a whole number that is not negative. -/
def count : Step Json := do
  let value ← number
  let _ ← need value.natural?
  return value

/-- Reads the items of a nonempty list up to its bracket, at most `fuel` of them. -/
def items (item : Step Json) : Nat → Step (List Json)
  | 0 => refuse
  | fuel + 1 => do
    let first ← item
    if ← goesOn ']' then return first :: (← items item fuel) else return [first]

/-- Reads a list of items of one kind. -/
def listOf (item : Step Json) : Step Json := do
  opening '['
  if ← taken ']' then return .list []
  else return .list (← items item (← get).length)

/-- Reads the name of a member and the colon behind it. -/
def name : Step String := do
  expect '"'
  let name ← textBody
  expect ':'
  return name

/-- Reads the members of a nonempty object up to its brace, at most `fuel` of them. -/
def entries (value : Step Json) : Nat → Step (List (String × Json))
  | 0 => refuse
  | fuel + 1 => do
    let first := (← name, ← value)
    if ← goesOn '}' then return first :: (← entries value fuel) else return [first]

/-- Reads an object with any names and values of one kind. -/
def mapOf (value : Step Json) : Step Json := do
  opening '{'
  if ← taken '}' then return .object []
  else return .object (← entries value (← get).length)

/-! ### Records -/

/-- The names of a record with what reads their values. -/
abbrev Fields := List (String × Step Json)

/-- Reads the members of a nonempty object up to its brace, at most `fuel` of them, and adds the
values of the given names to those that were read before. -/
def members (fields : Fields) : Nat → List (String × Json) → Step (List (String × Json))
  | 0, _ => refuse
  | fuel + 1, done => do
    let name ← name
    let done ←
      match fields.lookup name with
      | none => do
        let cs ← get
        set (← need (Form.valueEnd? (2 * cs.length + 2) cs))
        pure done
      | some value =>
        if (done.lookup name).isSome then refuse else do pure ((name, ← value) :: done)
    if ← goesOn '}' then members fields fuel done else return done

/-- Reads the values of a record that is a list, up to its bracket. -/
def listed : Fields → Step (List Json)
  | [] => do
    expect ']'
    return []
  | [(_, value)] => do
    let last ← value
    expect ']'
    return [last]
  | (_, value) :: fields => do
    let first ← value
    expect ','
    return first :: (← listed fields)

/-- Reads the values of a record, in the order of the given names. -/
def record (fields : Fields) : Step (List Json) := do
  if ← taken '[' then listed fields
  else
    opening '{'
    let found ← if ← taken '}' then pure [] else members fields (← get).length []
    need (fields.mapM fun (name, _) ↦ found.lookup name)

/-- Reads all characters by a step, with nothing but blanks after it. -/
def read {α : Type} (step : Step α) (cs : List Char) : Except Fault α :=
  let whole : Step α := do
    let a ← step
    if (← peek).isSome then refuse else return a
  match whole.run cs with
  | .ok (a, _) => .ok a
  | .error ⟨rest, found⟩ => .error ⟨(cs.take (cs.length - rest.length)).count '\n' + 1, found⟩

end Record

end Dataflow.Json
