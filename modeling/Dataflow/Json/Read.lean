import Dataflow.Json.Basic

/-!
# Reading JSON text

`Json.read?` reads one value, with blanks allowed around it and nothing after it. The grammar is the
strict one: no comments, no trailing commas, no leading zeros, no unescaped control characters, and
a surrogate escape only as one half of a pair. A literal without point and exponent is an integer if
it fits into 64 bits, signed or unsigned; every other literal, and the literal `-0`, is a float,
which must be finite. Of a float the digits that fit into 64 bits are read as a number, and this is
multiplied or divided by a power of ten in floats. Members of an object are kept as written.
-/

set_option autoImplicit false
set_option relaxedAutoImplicit false

namespace Dataflow.Json

namespace Reader

/-- The blanks of JSON: space, tab, line feed and carriage return. -/
def isBlank (c : Char) : Bool :=
  c == ' ' || c == '\t' || c == '\n' || c == '\r'

/-- What stands after leading blanks. -/
def skipBlanks (cs : List Char) : List Char :=
  cs.dropWhile isBlank

/-- The value of a hexadecimal digit. -/
def hexValue? (c : Char) : Option Nat :=
  if '0' ≤ c ∧ c ≤ '9' then some (c.toNat - 48)
  else if 'a' ≤ c ∧ c ≤ 'f' then some (c.toNat - 87)
  else if 'A' ≤ c ∧ c ≤ 'F' then some (c.toNat - 55)
  else none

/-- The number written by four hexadecimal digits. -/
def hexWord? (a b c d : Char) : Option Nat := do
  return (((← hexValue? a) * 16 + (← hexValue? b)) * 16 + (← hexValue? c)) * 16 + (← hexValue? d)

/-- The character of a one-letter escape. -/
def shortEscape? : Char → Option Char
  | '"' => some '"'
  | '\\' => some '\\'
  | '/' => some '/'
  | 'b' => some '\x08'
  | 'f' => some '\x0c'
  | 'n' => some '\n'
  | 'r' => some '\r'
  | 't' => some '\t'
  | _ => none

/-- The character of a pair of surrogates. -/
def pairChar? (high low : Nat) : Option Char :=
  if 0xDC00 ≤ low ∧ low < 0xE000 then
    some (Char.ofNat (0x10000 + (high - 0xD800) * 0x400 + (low - 0xDC00)))
  else none

/-- Reads the rest of a text after its opening quote; `done` holds what was read, last first. -/
def textBody : List Char → List Char → Option (List Char × List Char)
  | '"' :: rest, done => some (done.reverse, rest)
  | '\\' :: 'u' :: a :: b :: c :: d :: rest, done =>
    match hexWord? a b c d with
    | none => none
    | some n =>
      if 0xDC00 ≤ n ∧ n < 0xE000 then none
      else if 0xD800 ≤ n ∧ n < 0xDC00 then
        match rest with
        | '\\' :: 'u' :: e :: f :: g :: h :: rest =>
          match (hexWord? e f g h).bind (pairChar? n) with
          | some c => textBody rest (c :: done)
          | none => none
        | _ => none
      else textBody rest (Char.ofNat n :: done)
  | '\\' :: c :: rest, done =>
    match shortEscape? c with
    | some e => textBody rest (e :: done)
    | none => none
  | c :: rest, done => if c.toNat < 32 ∨ c = '\\' then none else textBody rest (c :: done)
  | [], _ => none

/-- Whether a character is one of the ten digits. -/
def isDigit (c : Char) : Bool :=
  '0' ≤ c && c ≤ '9'

/-- The number written by a list of digits. -/
def natural (digits : List Char) : Nat :=
  digits.foldl (fun n c ↦ 10 * n + (c.toNat - 48)) 0

/-- Takes up digits into a number as long as it stays below `2 ^ 64`. Gives the number and the
digits that are left. -/
def takeDigits (n : Nat) : List Char → Nat × List Char
  | [] => (n, [])
  | c :: rest =>
    let next := 10 * n + (c.toNat - 48)
    if next < UInt64.size then takeDigits next rest else (n, c :: rest)

/-- Ten to a power, at most 308. -/
def tenTo (power : Nat) : Float :=
  Float.ofScientific 1 false power

/-- A number below `2 ^ 64` times a power of ten, rounded at every step; nothing if it would
overflow. A quotient by more than `10 ^ 308` is taken in two steps, and one by more than `10 ^ 616`
is zero. -/
def scaled? (n : Nat) (exponent : Int) : Option Float :=
  let x := n.toUInt64.toFloat
  let power := exponent.natAbs
  if n = 0 then some x
  else if 0 ≤ exponent then
    let scaled := x * tenTo power
    if 308 < power ∨ scaled.isInf then none else some scaled
  else if power ≤ 308 then some (x / tenTo power)
  else if power ≤ 616 then some (x / tenTo 308 / tenTo (power - 308))
  else some 0.0

/-- The float that the digits before and after a point and an exponent spell. The digits that do not
fit into 64 bits do not count, but for the places that those before the point take up; so the float
can be off the nearest one by some units in its last place. -/
def float? (whole places : List Char) (exponent : Int) : Option Float :=
  let (n, beyond) := takeDigits 0 whole
  let (n, left) := takeDigits n places
  scaled? n (exponent + beyond.length - (places.length - left.length : Nat))

/-- The digits of a fraction after its point: none without a point, at least one with it. -/
def fraction? : List Char → Option (List Char × List Char)
  | '.' :: rest =>
    match rest.takeWhile isDigit with
    | [] => none
    | digits => some (digits, rest.dropWhile isDigit)
  | rest => some ([], rest)

/-- The value of an exponent, and whether there was one. -/
def exponent? : List Char → Option (Option Int × List Char)
  | c :: rest =>
    if c = 'e' ∨ c = 'E' then
      let (negative, rest) :=
        match rest with
        | '-' :: rest => (true, rest)
        | '+' :: rest => (false, rest)
        | rest => (false, rest)
      match rest.takeWhile isDigit with
      | [] => none
      | digits =>
        let n : Int := natural digits
        some (some (if negative then -n else n), rest.dropWhile isDigit)
    else some (none, c :: rest)
  | [] => some (none, [])

/-- A number after its sign. -/
def magnitude? (negative : Bool) (cs : List Char) : Option (Json × List Char) := do
  let whole := cs.takeWhile isDigit
  let rest := cs.dropWhile isDigit
  match whole with
  | [] => none
  | '0' :: _ :: _ => none
  | _ =>
    let (places, rest) ← fraction? rest
    let (power, rest) ← exponent? rest
    let float : Option (Json × List Char) := do
      let x ← float? whole places (power.getD 0)
      return (Json.float (if negative then -x else x), rest)
    if places.isEmpty ∧ power.isNone then
      let n := natural whole
      if negative then
        if 0 < n ∧ n ≤ Nat.pow 2 63 then return (Json.int (-n), rest) else float
      else if n < UInt64.size then return (Json.int n, rest) else float
    else float

/-- The rest after a given word. -/
def word? (word : List Char) (cs : List Char) : Option (List Char) :=
  if word.isPrefixOf cs then some (cs.drop word.length) else none

mutual

/-- Reads one value, with at most `fuel` steps of nesting and listing. -/
def value? : Nat → List Char → Option (Json × List Char)
  | 0, _ => none
  | fuel + 1, cs =>
    match skipBlanks cs with
    | '"' :: rest => (textBody rest []).map fun (s, rest) ↦ (Json.text (String.ofList s), rest)
    | '[' :: rest =>
      match skipBlanks rest with
      | ']' :: rest => some (Json.list [], rest)
      | rest => (items? fuel rest).map fun (items, rest) ↦ (Json.list items, rest)
    | '{' :: rest =>
      match skipBlanks rest with
      | '}' :: rest => some (Json.object [], rest)
      | rest => (members? fuel rest).map fun (members, rest) ↦ (Json.object members, rest)
    | '-' :: rest => magnitude? true rest
    | 'n' :: rest => (word? ['u', 'l', 'l'] rest).map fun rest ↦ (Json.null, rest)
    | 't' :: rest => (word? ['r', 'u', 'e'] rest).map fun rest ↦ (Json.bool true, rest)
    | 'f' :: rest => (word? ['a', 'l', 's', 'e'] rest).map fun rest ↦ (Json.bool false, rest)
    | rest => magnitude? false rest

/-- Reads the items of a nonempty list up to its bracket. -/
def items? : Nat → List Char → Option (List Json × List Char)
  | 0, _ => none
  | fuel + 1, cs =>
    match value? fuel cs with
    | none => none
    | some (item, rest) =>
      match skipBlanks rest with
      | ',' :: rest => (items? fuel rest).map fun (items, rest) ↦ (item :: items, rest)
      | ']' :: rest => some ([item], rest)
      | _ => none

/-- Reads the members of a nonempty object up to its brace. -/
def members? : Nat → List Char → Option (List (String × Json) × List Char)
  | 0, _ => none
  | fuel + 1, cs =>
    match skipBlanks cs with
    | '"' :: rest =>
      match textBody rest [] with
      | none => none
      | some (key, rest) =>
        match skipBlanks rest with
        | ':' :: rest =>
          match value? fuel rest with
          | none => none
          | some (value, rest) =>
            let member := (String.ofList key, value)
            match skipBlanks rest with
            | ',' :: rest =>
              (members? fuel rest).map fun (members, rest) ↦ (member :: members, rest)
            | '}' :: rest => some ([member], rest)
            | _ => none
        | _ => none
    | _ => none

end

end Reader

/-- The value a text holds, objects with their members as written. -/
def read? (s : String) : Option Json :=
  let cs := s.toList
  match Reader.value? (2 * cs.length + 2) cs with
  | some (value, rest) => if (Reader.skipBlanks rest).isEmpty then some value else none
  | none => none

end Dataflow.Json
