import Dataflow.Toml.Basic

/-!
# Numbers and dates in TOML

An integer is decimal with an optional sign and without leading zeros, or has no sign and one of the
bases `0x`, `0o` and `0b`; single underscores may stand between its digits. It must fit into 64 bits
with a sign. Floats, dates and times are told apart from integers and from malformed text, but their
values are not kept; of a float it only matters that it is not too great.
-/

set_option autoImplicit false
set_option relaxedAutoImplicit false

namespace Dataflow.Toml

open Json.Reader (isDigit natural hexValue?)

/-! ### Integers -/

/-- The digits that follow a digit, without the underscores between them. -/
def moreDigits (ok : Char → Bool) : List Char → Option (List Char × List Char)
  | '_' :: c :: rest =>
    if ok c then (moreDigits ok rest).map fun (digits, rest) ↦ (c :: digits, rest) else none
  | c :: rest =>
    if ok c then (moreDigits ok rest).map fun (digits, rest) ↦ (c :: digits, rest)
    else if c = '_' then none
    else some ([], c :: rest)
  | [] => some ([], [])

/-- One or more digits with single underscores between them. -/
def digits? (ok : Char → Bool) : List Char → Option (List Char × List Char)
  | c :: rest =>
    if ok c then (moreDigits ok rest).map fun (digits, rest) ↦ (c :: digits, rest) else none
  | [] => none

/-- The digits of a decimal integer: a single zero, or digits that do not start with one. -/
def decimal? : List Char → Option (List Char × List Char)
  | '0' :: rest => some (['0'], rest)
  | cs => digits? isDigit cs

/-- An optional sign, and whether it is a minus. -/
def sign : List Char → Bool × List Char
  | '-' :: rest => (true, rest)
  | '+' :: rest => (false, rest)
  | cs => (false, cs)

/-- The value of digits in a base. -/
def valueOf (base : Nat) (digits : List Char) : Nat :=
  digits.foldl (fun n c ↦ base * n + (hexValue? c).getD 0) 0

/-- Whether a character is a digit in a base up to sixteen. -/
def isDigitOf (base : Nat) (c : Char) : Bool :=
  (hexValue? c).any (· < base)

/-- An integer, if it fits into 64 bits with a sign. -/
def bounded? (n : Int) : Option Node :=
  if Int64.minValue.toInt ≤ n ∧ n ≤ Int64.maxValue.toInt then some (.integer n) else none

/-- An integer in a base. -/
def based? (base : Nat) (cs : List Char) : Option (Node × List Char) := do
  let (digits, rest) ← digits? (isDigitOf base) cs
  return (← bounded? (valueOf base digits), rest)

/-- Reads an integer. -/
def integer? : List Char → Option (Node × List Char)
  | '0' :: 'x' :: rest => based? 16 rest
  | '0' :: 'o' :: rest => based? 8 rest
  | '0' :: 'b' :: rest => based? 2 rest
  | cs => do
    let (negative, rest) := sign cs
    let (digits, rest) ← decimal? rest
    let n : Int := natural digits
    return (← bounded? (if negative then -n else n), rest)

/-! ### Floats -/

/-- What a float spells, without its sign. -/
structure FloatText where
  /-- The digits before the point. -/
  whole : List Char
  /-- The digits after the point. -/
  fraction : List Char
  /-- The power of ten that scales it. -/
  exponent : Int

/-- The least magnitude that is nearer to infinity than to a finite float. -/
def overflowLimit : Nat :=
  Nat.pow 2 1024 - Nat.pow 2 970

/-- Whether a float is small enough to be finite. Its digits are compared with the limit only where
the place of its first digit leaves this open. -/
def FloatText.isFinite (t : FloatText) : Bool :=
  let digits := (t.whole ++ t.fraction).dropWhile (· == '0')
  let scale := t.exponent - t.fraction.length
  let places := digits.length + scale
  if digits.isEmpty || places ≤ 308 then true
  else if 309 < places then false
  else natural digits * Nat.pow 10 scale.toNat < overflowLimit * Nat.pow 10 (-scale).toNat

/-- The exponent of a float. -/
def exponent? : List Char → Option (Int × List Char)
  | c :: rest =>
    if c = 'e' ∨ c = 'E' then do
      let (negative, rest) := sign rest
      let (digits, rest) ← digits? isDigit rest
      let n : Int := natural digits
      return (if negative then -n else n, rest)
    else none
  | [] => none

/-- The fraction of a float and the exponent that may follow it. -/
def fraction? : List Char → Option (List Char × Int × List Char)
  | '.' :: rest => do
    let (digits, rest) ← digits? isDigit rest
    return (digits, (exponent? rest).getD (0, rest))
  | _ => none

/-- What a float spells: its digits with a fraction, an exponent or both. -/
def floatText? (cs : List Char) : Option (FloatText × List Char) := do
  let (whole, rest) ← decimal? cs
  match fraction? rest, exponent? rest with
  | some (fraction, exponent, rest), _ => return (⟨whole, fraction, exponent⟩, rest)
  | none, some (exponent, rest) => return (⟨whole, [], exponent⟩, rest)
  | none, none => none

/-- Whether a float is accepted, and the rest after it. One that is too great is not, while one that
is too far below zero, like the word for infinity, is. -/
def float? (cs : List Char) : Option (Bool × List Char) :=
  match sign cs with
  | (_, 'i' :: 'n' :: 'f' :: rest) => some (true, rest)
  | (_, 'n' :: 'a' :: 'n' :: rest) => some (true, rest)
  | (negative, cs) => (floatText? cs).map fun (t, rest) ↦ (negative || t.isFinite, rest)

/-! ### Dates and times -/

/-- The number written by exactly `count` digits. -/
def fixed? (count : Nat) (cs : List Char) : Option (Nat × List Char) :=
  let digits := cs.take count
  if digits.length = count ∧ digits.all isDigit then some (natural digits, cs.drop count) else none

/-- The rest after a given character. -/
def after? (c : Char) : List Char → Option (List Char)
  | d :: rest => if c = d then some rest else none
  | [] => none

/-- The number of days of a month. -/
def daysOf (year month : Nat) : Nat :=
  if month = 2 then
    if year % 4 = 0 ∧ (year % 100 ≠ 0 ∨ year % 400 = 0) then 29 else 28
  else if month = 4 ∨ month = 6 ∨ month = 9 ∨ month = 11 then 30
  else 31

/-- The rest after a date. -/
def date? (cs : List Char) : Option (List Char) := do
  let (year, cs) ← fixed? 4 cs
  let (month, cs) ← fixed? 2 (← after? '-' cs)
  let (day, cs) ← fixed? 2 (← after? '-' cs)
  if 1 ≤ month ∧ month ≤ 12 ∧ 1 ≤ day ∧ day ≤ daysOf year month then some cs else none

/-- The rest after hours and minutes. -/
def clock? (cs : List Char) : Option (List Char) := do
  let (hour, cs) ← fixed? 2 cs
  let (minute, cs) ← fixed? 2 (← after? ':' cs)
  if hour < 24 ∧ minute < 60 then some cs else none

/-- The rest after the decimals of a second, if there are any. -/
def decimals (cs : List Char) : List Char :=
  match cs with
  | '.' :: c :: rest => if isDigit c then rest.dropWhile isDigit else cs
  | cs => cs

/-- The rest after a time. -/
def time? (cs : List Char) : Option (List Char) := do
  let (second, cs) ← fixed? 2 (← after? ':' (← clock? cs))
  if second ≤ 60 then some (decimals cs) else none

/-- The rest after the distance from universal time, if there is one. -/
def offset (cs : List Char) : List Char :=
  match cs with
  | 'Z' :: rest => rest
  | 'z' :: rest => rest
  | c :: rest => if c = '+' ∨ c = '-' then (clock? rest).getD cs else cs
  | [] => cs

/-- The rest after a date, a time, or both. -/
def moment? (cs : List Char) : Option (List Char) :=
  match date? cs with
  | some (c :: rest) =>
    if c = 'T' ∨ c = 't' ∨ c = ' ' then ((time? rest).map offset).getD (c :: rest)
    else some (c :: rest)
  | some [] => some []
  | none => time? cs

/-- Reads a number, a date or a time. -/
def number? (cs : List Char) : Option (Node × List Char) :=
  match moment? cs, float? cs with
  | some rest, _ => some (.other, rest)
  | none, some (accepted, rest) => if accepted then some (.other, rest) else none
  | none, none => integer? cs

end Dataflow.Toml
