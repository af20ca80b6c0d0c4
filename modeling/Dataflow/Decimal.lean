/-!
# Floats in decimal

Which decimal stands for a float, and how an output format lays it out.
-/

set_option autoImplicit false
set_option relaxedAutoImplicit false

/-!
## The shortest decimal that reads back

A finite positive double is `m * 2 ^ q`. The reals that round to it form an interval around it,
whose ends belong to it exactly when `m` is even. `shortest` finds the decimal with the fewest
digits in that interval, and of the decimals with that many digits the one nearest to the double,
where a `Tie` settles which of two equally near ones that is: for one, two, three digits and so on
it looks at the two neighbours of the value on the grid of decimals with that many digits. If any
point of a grid lies in the interval then one of these two does. Seventeen digits always suffice.

All arithmetic is on natural numbers, so nothing here depends on how floats are printed elsewhere.
-/

namespace Dataflow.Decimal

/-- The decimal `digits * 10 ^ (exponent - k)`, where `digits` has `k + 1` digits: `exponent` is the
power of ten of the first digit. -/
structure Scientific where
  digits : Nat
  exponent : Int
  deriving DecidableEq, Repr

/-- A finite nonzero magnitude `mantissa * 2 ^ exponent`, and whether the gap to the next smaller
double is half the gap to the next larger one. -/
structure Binary where
  mantissa : Nat
  exponent : Int
  narrowBelow : Bool
  deriving DecidableEq, Repr

/-- The magnitude held by the exponent and fraction bits of a double. -/
def Binary.ofBits (bits : UInt64) : Binary :=
  let exponent := ((bits >>> 52) &&& 0x7FF).toNat
  let fraction := (bits &&& 0xFFFFFFFFFFFFF).toNat
  if exponent = 0 then ⟨fraction, -1074, false⟩
  else ⟨fraction + Nat.pow 2 52, (exponent : Int) - 1075, fraction = 0 ∧ 1 < exponent⟩

/-- How many digits a natural number has in base ten. -/
def digitCount (n : Nat) : Nat :=
  (Nat.toDigits 10 n).length

/-- The power of ten of the first digit of `num / den`, both positive. -/
def leadingExponent (num den : Nat) : Int :=
  if den ≤ num then (digitCount (num / den) : Int) - 1
  else -(digitCount ((den + num - 1) / num - 1) : Int)

/-- A quotient `num / den` between the bounds `low / den` and `high / den`. -/
structure Interval where
  low : Nat
  num : Nat
  high : Nat
  den : Nat
  closed : Bool
  deriving DecidableEq, Repr

/-- The interval of reals that round to a magnitude. -/
def Binary.interval (b : Binary) : Interval :=
  let up := (b.exponent - 2).toNat
  let down := (2 - b.exponent).toNat
  let scaled (n : Nat) : Nat := n * Nat.pow 2 up
  { low := scaled (4 * b.mantissa - if b.narrowBelow then 1 else 2)
    num := scaled (4 * b.mantissa)
    high := scaled (4 * b.mantissa + 2)
    den := Nat.pow 2 down
    closed := b.mantissa % 2 = 0 }

/-- Whether `count * 10 ^ place` lies in the interval, all four numbers brought to one
denominator. -/
def Interval.holds (i : Interval) (count : Nat) (place : Int) : Bool :=
  let point := count * Nat.pow 10 place.toNat * i.den
  let low := i.low * Nat.pow 10 (-place).toNat
  let high := i.high * Nat.pow 10 (-place).toNat
  if i.closed then low ≤ point && point ≤ high else low < point && point < high

/-- The neighbours of the value among the multiples of `10 ^ place`: the lower one, and whether the
upper one is nearer (`gt`), the lower one is (`lt`), or neither (`eq`). -/
def Interval.neighbours (i : Interval) (place : Int) : Nat × Ordering :=
  let num := i.num * Nat.pow 10 (-place).toNat
  let den := i.den * Nat.pow 10 place.toNat
  (num / den, compare (2 * (num % den)) den)

/-- Which of two equally near decimals is taken. -/
inductive Tie
  /-- The one with an even last digit. -/
  | even
  /-- The upper one. -/
  | up
  deriving DecidableEq, Repr

/-- The point of the grid of step `10 ^ place` in the interval, and the nearer of two. -/
def Interval.pick (i : Interval) (tie : Tie) (place : Int) : Option Nat :=
  let (lower, side) := i.neighbours place
  let upper := lower + 1
  match i.holds lower place, i.holds upper place with
  | false, false => none
  | true, false => some lower
  | false, true => some upper
  | true, true =>
    match side with
    | .lt => some lower
    | .gt => some upper
    | .eq => if tie = .even ∧ lower % 2 = 0 then some lower else some upper

/-- Divides by ten as long as that is exact, at most `fuel` times. -/
def dropZeros : Nat → Nat → Nat
  | 0, n => n
  | fuel + 1, n => if n % 10 = 0 ∧ n ≠ 0 then dropZeros fuel (n / 10) else n

/-- Tries the grids with `count`, `count + 1`, … digits, at most `fuel` of them. -/
def Interval.search (i : Interval) (tie : Tie) (lead : Int) : Nat → Nat → Nat × Int
  | 0, _ => (i.num / i.den, 0)
  | fuel + 1, count =>
    let place := lead - (count : Int) + 1
    match i.pick tie place with
    | some point => (point, place)
    | none => i.search tie lead fuel (count + 1)

/-- The shortest decimal that reads back as the double with these magnitude bits, which must not be
those of zero, an infinity or a NaN. -/
def shortest (tie : Tie) (bits : UInt64) : Scientific :=
  let i := (Binary.ofBits bits).interval
  let (point, place) := i.search tie (leadingExponent i.num i.den) 17 1
  ⟨dropZeros 20 point, place + digitCount point - 1⟩

/-!
## How a number is written

A `Layout` holds the decisions one output format takes about floats: which exponents are written
positionally, whether a positive exponent carries a sign, and which of two equally near decimals is
taken. Two formats exist: `json`, for data, and `debug`, for messages that show a value. Both write
the shortest digits that read back, both keep at least one digit after the point in positional form,
and both keep the sign of a zero.
-/

/-- Where positional form starts and ends, by the exponent of the first digit, whether the exponent
of scientific form has an explicit plus, and which of two equally near decimals is written. -/
structure Layout where
  lowest : Int
  highest : Int
  plus : Bool
  tie : Tie

/-- Data: positional from `0.00001` to below `1e+16`, and of two equally near decimals the even
one. -/
def Layout.json : Layout := ⟨-5, 15, true, .even⟩

/-- Messages: positional from `0.0001` to below `1e16`, and of two equally near decimals the upper
one. -/
def Layout.debug : Layout := ⟨-4, 15, false, .up⟩

/-- `count` zeros. -/
def zeros (count : Nat) : String :=
  String.ofList (List.replicate count '0')

/-- Positional form, with at least one digit after the point. -/
def Scientific.positional (s : Scientific) : String :=
  let digits := Nat.toDigits 10 s.digits
  if s.exponent < 0 then
    "0." ++ zeros ((-s.exponent).toNat - 1) ++ String.ofList digits
  else
    let whole := s.exponent.toNat + 1
    if digits.length ≤ whole then
      String.ofList digits ++ zeros (whole - digits.length) ++ ".0"
    else
      String.ofList (digits.take whole) ++ "." ++ String.ofList (digits.drop whole)

/-- Scientific form: one digit, the others after a point if there are any, and the exponent. -/
def Scientific.withExponent (s : Scientific) (plus : Bool) : String :=
  let mark := if s.exponent < 0 then "e-" else if plus then "e+" else "e"
  let power := toString s.exponent.natAbs
  match Nat.toDigits 10 s.digits with
  | [] => "0"
  | [d] => String.ofList [d] ++ mark ++ power
  | d :: rest => String.ofList [d] ++ "." ++ String.ofList rest ++ mark ++ power

/-- A decimal in one of the two forms. -/
def Layout.decimal (layout : Layout) (s : Scientific) : String :=
  if layout.lowest ≤ s.exponent ∧ s.exponent ≤ layout.highest then s.positional
  else s.withExponent layout.plus

/-- The text of a finite double; `none` for an infinity or a NaN. -/
def Layout.finite? (layout : Layout) (x : Float) : Option String :=
  let bits := x.toBits
  let sign := if bits >>> 63 = 1 then "-" else ""
  let magnitude := bits &&& 0x7FFFFFFFFFFFFFFF
  if 0x7FF0000000000000 ≤ magnitude then none
  else if magnitude = 0 then some (sign ++ "0.0")
  else some (sign ++ layout.decimal (shortest layout.tie magnitude))

/-- The text of any double in a message. -/
def debug (x : Float) : String :=
  match Layout.debug.finite? x with
  | some text => text
  | none => if x.isNaN then "NaN" else if x < 0.0 then "-inf" else "inf"

end Dataflow.Decimal
