/-!
# Base64

The standard alphabet with padding, as persisted state is written. `encode` and `decode` are strict
inverses: `decode` accepts exactly the texts `encode` writes. What it refuses it refuses for one of
four causes, the first that applies:

* the length leaves one symbol over after whole groups of four;
* a character outside the alphabet, or padding where a symbol must stand;
* the symbols and the padding do not fill the last group;
* the last symbol has bits that belong to no byte.

Positions and lengths count bytes of the text's UTF-8 form.
-/

set_option autoImplicit false
set_option relaxedAutoImplicit false

namespace Dataflow.Text.Base64

/-- Why a text is not base64. -/
inductive Fault
  | byte (value offset : Nat)
  | length
  | lastSymbol (value offset : Nat)
  | padding
  deriving DecidableEq, Repr

/-- The wording of a fault. -/
def Fault.message : Fault → String
  | byte value offset => s!"Invalid byte {value}, offset {offset}."
  | length => "Encoded text cannot have a 6-bit remainder."
  | lastSymbol value offset => s!"Invalid last symbol {value}, offset {offset}."
  | padding => "Invalid padding"

/-! ### Symbols -/

/-- The symbol, as a byte, of a number below sixty-four. -/
def symbol (n : Nat) : Nat :=
  if n < 26 then 65 + n
  else if n < 52 then 71 + n
  else if n < 62 then n - 4
  else if n = 62 then 43
  else 47

/-- The number a symbol stands for. -/
def number? (byte : Nat) : Option Nat :=
  if 65 ≤ byte ∧ byte ≤ 90 then some (byte - 65)
  else if 97 ≤ byte ∧ byte ≤ 122 then some (byte - 71)
  else if 48 ≤ byte ∧ byte ≤ 57 then some (byte + 4)
  else if byte = 43 then some 62
  else if byte = 47 then some 63
  else none

/-- The byte of the padding character. -/
def pad : Nat := 61

/-! ### Encoding -/

/-- The symbols of a list of bytes, three bytes to four symbols, the last group padded. -/
def encodeBytes : List UInt8 → List Nat
  | a :: b :: c :: rest =>
    let n := (a.toNat * 256 + b.toNat) * 256 + c.toNat
    symbol (n / 262144) :: symbol (n / 4096 % 64) :: symbol (n / 64 % 64) :: symbol (n % 64) ::
      encodeBytes rest
  | [a, b] =>
    let n := (a.toNat * 256 + b.toNat) * 4
    [symbol (n / 4096), symbol (n / 64 % 64), symbol (n % 64), pad]
  | [a] =>
    let n := a.toNat * 16
    [symbol (n / 64), symbol (n % 64), pad, pad]
  | [] => []

/-- The text of a list of bytes. -/
def encode (bytes : List UInt8) : String :=
  String.ofList ((encodeBytes bytes).map Char.ofNat)

/-! ### Decoding -/

/-- The bytes of four symbols. -/
def fourBytes (a b c d : Nat) : List UInt8 :=
  let n := ((a * 64 + b) * 64 + c) * 64 + d
  [UInt8.ofNat (n / 65536), UInt8.ofNat (n / 256 % 256), UInt8.ofNat (n % 256)]

/-- The numbers of the leading symbols of the last group, which starts at `offset`, and how many
padding characters follow them. Nothing but padding may follow padding, and none may stand before
the second symbol. -/
def lastSymbols (offset : Nat) : Nat → List Nat → Except Fault (List Nat × Nat)
  | _, [] => .ok ([], 0)
  | position, byte :: rest =>
    if byte = pad then
      if position < 2 ∨ rest.any (· ≠ pad) then .error (.byte pad (offset + position))
      else .ok ([], rest.length + 1)
    else
      match number? byte with
      | none => .error (.byte byte (offset + position))
      | some n => do
        let (numbers, padding) ← lastSymbols offset (position + 1) rest
        return (n :: numbers, padding)

/-- The bytes of the last group, of at most four bytes of text, which starts at `offset`. -/
def decodeLast (offset : Nat) (group : List Nat) : Except Fault (List UInt8) := do
  let (numbers, padding) ← lastSymbols offset 0 group
  if (numbers.length + padding) % 4 ≠ 0 then throw .padding
  let unused (byte : Nat) : Fault := .lastSymbol byte (offset + numbers.length - 1)
  let last := group.getD (numbers.length - 1) 0
  match numbers with
  | [] => return []
  | [a, b] =>
    if b % 16 ≠ 0 then throw (unused last)
    return [UInt8.ofNat (a * 4 + b / 16)]
  | [a, b, c] =>
    if c % 4 ≠ 0 then throw (unused last)
    let n := ((a * 64 + b) * 64 + c) / 4
    return [UInt8.ofNat (n / 256), UInt8.ofNat (n % 256)]
  | [a, b, c, d] => return fourBytes a b c d
  | _ => throw .padding

/-- The bytes of the groups from `offset` on. -/
def decodeGroups (offset : Nat) : List Nat → Except Fault (List UInt8)
  | a :: b :: c :: d :: e :: rest =>
    match number? a, number? b, number? c, number? d with
    | none, _, _, _ => .error (.byte a offset)
    | _, none, _, _ => .error (.byte b (offset + 1))
    | _, _, none, _ => .error (.byte c (offset + 2))
    | _, _, _, none => .error (.byte d (offset + 3))
    | some a, some b, some c, some d => do
      let bytes ← decodeGroups (offset + 4) (e :: rest)
      return fourBytes a b c d ++ bytes
  | group => decodeLast offset group

/-- The bytes a text encodes. -/
def decode (text : String) : Except Fault (List UInt8) :=
  let bytes := text.toUTF8.toList.map UInt8.toNat
  if bytes.length % 4 = 1 then
    match bytes.getLast? with
    | some last =>
      if last ≠ pad ∧ (number? last).isNone then .error (.byte last (bytes.length - 1))
      else .error .length
    | none => .error .length
  else decodeGroups 0 bytes

end Dataflow.Text.Base64
