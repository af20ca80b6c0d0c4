import Dataflow.Yaml.Scalar
import Dataflow.Yaml.Tag

/-!
# Tokens of a YAML text

The tokens of a text make its nesting explicit. A mapping is written in braces or as a *block*,
whose keys stand in one column; a block starts where a key stands farther right than those around
it, and ends at a line that starts farther left.

That a scalar, an alias or a mapping in braces was a key shows only at the colon behind it. Until
then its place is kept as a *candidate*, and at the colon the tokens for the key, and for a block
that starts with it, go in there. A candidate must stand on one line, at most 1024 characters before
its colon. A candidate in the column of the block has to turn out a key.

Lists are not read: a text with a list is refused.
-/

set_option autoImplicit false
set_option relaxedAutoImplicit false

namespace Dataflow.Yaml

/-- A token. -/
inductive Token
  | directive (directive : Directive)
  | documentStart
  | documentEnd
  | blockStart
  | blockEnd
  | flowStart
  | flowEnd
  | flowEntry
  | key
  | value
  | alias (name : String)
  | anchor (name : String)
  | tag (tag : Tag)
  | scalar (style : Style) (text : String)
  deriving Repr

/-- A place where a key may have started. -/
structure Candidate where
  /-- How many tokens stand before it. -/
  position : Nat
  index : Nat
  line : Nat
  column : Nat
  /-- Whether it has to turn out a key. -/
  required : Bool

/-- The state of reading tokens. -/
structure Scan where
  cursor : Cursor
  tokens : Array Token := #[]
  /-- The columns of the open blocks, innermost first. -/
  blocks : List Nat := []
  /-- The candidate in the innermost braces, or in the block outside of all. -/
  candidate : Option Candidate := none
  /-- The candidates around the innermost braces. -/
  outer : List (Option Candidate) := []
  /-- Whether a key may start here. -/
  keyAllowed : Bool := true

namespace Scan

/-- Whether the place is inside braces. -/
def inFlow (s : Scan) : Bool :=
  !s.outer.isEmpty

/-- Adds a token. -/
def push (s : Scan) (token : Token) : Scan :=
  { s with tokens := s.tokens.push token }

/-! ### Candidates -/

/-- Gives up the innermost candidate, unless it is required. -/
def dropCandidate? (s : Scan) : Option Scan :=
  if s.candidate.any (·.required) then none else some { s with candidate := none }

/-- Makes this place a candidate, if a key may start here. -/
def addCandidate? (s : Scan) : Option Scan :=
  if s.keyAllowed then do
    let s ← s.dropCandidate?
    let { index, line, column, .. } := s.cursor
    let required := !s.inFlow && s.blocks.head? == some column
    return { s with candidate := some ⟨s.tokens.size, index, line, column, required⟩ }
  else some s

/-- Whether a candidate can no longer turn out a key. -/
def isStale (s : Scan) (candidate : Candidate) : Bool :=
  candidate.line < s.cursor.line || candidate.index + 1024 < s.cursor.index

/-- Gives up all candidates that can no longer turn out keys, unless one of them is required. -/
def dropStale? (s : Scan) : Option Scan :=
  let stale (candidate : Option Candidate) : Bool := candidate.any s.isStale
  if (s.candidate :: s.outer).any fun c ↦ stale c && c.any (·.required) then none
  else some { s with
    candidate := s.candidate.filter (!s.isStale ·)
    outer := s.outer.map (·.filter (!s.isStale ·)) }

/-! ### Blocks -/

/-- Opens a block with keys in a column, if that is farther right than the open ones. Its token goes
in before the token at a position. -/
def openBlock (s : Scan) (column position : Nat) : Scan :=
  if s.inFlow || s.blocks.head?.any (column ≤ ·) then s
  else { s with
    blocks := column :: s.blocks
    tokens := s.tokens.extract 0 position ++ #[.blockStart] ++ s.tokens.extract position }

/-- Ends the blocks that a line starting in the given column ends; all of them if none is given. -/
def closeBlocks (s : Scan) (column : Option Nat) : Scan :=
  if s.inFlow then s
  else
    let ended := s.blocks.takeWhile fun block ↦ column.all (· < block)
    { s with
      blocks := s.blocks.drop ended.length
      tokens := s.tokens ++ ended.map fun _ ↦ Token.blockEnd }

/-! ### Reading one token -/

/-- Adds a token of some characters that are not the start of a key. -/
def sign (s : Scan) (count : Nat) (token : Token) : Scan :=
  { s.push token with cursor := s.cursor.advance count }

/-- A directive. -/
def takeDirective? (s : Scan) : Option Scan := do
  let s ← (s.closeBlocks none).dropCandidate?
  let (directive, cursor) ← directive? (s.cursor.advance 1)
  return { s.push (.directive directive) with cursor, keyAllowed := false }

/-- The mark at the start or the end of a document. -/
def takeMark? (s : Scan) (token : Token) : Option Scan := do
  let s ← (s.closeBlocks none).dropCandidate?
  return { s.sign 3 token with keyAllowed := false }

/-- An opening brace. -/
def takeOpening? (s : Scan) : Option Scan := do
  let s ← s.addCandidate?
  return { s.sign 1 .flowStart with
    candidate := none, outer := s.candidate :: s.outer, keyAllowed := true }

/-- A closing brace. -/
def takeClosing? (s : Scan) : Option Scan := do
  let s ← s.dropCandidate?
  match s.outer with
  | candidate :: outer => return { s.sign 1 .flowEnd with candidate, outer, keyAllowed := false }
  | [] => none

/-- A comma. -/
def takeComma? (s : Scan) : Option Scan := do
  let s ← s.dropCandidate?
  return { s.sign 1 .flowEntry with keyAllowed := true }

/-- A question mark that starts a key. -/
def takeQuestion? (s : Scan) : Option Scan := do
  if s.inFlow ∨ s.keyAllowed then
    let s ← (s.openBlock s.cursor.column s.tokens.size).dropCandidate?
    return { s.sign 1 .key with keyAllowed := !s.inFlow }
  else none

/-- A colon that ends a key. -/
def takeColon? (s : Scan) : Option Scan :=
  match s.candidate with
  | some candidate =>
    let position := candidate.position
    let tokens := s.tokens.extract 0 position ++ #[.key] ++ s.tokens.extract position
    let s := { s with tokens, candidate := none }.openBlock candidate.column position
    some { s.sign 1 .value with keyAllowed := false }
  | none =>
    if s.inFlow ∨ s.keyAllowed then
      let s := s.openBlock s.cursor.column s.tokens.size
      some { s.sign 1 .value with keyAllowed := !s.inFlow }
    else none

/-- An alias or an anchor. -/
def takeName? (s : Scan) (token : String → Token) : Option Scan := do
  let s ← s.addCandidate?
  let (name, rest) ← name? (s.cursor.rest.drop 1)
  return { s.push (token name) with cursor := s.cursor.moveTo rest, keyAllowed := false }

/-- A tag, which a blank or, in braces, a comma ends. -/
def takeTag? (s : Scan) : Option Scan := do
  let s ← s.addCandidate?
  let (tag, rest) ← tag? (s.cursor.rest.drop 1)
  if goesOn rest ∧ ¬ (s.inFlow ∧ rest.head? = some ',') then none
  else return { s.push (.tag tag) with cursor := s.cursor.moveTo rest, keyAllowed := false }

/-- A block scalar. -/
def takeBlock? (s : Scan) (style : Style) : Option Scan := do
  let s ← s.dropCandidate?
  let (text, cursor) ← block? (style == .folded) s.blocks.head? (s.cursor.advance 1)
  return { s.push (.scalar style (String.ofList text)) with cursor, keyAllowed := true }

/-- A scalar in quotes. -/
def takeQuoted? (s : Scan) (style : Style) : Option Scan := do
  let s ← s.addCandidate?
  let (text, cursor) ← quoted? style (s.cursor.rest.length + 1) (s.cursor.advance 1) []
  return { s.push (.scalar style (String.ofList text)) with cursor, keyAllowed := false }

/-- A plain scalar. -/
def takePlain? (s : Scan) : Option Scan := do
  let s ← s.addCandidate?
  let indent := match s.blocks.head? with
    | some column => column + 1
    | none => 0
  let (text, broken, cursor) ←
    plain? s.inFlow indent (s.cursor.rest.length + 1) s.cursor [] {}
  return { s.push (.scalar .plain (String.ofList text)) with cursor, keyAllowed := broken }

/-- Reads the token that starts with a character; `rest` follows it. -/
def take? (s : Scan) (c : Char) (rest : List Char) : Option Scan :=
  let ends := !goesOn rest
  if s.cursor.column == 0 && c == '%' then s.takeDirective?
  else if s.cursor.atMark '-' then s.takeMark? .documentStart
  else if s.cursor.atMark '.' then s.takeMark? .documentEnd
  else match c with
  | '\x7b' => s.takeOpening?
  | '\x7d' => s.takeClosing?
  | ',' => s.takeComma?
  | '?' => if s.inFlow || ends then s.takeQuestion? else s.takePlain?
  | ':' => if s.inFlow || ends then s.takeColon? else s.takePlain?
  | '*' => s.takeName? .alias
  | '&' => s.takeName? .anchor
  | '!' => s.takeTag?
  | '|' => if s.inFlow then none else s.takeBlock? .literal
  | '>' => if s.inFlow then none else s.takeBlock? .folded
  | '\'' => s.takeQuoted? .single
  | '"' => s.takeQuoted? .double
  | '-' => if ends then none else s.takePlain?
  | _ => if isBlank c || "[]#%@`".toList.contains c then none else s.takePlain?

/-! ### Reading a text -/

/-- Goes past blanks, comments and line breaks, at most `fuel` lines of them. Also tells whether a
key may start there. Tabs count as blanks only where no key may start. A byte order mark at the
start of a line is a blank that takes up a column. -/
def skipBlanks (flow : Bool) : Nat → Cursor → Bool → Cursor × Bool
  | 0, c, keyAllowed => (c, keyAllowed)
  | fuel + 1, c, keyAllowed =>
    let c := if c.column == 0 && c.rest.head? == some '\uFEFF' then c.advance 1 else c
    let c := c.skipWhile fun ch ↦ ch == ' ' || (ch == '\t' && (flow || !keyAllowed))
    let c := if c.rest.head? == some '#' then c.skipWhile (!isBreak ·) else c
    if c.rest.head?.any isBreak then skipBlanks flow fuel c.skipBreak (keyAllowed || !flow)
    else (c, keyAllowed)

/-- Goes to the next token and does what its place asks for. -/
def toToken? (s : Scan) : Option Scan := do
  let (cursor, keyAllowed) := skipBlanks s.inFlow (s.cursor.rest.length + 1) s.cursor s.keyAllowed
  let s ← { s with cursor, keyAllowed }.dropStale?
  return s.closeBlocks (some cursor.column)

/-- Reads the remaining tokens, at most `fuel` of them. -/
def run? : Nat → Scan → Option (Array Token)
  | 0, _ => none
  | fuel + 1, s => do
    let s ← s.toToken?
    match s.cursor.rest with
    | [] => return (← (s.closeBlocks none).dropCandidate?).tokens
    | c :: rest => run? fuel (← s.take? c rest)

end Scan

/-- The tokens of a text. -/
def tokens? (text : String) : Option (List Token) :=
  let chars := text.toList
  if chars.all isAllowed then
    (Scan.run? (chars.length + 1) { cursor := { rest := chars } }).map Array.toList
  else none

end Dataflow.Yaml
