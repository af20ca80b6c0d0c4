import Dataflow.Yaml.Tag

/-!
# Scalars in YAML

A scalar is a text in one of five styles. *Plain* scalars stand without quotes, up to a comment, a
colon before a blank or, inside braces, a flow indicator. *Single* and *double* quotes enclose a
scalar; double quotes know escapes. In these three styles a line break is *folded*: blanks around it
vanish, and it becomes a space, or, if blank lines follow it, as many line feeds as there are blank
lines.

A *literal* block keeps its lines, a *folded* block folds those between two lines that do not start
with a blank. The indentation of a block is that of its first line unless its head gives it. The
line break at the end of a block is kept, with a minus in the head it is dropped, and with a plus
all blank lines after it are kept too.
-/

set_option autoImplicit false
set_option relaxedAutoImplicit false

namespace Dataflow.Yaml

/-- How a scalar is written. -/
inductive Style
  | plain
  | single
  | double
  | literal
  | folded
  deriving DecidableEq, Repr

/-! ### Folding -/

/-- The blanks and line breaks met since the last other character. -/
structure Gap where
  /-- Blanks before the first line break. -/
  blanks : List Char := []
  /-- Whether there was a line break. -/
  broken : Bool := false
  /-- The first line break, unless it was escaped. -/
  first : Option Char := none
  /-- The further line breaks. -/
  more : List Char := []

/-- What a gap reads as. -/
def Gap.text (gap : Gap) : List Char :=
  if gap.broken then
    match gap.first with
    | some '\n' => if gap.more.isEmpty then [' '] else gap.more
    | first => first.toList ++ gap.more
  else gap.blanks

/-- Goes through blanks and line breaks, at most `fuel` of them. A tab must not stand before the
column `indent` of a further line. -/
def skipGap (indent : Nat) : Nat → Cursor → Gap → Option (Gap × Cursor)
  | 0, c, gap => some (gap, c)
  | fuel + 1, c, gap =>
    match c.rest with
    | [] => some (gap, c)
    | ch :: _ =>
      if isBlank ch then
        if gap.broken then
          if c.column < indent ∧ ch = '\t' then none
          else skipGap indent fuel (c.advance 1) gap
        else skipGap indent fuel (c.advance 1) { gap with blanks := gap.blanks ++ [ch] }
      else if isBreak ch then
        let (read, c) := c.takeBreak
        if gap.broken then skipGap indent fuel c { gap with more := gap.more ++ [read] }
        else skipGap indent fuel c { gap with broken := true, first := some read }
      else some (gap, c)

/-! ### Plain scalars -/

/-- A character that ends a plain scalar inside braces. -/
def isFlowIndicator (c : Char) : Bool :=
  c == ',' || c == '[' || c == ']' || c == '{' || c == '}'

/-- The characters of a plain scalar up to the next gap or its end. Inside braces a colon must not
stand before an indicator. -/
def plainRun (flow : Bool) : List Char → Option (List Char × List Char)
  | [] => some ([], [])
  | c :: rest =>
    if isBlank c || isBreak c then some ([], c :: rest)
    else if flow && c == ':' && rest.head?.any (fun d ↦ isFlowIndicator d || d == '?') then none
    else if (c == ':' && !goesOn rest) || (flow && isFlowIndicator c) then some ([], c :: rest)
    else (plainRun flow rest).map fun (run, rest) ↦ (c :: run, rest)

/-- Reads a plain scalar, in at most `fuel` parts. `done` is what was read before and `gap` what
followed it. Also tells whether the scalar ends before a line break. -/
def plain? (flow : Bool) (indent : Nat) :
    Nat → Cursor → List Char → Gap → Option (List Char × Bool × Cursor)
  | 0, _, _, _ => none
  | fuel + 1, c, done, gap =>
    if c.atDocumentMark ∨ c.rest.head? = some '#' then some (done, gap.broken, c)
    else
      match plainRun flow c.rest with
      | none => none
      | some ([], _) => some (done, gap.broken, c)
      | some (run, rest) =>
        let done := done ++ gap.text ++ run
        let c := c.moveTo rest
        if rest.isEmpty ∨ goesOn rest then some (done, false, c)
        else
          match skipGap indent (rest.length + 1) c {} with
          | none => none
          | some (gap, c) =>
            if ¬ flow ∧ c.column < indent then some (done, gap.broken, c)
            else plain? flow indent fuel c done gap

/-! ### Quoted scalars -/

/-- The character of a one-letter escape. -/
def shortEscape? : Char → Option Char
  | '0' => some '\x00'
  | 'a' => some '\x07'
  | 'b' => some '\x08'
  | 't' => some '\t'
  | '\t' => some '\t'
  | 'n' => some '\n'
  | 'v' => some '\x0b'
  | 'f' => some '\x0c'
  | 'r' => some '\r'
  | 'e' => some '\x1b'
  | ' ' => some ' '
  | '"' => some '"'
  | '/' => some '/'
  | '\\' => some '\\'
  | 'N' => some '\x85'
  | '_' => some '\xa0'
  | 'L' => some '\u2028'
  | 'P' => some '\u2029'
  | _ => none

/-- How many hexadecimal digits follow a letter in an escape. -/
def escapeDigits? : Char → Option Nat
  | 'x' => some 2
  | 'u' => some 4
  | 'U' => some 8
  | _ => none

/-- Reads an escape after its backslash. -/
def escape? : List Char → Option (Char × List Char)
  | [] => none
  | c :: rest =>
    match escapeDigits? c with
    | none => (shortEscape? c).map (·, rest)
    | some count => do
      let digits := rest.take count
      let values ← digits.mapM Json.Reader.hexValue?
      let n := values.foldl (fun n d ↦ 16 * n + d) 0
      if values.length < count ∨ (0xD800 ≤ n ∧ n ≤ 0xDFFF) ∨ 0x10FFFF < n then none
      else return (Char.ofNat n, rest.drop count)

/-- Where a part of a quoted scalar ends. -/
inductive Stop
  | quote
  | gap
  | escapedBreak

/-- The characters of a quoted scalar up to the next gap or its end, in at most `fuel` steps. -/
def quotedRun (style : Style) : Nat → List Char → Option (List Char × Stop × List Char)
  | 0, _ => none
  | fuel + 1, cs =>
    let more (c : Char) (rest : List Char) : Option (List Char × Stop × List Char) :=
      (quotedRun style fuel rest).map fun (run, stop, rest) ↦ (c :: run, stop, rest)
    match style, cs with
    | _, [] => none
    | .single, '\'' :: '\'' :: rest => more '\'' rest
    | .single, '\'' :: rest => some ([], .quote, rest)
    | .double, '"' :: rest => some ([], .quote, rest)
    | .double, '\\' :: rest =>
      if rest.head?.any isBreak then some ([], .escapedBreak, rest)
      else
        match escape? rest with
        | some (c, rest) => more c rest
        | none => none
    | _, c :: rest => if isBlank c || isBreak c then some ([], .gap, cs) else more c rest

/-- Reads the rest of a quoted scalar after its opening quote, in at most `fuel` parts; `done` is
what was read before. -/
def quoted? (style : Style) : Nat → Cursor → List Char → Option (List Char × Cursor)
  | 0, _, _ => none
  | fuel + 1, c, done =>
    if c.atDocumentMark then none
    else
      match quotedRun style (c.rest.length + 1) c.rest with
      | none => none
      | some (run, .quote, rest) => some (done ++ run, c.moveTo rest)
      | some (run, stop, rest) =>
        let c := c.moveTo rest
        let (c, gap) : Cursor × Gap :=
          match stop with
          | .escapedBreak => (c.skipBreak, { broken := true })
          | _ => (c, {})
        match skipGap 0 (c.rest.length + 1) c gap with
        | some (gap, c) => quoted? style fuel c (done ++ run ++ gap.text)
        | none => none

/-! ### Blocks -/

/-- What is done with the line breaks at the end of a block. -/
inductive Chomp
  | strip
  | clip
  | keep

/-- The head of a block: its chomping, and its indentation if given. -/
def blockHead? (c : Cursor) : Option (Chomp × Option Nat × Cursor) :=
  let chomp? (c : Cursor) : Option (Chomp × Cursor) :=
    match c.rest with
    | '+' :: _ => some (.keep, c.advance 1)
    | '-' :: _ => some (.strip, c.advance 1)
    | _ => none
  let digit? (c : Cursor) : Option (Nat × Cursor) :=
    match c.rest with
    | d :: _ => if d.isDigit then some (d.toNat - 48, c.advance 1) else none
    | [] => none
  let head : Chomp × Option Nat × Cursor :=
    match chomp? c with
    | some (chomp, c) =>
      match digit? c with
      | some (n, c) => (chomp, some n, c)
      | none => (chomp, none, c)
    | none =>
      match digit? c with
      | some (n, c) =>
        match chomp? c with
        | some (chomp, c) => (chomp, some n, c)
        | none => (.clip, some n, c)
      | none => (.clip, none, c)
  match head with
  | (_, some 0, _) => none
  | (chomp, increment, c) => c.lineEnd?.map fun c ↦ (chomp, increment, c)

/-- Goes through blank lines and the indentation of the line after them, at most `fuel` lines. With
no `indent` given any indentation counts, and the greatest one met is told. Gives the line breaks
read. -/
def blankLines (indent : Option Nat) :
    Nat → Cursor → Nat → List Char → Option (List Char × Nat × Cursor)
  | 0, _, _, _ => none
  | fuel + 1, c, widest, breaks =>
    let spaces := (c.rest.takeWhile (· == ' ')).length
    let c := c.advance (match indent with
      | some n => min spaces (n - c.column)
      | none => spaces)
    let widest := max widest c.column
    match c.rest with
    | ch :: _ =>
      if ch = '\t' ∧ indent.all (c.column < ·) then none
      else if isBreak ch then
        let (read, c) := c.takeBreak
        blankLines indent fuel c widest (breaks ++ [read])
      else some (breaks, widest, c)
    | [] => some (breaks, widest, c)

/-- Reads the lines of a block, at most `fuel` of them. `ending` is the break of the line before and
`breaks` those of the blank lines after it; `blank` says whether that line started with a blank. -/
def blockLines (folded : Bool) (chomp : Chomp) (indent : Nat) :
    Nat → Cursor → List Char → Option Char → List Char → Bool → Option (List Char × Cursor)
  | 0, _, _, _, _, _ => none
  | fuel + 1, c, done, ending, breaks, blank =>
    match c.rest with
    | ch :: _ =>
      if c.column = indent then
        let starts := isBlank ch
        let joint :=
          if folded ∧ ending = some '\n' ∧ ¬ blank ∧ ¬ starts then
            (if breaks.isEmpty then [' '] else [])
          else ending.toList
        let line := c.rest.takeWhile (!isBreak ·)
        let done := done ++ joint ++ breaks ++ line
        let c := c.advance line.length
        let (ending, c) : Option Char × Cursor :=
          if c.rest.isEmpty then (none, c)
          else
            let (read, c) := c.takeBreak
            (some read, c)
        match blankLines (some indent) (c.rest.length + 1) c 0 [] with
        | some (breaks, _, c) => blockLines folded chomp indent fuel c done ending breaks starts
        | none => none
      else some (finish done ending breaks, c)
    | [] => some (finish done ending breaks, c)
where
  /-- The text of a block with what is kept of its last line breaks. -/
  finish (done : List Char) (ending : Option Char) (breaks : List Char) : List Char :=
    match chomp with
    | .strip => done
    | .clip => done ++ ending.toList
    | .keep => done ++ ending.toList ++ breaks

/-- Reads a block after its indicator. `parent` is the indentation around it, if there is any. -/
def block? (folded : Bool) (parent : Option Nat) (c : Cursor) : Option (List Char × Cursor) := do
  let (chomp, increment, c) ← blockHead? c
  let given := increment.map (parent.getD 0 + ·)
  let (breaks, widest, c) ← blankLines given (c.rest.length + 1) c 0 []
  let least := match parent with
    | some n => n + 1
    | none => 1
  let indent := given.getD (max widest least)
  blockLines folded chomp indent (c.rest.length + 1) c [] none breaks false

end Dataflow.Yaml
