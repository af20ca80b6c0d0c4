import Dataflow.Json.Read

/-!
# Places, names and tags in YAML

What the readers of tokens and nodes go through a text with, and the marks that are not content.
-/

set_option autoImplicit false
set_option relaxedAutoImplicit false

/-!
## Places in a YAML text

A `Cursor` is a place in a text: the characters that follow, and how many characters, lines and
columns lie before it. Columns decide about nesting, and a key that needs no mark must stand on one
line and within 1024 characters of its colon.

A line ends at a line feed, a carriage return, both in this order, a next line, a line separator or
a paragraph separator. Inside a text every one of the first four is a line feed.
-/

namespace Dataflow.Yaml

/-! ### Characters -/

/-- Space and tab. -/
def isBlank (c : Char) : Bool :=
  c == ' ' || c == '\t'

/-- A line break. -/
def isBreak (c : Char) : Bool :=
  c == '\n' || c == '\r' || c == '\x85' || c == '\u2028' || c == '\u2029'

/-- Whether a text goes on with something other than a blank or a line break. -/
def goesOn : List Char → Bool
  | [] => false
  | c :: _ => !isBlank c && !isBreak c

/-- A letter, a digit, an underscore or a hyphen. -/
def isWordChar (c : Char) : Bool :=
  c.isAlphanum || c == '_' || c == '-'

/-- The characters a text may hold: all but the control characters, surrogates and noncharacters; of
the control characters the tab and the line breaks. -/
def isAllowed (c : Char) : Bool :=
  let n := c.toNat
  n == 0x09 || n == 0x0A || n == 0x0D || (0x20 ≤ n && n ≤ 0x7E) || n == 0x85 ||
    (0xA0 ≤ n && n ≤ 0xD7FF) || (0xE000 ≤ n && n ≤ 0xFFFD) || 0x10000 ≤ n

/-! ### Cursors -/

/-- A place in a text. -/
structure Cursor where
  rest : List Char
  index : Nat := 0
  line : Nat := 0
  column : Nat := 0
  deriving Repr

namespace Cursor

/-- Moves past characters of the current line. -/
def advance (c : Cursor) (count : Nat) : Cursor :=
  { c with rest := c.rest.drop count, index := c.index + count, column := c.column + count }

/-- Moves to a later place of the current line, given by the characters that follow it. -/
def moveTo (c : Cursor) (rest : List Char) : Cursor :=
  c.advance (c.rest.length - rest.length)

/-- Moves past all characters of a kind that does not include line breaks. -/
def skipWhile (c : Cursor) (p : Char → Bool) : Cursor :=
  c.advance (c.rest.takeWhile p).length

/-- Moves past a line break, and tells how it reads inside a text. -/
def takeBreak (c : Cursor) : Char × Cursor :=
  let past (read : Char) (count : Nat) : Char × Cursor :=
    (read, { rest := c.rest.drop count, index := c.index + count, line := c.line + 1, column := 0 })
  match c.rest with
  | '\r' :: '\n' :: _ => past '\n' 2
  | '\u2028' :: _ => past '\u2028' 1
  | '\u2029' :: _ => past '\u2029' 1
  | _ => past '\n' 1

/-- Moves past a line break. -/
def skipBreak (c : Cursor) : Cursor :=
  c.takeBreak.2

/-- Moves past blanks and a comment to the next line, if nothing else is left on this one. -/
def lineEnd? (c : Cursor) : Option Cursor :=
  let c := c.skipWhile isBlank
  let c := if c.rest.head? = some '#' then c.skipWhile (!isBreak ·) else c
  match c.rest with
  | [] => some c
  | ch :: _ => if isBreak ch then some c.skipBreak else none

/-- Whether a mark of three equal characters stands alone at the start of the line. -/
def atMark (c : Cursor) (mark : Char) : Bool :=
  c.column == 0 && c.rest.take 3 == [mark, mark, mark] && !goesOn (c.rest.drop 3)

/-- Whether a document starts or ends here by its mark. -/
def atDocumentMark (c : Cursor) : Bool :=
  c.atMark '-' || c.atMark '.'

end Cursor

/-!
## Names, tags and directives in YAML

An anchor gives a node a name by which an alias refers to it. A tag gives a node a kind. It is
written whole between angle brackets, or as a *handle*, which stands for the beginning of the tag,
and the rest. A percent sign and two hexadecimal digits in a tag stand for an octet of a character.

A directive before a document states the version of the format or what a handle stands for.
-/

/-- Reads the name of an anchor or an alias after its sign. -/
def name? (cs : List Char) : Option (String × List Char) :=
  let name := cs.takeWhile isWordChar
  let rest := cs.dropWhile isWordChar
  let ends := !goesOn rest || rest.head?.any "?:,]\x7d%@`".toList.contains
  if name.isEmpty || !ends then none else some (String.ofList name, rest)

/-! ### The text of a tag -/

/-- A character of a tag. Between angle brackets and in directives more are allowed. -/
def isTagChar (wide : Bool) (c : Char) : Bool :=
  isWordChar c || ";/?:@&=+$.!~*'()".toList.contains c || (wide && ",[]".toList.contains c)

/-- How many octets a character has, by its first octet. -/
def octetCount? (first : Nat) : Option Nat :=
  if first < 0x80 then some 1
  else if first < 0xC0 then none
  else if first < 0xE0 then some 2
  else if first < 0xF0 then some 3
  else if first < 0xF8 then some 4
  else none

/-- Reads some escaped octets. -/
def octets? : Nat → List Char → Option (List Nat × List Char)
  | 0, cs => some ([], cs)
  | count + 1, '%' :: high :: low :: rest => do
    let octet := 16 * (← Json.Reader.hexValue? high) + (← Json.Reader.hexValue? low)
    let (more, rest) ← octets? count rest
    return (octet :: more, rest)
  | _, _ => none

/-- Reads the escaped octets of one character. Octets that look like a character but are none count
as the replacement character. -/
def escapedChar? (cs : List Char) : Option (Char × List Char) := do
  let (first, _) ← octets? 1 cs
  let count ← octetCount? (first.headD 0)
  let (octets, rest) ← octets? count cs
  if octets.tail.all fun octet ↦ 0x80 ≤ octet && octet < 0xC0 then
    let read := String.fromUTF8? ⟨(octets.map UInt8.ofNat).toArray⟩
    return ((read.bind (·.toList.head?)).getD '\uFFFD', rest)
  else none

/-- Reads characters of a tag, at most `fuel` of them. -/
def tagChars? (wide : Bool) : Nat → List Char → Option (List Char × List Char)
  | 0, _ => none
  | fuel + 1, cs =>
    match cs with
    | [] => some ([], [])
    | '%' :: _ => do
      let (c, rest) ← escapedChar? cs
      let (more, rest) ← tagChars? wide fuel rest
      return (c :: more, rest)
    | c :: rest =>
      if isTagChar wide c then
        (tagChars? wide fuel rest).map fun (more, rest) ↦ (c :: more, rest)
      else some ([], cs)

/-- Reads the text of a tag, which is not empty. -/
def tagText? (wide : Bool) (cs : List Char) : Option (String × List Char) := do
  let (text, rest) ← tagChars? wide (cs.length + 1) cs
  if text.isEmpty then none else return (String.ofList text, rest)

/-! ### Tags -/

/-- A tag as it is written. -/
structure Tag where
  /-- The handle that stands for the beginning of the tag, if there is one. -/
  handle : Option String
  /-- The rest of the tag. -/
  suffix : String
  deriving Repr

/-- Reads a tag after its exclamation mark. A lone exclamation mark is a tag of its own. -/
def tag? (cs : List Char) : Option (Tag × List Char) :=
  match cs with
  | '<' :: rest => do
    match ← tagText? true rest with
    | (text, '>' :: rest) => return (⟨none, text⟩, rest)
    | _ => none
  | _ => do
    let word := cs.takeWhile isWordChar
    match cs.dropWhile isWordChar with
    | '!' :: rest =>
      let (text, rest) ← tagText? false rest
      return (⟨some (String.ofList ('!' :: word ++ ['!'])), text⟩, rest)
    | rest =>
      let (text, rest) ← tagChars? false (rest.length + 1) rest
      let suffix := word ++ text
      return (if suffix.isEmpty then ⟨none, "!"⟩ else ⟨some "!", String.ofList suffix⟩, rest)

/-! ### Directives -/

/-- What a directive states. -/
inductive Directive
  /-- The version of the format is one that is known. -/
  | version
  /-- A handle stands for a text. -/
  | handle (handle text : String)
  deriving Repr

/-- Reads a number of at most nine digits. -/
def shortNumber? (cs : List Char) : Option (Nat × List Char) :=
  let digits := cs.takeWhile Char.isDigit
  if digits.isEmpty || 9 < digits.length then none
  else some (digits.foldl (fun n d ↦ 10 * n + (d.toNat - 48)) 0, cs.drop digits.length)

/-- Reads the version in a directive. -/
def version? (cs : List Char) : Option (List Char) := do
  match ← shortNumber? cs with
  | (1, '.' :: rest) =>
    let (minor, rest) ← shortNumber? rest
    if minor = 1 ∨ minor = 2 then return rest else none
  | _ => none

/-- Reads a handle in a directive. -/
def handle? (cs : List Char) : Option (String × List Char) :=
  match cs with
  | '!' :: rest =>
    let word := rest.takeWhile isWordChar
    match rest.dropWhile isWordChar with
    | '!' :: rest => some (String.ofList ('!' :: word ++ ['!']), rest)
    | rest => if word.isEmpty then some ("!", rest) else none
  | _ => none

/-- Reads a directive after its percent sign, with the rest of its line. -/
def directive? (c : Cursor) : Option (Directive × Cursor) := do
  let name := c.rest.takeWhile isWordChar
  let c := c.advance name.length
  if goesOn c.rest then none
  else
    let c := c.skipWhile isBlank
    match String.ofList name with
    | "YAML" => return (.version, ← (c.moveTo (← version? c.rest)).lineEnd?)
    | "TAG" =>
      let (handle, rest) ← handle? c.rest
      if rest.head?.any isBlank then
        let c := (c.moveTo rest).skipWhile isBlank
        let (text, rest) ← tagText? true c.rest
        if goesOn rest then none
        else return (.handle handle text, ← (c.moveTo rest).lineEnd?)
      else none
    | _ => none

end Dataflow.Yaml
