import Dataflow.Toml.Number

/-!
# Reading TOML

A document is a sequence of lines: headers, keys with their values, comments and blank lines. A
value is a text, a number, a truth value, a list, or a table in braces. A list may run over several
lines and may end in a comma; a table in braces does neither.
-/

set_option autoImplicit false
set_option relaxedAutoImplicit false

namespace Dataflow.Toml

/-! ### Blanks and comments -/

/-- What stands behind leading blanks. -/
def skipBlanks (cs : List Char) : List Char :=
  cs.dropWhile isBlank

/-- What stands behind a comment, if there is one. -/
def skipComment : List Char → List Char
  | '#' :: rest => rest.dropWhile isPlain
  | cs => cs

/-- The next line, if nothing but blanks and a comment is left on this one. -/
def lineEnd? (cs : List Char) : Option (List Char) :=
  match skipComment (skipBlanks cs) with
  | [] => some []
  | rest => newline? rest

/-- What stands behind blanks, comments and line breaks, at most `fuel` of them. -/
def skipLines : Nat → List Char → List Char
  | 0, cs => cs
  | fuel + 1, cs =>
    match newline? cs, cs with
    | some rest, _ => skipLines fuel rest
    | none, c :: rest =>
      if isBlank c then skipLines fuel rest
      else if c = '#' then skipLines fuel (rest.dropWhile isPlain)
      else cs
    | none, [] => []

/-! ### Keys -/

/-- A character of a bare key. -/
def isBare (c : Char) : Bool :=
  c.isAlphanum || c == '_' || c == '-'

/-- Reads one part of a key. -/
def keyPart? (cs : List Char) : Option (String × List Char) :=
  match cs with
  | [] => none
  | c :: _ =>
    if c = '"' ∨ c = '\'' then quoted? false c cs
    else
      match cs.takeWhile isBare with
      | [] => none
      | bare => some (String.ofList bare, cs.dropWhile isBare)

/-- How many parts a key may have, and how deep lists and tables in braces may be nested. -/
def depthLimit : Nat := 79

/-- Reads at most `count` parts of a key, with the blanks around each of them. -/
def keyParts? : Nat → List Char → Option (List String × List Char)
  | 0, _ => none
  | count + 1, cs => do
    let (part, rest) ← keyPart? (skipBlanks cs)
    match skipBlanks rest with
    | '.' :: rest => do
      let (parts, rest) ← keyParts? count rest
      return (part :: parts, rest)
    | rest => return ([part], rest)

/-- Reads a key. -/
def key? (cs : List Char) : Option (List String × List Char) :=
  keyParts? depthLimit cs

/-- The path of a key and its last part. -/
def splitKey (parts : List String) : List String × String :=
  (parts.dropLast, (parts.getLast?).getD "")

/-! ### Values -/

/-- The rest after a given word. -/
def word? (word : List Char) (cs : List Char) : Option (List Char) :=
  if word.isPrefixOf cs then some (cs.drop word.length) else none

mutual

/-- Reads a value with at most `depth` levels of nesting, in at most `fuel` steps. -/
def value? (depth : Nat) : Nat → List Char → Option (Node × List Char)
  | 0, _ => none
  | fuel + 1, cs =>
    match cs with
    | '[' :: rest =>
      if depth = 0 then none
      else (items? (depth - 1) fuel rest).map fun (items, rest) ↦ (.list items, rest)
    | '{' :: rest =>
      if depth = 0 then none
      else
        match skipBlanks rest with
        | '}' :: rest => some (.table .braces [], rest)
        | _ => pairs? (depth - 1) fuel rest []
    | 't' :: _ => (word? ['t', 'r', 'u', 'e'] cs).map (Node.other, ·)
    | 'f' :: _ => (word? ['f', 'a', 'l', 's', 'e'] cs).map (Node.other, ·)
    | '"' :: _ => (quoted? true '"' cs).map fun (s, rest) ↦ (.text s, rest)
    | '\'' :: _ => (quoted? true '\'' cs).map fun (s, rest) ↦ (.text s, rest)
    | _ => number? cs

/-- Reads the items of a list up to its bracket, in at most `fuel` steps. -/
def items? (depth : Nat) : Nat → List Char → Option (List Node × List Char)
  | 0, _ => none
  | fuel + 1, cs =>
    match skipLines cs.length cs with
    | ']' :: rest => some ([], rest)
    | cs => do
      let (item, rest) ← value? depth fuel cs
      match skipLines rest.length rest with
      | ',' :: rest => do
        let (items, rest) ← items? depth fuel rest
        return (item :: items, rest)
      | ']' :: rest => return ([item], rest)
      | _ => none

/-- Reads the keys and values of a nonempty table in braces up to its brace, in at most `fuel`
steps; `done` holds what was read before. -/
def pairs? (depth : Nat) : Nat → List Char → Entries → Option (Node × List Char)
  | 0, _, _ => none
  | fuel + 1, cs, done => do
    let (parts, rest) ← key? cs
    let rest ← after? '=' rest
    let (value, rest) ← value? depth fuel (skipBlanks rest)
    let (path, key) := splitKey parts
    match ← done.assign path key value .braces, skipBlanks rest with
    | .table _ entries, ',' :: rest => pairs? depth fuel rest entries
    | table, '}' :: rest => return (table, rest)
    | _, _ => none

end

/-! ### Documents -/

/-- The entries of the whole document, and the path of the table under the current header. -/
structure Progress where
  entries : Entries := []
  header : List String := []

/-- Changes the table a path of headers leads to. -/
def Progress.alter (p : Progress) (path : List String)
    (change : Origin → Entries → Option Node) : Option Entries := do
  match ← Entries.alter .implied change path .header p.entries with
  | .table _ entries => return entries
  | _ => none

/-- Reads a header after its first bracket. -/
def header? (p : Progress) (cs : List Char) : Option (Progress × List Char) := do
  let (next, cs) :=
    match cs with
    | '[' :: rest => (true, rest)
    | cs => (false, cs)
  let (parts, rest) ← key? cs
  let rest ← after? ']' rest
  let rest ← if next then after? ']' rest else some rest
  let (path, key) := splitKey parts
  let entries ← p.alter path (if next then Entries.openNext key else Entries.openTable key)
  return (⟨entries, parts⟩, ← lineEnd? rest)

/-- Reads a key and its value. -/
def assignment? (p : Progress) (cs : List Char) : Option (Progress × List Char) := do
  let (parts, rest) ← key? cs
  let rest ← after? '=' rest
  let (value, rest) ← value? depthLimit (2 * rest.length + 2) (skipBlanks rest)
  let (path, key) := splitKey parts
  let entries ← p.alter p.header fun self entries ↦ entries.assign path key value self
  return ({ p with entries }, ← lineEnd? rest)

/-- Reads at most `fuel` lines. -/
def lines? : Nat → Progress → List Char → Option Entries
  | 0, _, _ => none
  | fuel + 1, p, cs =>
    match skipBlanks cs with
    | [] => some p.entries
    | '[' :: rest => do
      let (p, rest) ← header? p rest
      lines? fuel p rest
    | c :: rest =>
      if c = '#' ∨ (newline? (c :: rest)).isSome then do
        lines? fuel p (← lineEnd? (c :: rest))
      else do
        let (p, rest) ← assignment? p (c :: rest)
        lines? fuel p rest

/-- Reads a document. A byte order mark at its start does not count. -/
def read? (text : String) : Option Node :=
  let cs :=
    match text.toList with
    | '\ufeff' :: rest => rest
    | cs => cs
  (lines? (cs.length + 1) {} cs).map (.table .header ·)

end Dataflow.Toml
