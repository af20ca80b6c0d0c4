import Dataflow.Json.Read

/-!
# Tables and texts of TOML

What a TOML document is a tree of, and how the texts in it are written.
-/

set_option autoImplicit false
set_option relaxedAutoImplicit false

/-!
## The tables of a TOML document

A document is a tree of tables. A table comes about in one of four ways: by a header of its own,
because a header names a table below it, because a dotted key names a value below it, or in braces.
How it came about says what may still be added to it:

* a header may give a table a second time only if the table was so far implied by deeper headers;
* a dotted key may reach into tables that were implied or came about by dotted keys, and it may set a
  value only in a table that came about by dotted keys or in the one under the current header;
* nothing is added to a table in braces.

A name stands for one value in a table. Under a header in double brackets the name stands for a list
of tables, and deeper headers and keys mean the last of them.
-/

namespace Dataflow.Toml

/-- How a table came about. -/
inductive Origin
  | header
  | implied
  | dotted
  | braces
  deriving DecidableEq, Repr

/-- A value of a document. -/
inductive Node
  | text (s : String)
  | integer (n : Int)
  /-- A float, a truth value, a date or a time. -/
  | other
  | list (items : List Node)
  /-- Tables under headers in double brackets. -/
  | tables (items : List Node)
  | table (origin : Origin) (entries : List (String × Node))

/-- Values by name, in the order they were given. -/
abbrev Entries : Type :=
  List (String × Node)

namespace Entries

/-- Gives a name a value, in place of its former one if it had one. -/
def put (key : String) (value : Node) : Entries → Entries
  | [] => [(key, value)]
  | (k, v) :: rest => if k = key then (k, value) :: rest else (k, v) :: put key value rest

/-- Changes the table a path leads to. Tables on the way are made if they are not there, and what
they were made by is `dotted` for the path of a dotted key and `implied` for that of a header. -/
def alter (origin : Origin) (change : Origin → Entries → Option Node) :
    List String → Origin → Entries → Option Node
  | [], self, entries => change self entries
  | key :: path, self, entries => do
    let inner ←
      match entries.lookup key with
      | none => alter origin change path origin []
      | some (.table o es) =>
        if o = .braces ∨ (origin = .dotted ∧ o = .header) then none
        else alter origin change path o es
      | some (.tables items) =>
        match items.getLast? with
        | some (.table o es) => do
          return .tables (items.dropLast ++ [← alter origin change path o es])
        | _ => none
      | some _ => none
    return .table self (put key inner entries)

/-- Adds a value under a new name. `nested` says that a dotted key leads to the table. -/
def add (nested : Bool) (key : String) (value : Node) (self : Origin) (entries : Entries) :
    Option Node :=
  if (nested ∧ self ≠ .dotted) ∨ (entries.lookup key).isSome then none
  else some (.table self (entries ++ [(key, value)]))

/-- Sets the value of a dotted key in a table. -/
def assign (path : List String) (key : String) (value : Node) (self : Origin) (entries : Entries) :
    Option Node :=
  alter .dotted (add (!path.isEmpty) key value) path self entries

/-- Gives a table its header. -/
def openTable (key : String) (self : Origin) (entries : Entries) : Option Node :=
  match entries.lookup key with
  | none => some (.table self (put key (.table .header []) entries))
  | some (.table .implied es) => some (.table self (put key (.table .header es) entries))
  | some _ => none

/-- Adds one more table under a header in double brackets. -/
def openNext (key : String) (self : Origin) (entries : Entries) : Option Node :=
  match entries.lookup key with
  | none => some (.table self (put key (.tables [.table .header []]) entries))
  | some (.tables items) =>
    some (.table self (put key (.tables (items ++ [.table .header []])) entries))
  | some _ => none

end Entries

/-!
## Texts in TOML

A text stands in double quotes, where a backslash starts an escape, or in single quotes, where every
character stands for itself. In three quotes of either kind it may run over several lines: a line
break right after the opening quotes does not count, every other one is a line feed, and one or two
quotes may stand anywhere, also right before the closing ones. In three double quotes a backslash at
the end of a line drops the line break and all blanks and line breaks after it.

Control characters other than the tab do not stand in a text.
-/

/-- Space and tab. -/
def isBlank (c : Char) : Bool :=
  c == ' ' || c == '\t'

/-- A character that may stand in texts and comments: a tab or no control character. -/
def isPlain (c : Char) : Bool :=
  c == '\t' || (' ' ≤ c && c != '\x7f')

/-- The rest after a line break, which is a line feed with or without a carriage return. -/
def newline? : List Char → Option (List Char)
  | '\n' :: rest => some rest
  | '\r' :: '\n' :: rest => some rest
  | _ => none

/-- The character of a one-letter escape. -/
def shortEscape? : Char → Option Char
  | 'b' => some '\x08'
  | 't' => some '\t'
  | 'n' => some '\n'
  | 'f' => some '\x0c'
  | 'r' => some '\r'
  | '"' => some '"'
  | '\\' => some '\\'
  | _ => none

/-- The character with a number, if there is one. -/
def charOf? (n : Nat) : Option Char :=
  if n < 0xD800 ∨ (0xDFFF < n ∧ n < 0x110000) then some (Char.ofNat n) else none

/-- The character written by hexadecimal digits. -/
def hexChar? (digits : List Char) : Option Char := do
  let values ← digits.mapM Json.Reader.hexValue?
  charOf? (values.foldl (fun n d ↦ 16 * n + d) 0)

/-- Reads an escape after its backslash. -/
def escape? : List Char → Option (Char × List Char)
  | 'u' :: rest => do
    if rest.length < 4 then none else return (← hexChar? (rest.take 4), rest.drop 4)
  | 'U' :: rest => do
    if rest.length < 8 then none else return (← hexChar? (rest.take 8), rest.drop 8)
  | c :: rest => (shortEscape? c).map (·, rest)
  | [] => none

/-- The length of the run of a quote at the front. -/
def quoteRun (quote : Char) (cs : List Char) : Nat :=
  (cs.takeWhile (· == quote)).length

/-- Reads the rest of a one-line text after its opening quote, in at most `fuel` steps. -/
def lineBody (quote : Char) : Nat → List Char → List Char → Option (List Char × List Char)
  | 0, _, _ => none
  | fuel + 1, cs, done =>
    match cs with
    | [] => none
    | c :: rest =>
      if c = quote then some (done.reverse, rest)
      else if c = '\\' ∧ quote = '"' then
        match escape? rest with
        | some (e, rest) => lineBody quote fuel rest (e :: done)
        | none => none
      else if isPlain c then lineBody quote fuel rest (c :: done)
      else none

/-- What stands behind leading blanks and line breaks, at most `fuel` of them. -/
def skipGaps : Nat → List Char → List Char
  | 0, cs => cs
  | fuel + 1, cs =>
    match newline? cs, cs with
    | some rest, _ => skipGaps fuel rest
    | none, c :: rest => if isBlank c then skipGaps fuel rest else cs
    | none, [] => []

/-- What a text goes on with after a backslash at the end of a line. -/
def continuation? (cs : List Char) : Option (List Char) :=
  (newline? (cs.dropWhile isBlank)).map fun rest ↦ skipGaps rest.length rest

/-- Reads the rest of a text of several lines after its opening quotes, in at most `fuel` steps. -/
def linesBody (quote : Char) : Nat → List Char → List Char → Option (List Char × List Char)
  | 0, _, _ => none
  | fuel + 1, cs, done =>
    match cs with
    | [] => none
    | c :: rest =>
      if c = quote then
        let run := quoteRun quote cs
        if run < 3 then linesBody quote fuel (cs.drop run) (List.replicate run quote ++ done)
        else if run < 6 then
          some (done.reverse ++ List.replicate (run - 3) quote, cs.drop run)
        else none
      else if c = '\\' ∧ quote = '"' then
        match continuation? rest with
        | some rest => linesBody quote fuel rest done
        | none =>
          match escape? rest with
          | some (e, rest) => linesBody quote fuel rest (e :: done)
          | none => none
      else
        match newline? cs with
        | some rest => linesBody quote fuel rest ('\n' :: done)
        | none => if isPlain c then linesBody quote fuel rest (c :: done) else none

/-- Reads a text at its opening quote; `several` says whether it may run over several lines. -/
def quoted? (several : Bool) (quote : Char) (cs : List Char) : Option (String × List Char) :=
  let body :=
    if several ∧ 3 ≤ quoteRun quote cs then
      let rest := cs.drop 3
      linesBody quote (rest.length + 1) ((newline? rest).getD rest) []
    else lineBody quote (cs.length + 1) (cs.drop 1) []
  body.map fun (text, rest) ↦ (String.ofList text, rest)

end Dataflow.Toml
