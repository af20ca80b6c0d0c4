import Dataflow.Config.Basic
import Dataflow.Toml.Read
import Dataflow.Yaml.Node

/-!
# Configurations in files

The three formats a configuration is read from, and which of them a file holds.
-/

set_option autoImplicit false
set_option relaxedAutoImplicit false

/-!
## Configurations as JSON

A section is an object or a list of its fields. An option that is `null` counts as left out; a
section must not be `null`. A count is a whole number of at most 64 bits.
-/

namespace Dataflow.Config

/-- How JSON values are read. -/
def jsonFormat : Format Json where
  fields?
    | .object members => some (.named members)
    | .list items => some (.listed items)
    | _ => none
  text?
    | .null => some none
    | value => value.text?.map some
  count?
    | .null => some none
    | value => value.natural?.map some
  ignoresSurplus := false

/-- Reads a configuration from JSON. -/
def ofJson? (j : Json) : Option Config :=
  jsonFormat.read? j

/-!
## Configurations as TOML

A section is a table or a list of its fields, of which surplus ones are ignored. A count is an
integer that is not negative. There is no value that counts as left out.
-/

/-- How TOML values are read. -/
def tomlFormat : Format Toml.Node where
  fields?
    | .table _ entries => some (.named entries)
    | .list items => some (.listed items)
    | .tables items => some (.listed items)
    | _ => none
  text?
    | .text s => some (some s)
    | _ => none
  count?
    | .integer n => if 0 ≤ n then some (some n.toNat) else none
    | _ => none
  ignoresSurplus := true

/-- Reads a configuration from TOML text. -/
def ofToml? (text : String) : Option Config := do
  tomlFormat.read? (← Toml.read? text)

/-!
## Configurations as YAML

A section is a mapping with scalars as its keys, or a value that is left out. An option counts as
left out if its scalar is plain and empty, `~` or a spelling of `null`; a tag for null allows
nothing else. Any other scalar reads as text, also one that looks like a number.

A count is a plain scalar, or a literal block with the tag for integers. It is written in decimal
without a zero in front, or after `0x`, `0o` or `0b`; a plus may stand before. An empty text holds a
configuration without any option.
-/

namespace YamlValue

open Yaml (Document Style)

/-- The tag for null. -/
def nullTag : String := "tag:yaml.org,2002:null"

/-- The tag for integers. -/
def integerTag : String := "tag:yaml.org,2002:int"

/-- Whether a text spells null. -/
def isNull (text : String) : Bool :=
  ["null", "Null", "NULL", "~"].contains text

/-- The count that some digits of a base spell. -/
def digits? (base : Nat) (cs : List Char) : Option Nat := do
  let digits ← cs.mapM fun c ↦ (Json.Reader.hexValue? c).filter (· < base)
  let n := digits.foldl (fun n d ↦ base * n + d) 0
  if cs.isEmpty ∨ UInt64.size ≤ n then none else return n

/-- The count that a text spells. -/
def ofText? (text : String) : Option Nat :=
  let unsigned := match text.toList with
    | '+' :: rest => rest
    | cs => cs
  match unsigned with
  | '0' :: 'x' :: rest => digits? 16 rest
  | '0' :: 'o' :: rest => digits? 8 rest
  | '0' :: 'b' :: rest => digits? 2 rest
  | '0' :: _ :: _ => none
  | cs => digits? 10 cs

/-- A node, or what it stands for if it is an alias. -/
def resolve? (document : Document) : Yaml.Node → Option Yaml.Node
  | .alias number => document.target? number
  | node => some node

/-- The fields of a node that can be a section. -/
def fields? (document : Document) (node : Yaml.Node) : Option (Fields Yaml.Node) := do
  match ← resolve? document node with
  | .mapping members =>
    let fields ← members.mapM fun (key, value) ↦ do
      match ← resolve? document key with
      | .scalar _ _ name => return (name, value)
      | _ => none
    return .named fields
  | .scalar .plain _ "" => return .named []
  | _ => none

/-- The scalar of an option; inside, `none` if the option counts as left out. -/
def scalar? (document : Document) (node : Yaml.Node) :
    Option (Option (Style × Option String × String)) := do
  match ← resolve? document node with
  | .scalar style tag text =>
    if style = .plain ∧ tag = none ∧ (text.isEmpty ∨ isNull text) then return none
    else if style = .plain ∧ tag = some nullTag then
      if isNull text then return none else failure
    else return some (style, tag, text)
  | _ => failure

/-- The text of an option. -/
def text? (document : Document) (node : Yaml.Node) : Option (Option String) :=
  (scalar? document node).map fun scalar ↦ scalar.map fun (_, _, text) ↦ text

/-- The number of an option. -/
def count? (document : Document) (node : Yaml.Node) : Option (Option Nat) := do
  match ← scalar? document node with
  | none => return none
  | some (style, tag, text) =>
    if style = .plain ∨ (style = .literal ∧ tag = some integerTag) then
      return some (← ofText? text)
    else failure

end YamlValue

/-- How the nodes of a YAML document are read. -/
def yamlFormat (document : Yaml.Document) : Format Yaml.Node where
  fields? := YamlValue.fields? document
  text? := YamlValue.text? document
  count? := YamlValue.count? document
  ignoresSurplus := false

/-- Reads a configuration from YAML text. -/
def ofYaml? (text : String) : Option Config := do
  let document ← Yaml.Document.ofText? text
  match document.root with
  | some root => (yamlFormat document).read? root
  | none => return {}

/-!
## Configuration files

A file with the extension `toml`, in letters of either case, holds TOML, and any other file YAML. A
configuration that is to be used must have no problem.
-/

/-- The extension of a file name: what follows its last dot, unless nothing stands before that
dot. -/
def extension? (name : String) : Option String :=
  let reversed := name.toList.reverse
  match reversed.dropWhile (· != '.') with
  | _ :: _ :: _ => some (String.ofList (reversed.takeWhile (· != '.')).reverse)
  | _ => none

/-- Whether a file of this name holds TOML. -/
def holdsToml (name : String) : Bool :=
  (extension? name).any fun extension ↦ extension.toLower == "toml"

/-- Reads the configuration in a file, of which the name and the octets are given if it is there. -/
def load (name : String) (content : Option ByteArray) : Except ConfigError Config :=
  match content.bind String.fromUTF8? with
  | none => .error .unreadable
  | some text =>
    if holdsToml name then (ofToml? text).elim (.error .notToml) .ok
    else (ofYaml? text).elim (.error .notYaml) .ok

/-- Accepts a configuration that has no problem. -/
def validated (config : Config) : Except ConfigError Config :=
  if config.problems.isEmpty then .ok config else .error (.invalid config.problems)

/-- Reads a configuration that is to be used. -/
def loadValidated (name : String) (content : Option ByteArray) : Except ConfigError Config := do
  validated (← load name content)

end Dataflow.Config
