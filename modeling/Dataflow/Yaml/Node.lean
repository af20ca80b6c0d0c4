import Dataflow.Yaml.Token

/-!
# Documents in YAML

A text holds at most one document, whose nodes are scalars and mappings. An anchor before a node
gives it a name, and an alias stands for the node of that name.

Names are numbered: an anchor gets as its number how many names there were before it, and an alias
takes the latest number of its name. So when a name is given twice, the next new name shares the
second number; what an alias with that number means is the node that started last.
-/

set_option autoImplicit false
set_option relaxedAutoImplicit false

namespace Dataflow.Yaml

/-- A node of a document. -/
inductive Node
  | scalar (style : Style) (tag : Option String) (text : String)
  | mapping (members : List (Node × Node))
  | alias (number : Nat)
  deriving Repr

/-- What stands for a node that is left out. -/
def Node.empty : Node :=
  .scalar .plain none ""

/-- A node with an anchor. -/
structure Anchored where
  /-- The number of the anchor. -/
  number : Nat
  /-- How many anchored nodes started before this one. -/
  serial : Nat
  node : Node
  deriving Repr

/-- A document, or a text without any. -/
structure Document where
  root : Option Node
  anchored : List Anchored
  deriving Repr

/-- The node that the aliases with a number stand for. -/
def Document.target? (document : Document) (number : Nat) : Option Node :=
  let candidates := document.anchored.filter (·.number == number)
  let latest := candidates.foldl (fun n anchored ↦ max n anchored.serial) 0
  (candidates.find? (·.serial == latest)).map Anchored.node

/-! ### Reading nodes -/

/-- The state of reading nodes. -/
structure Reading where
  tokens : List Token
  /-- What the handles of tags stand for. -/
  handles : List (String × String)
  /-- The names of anchors with their latest numbers. -/
  names : List (String × Nat) := []
  /-- How many anchored nodes have started. -/
  started : Nat := 0
  anchored : List Anchored := []

/-- A step of reading nodes, which may refuse the text. -/
abbrev Nodes := StateT Reading Option

namespace Nodes

/-- The next token. -/
def peek : Nodes (Option Token) :=
  return (← get).tokens.head?

/-- Goes past a token. -/
def skip : Nodes Unit :=
  modify fun r ↦ { r with tokens := r.tokens.tail }

/-- Reads a tag if there is one. -/
def tag : Nodes (Option String) := do
  match ← peek with
  | some (.tag ⟨handle, suffix⟩) =>
    skip
    match handle with
    | none => return suffix
    | some handle =>
      match (← get).handles.lookup handle with
      | some start => return start ++ suffix
      | none => failure
  | _ => return none

/-- Reads an anchor if there is one. -/
def anchor : Nodes (Option String) := do
  match ← peek with
  | some (.anchor name) => skip; return name
  | _ => return none

/-- Reads the anchor and the tag of a node, in either order. -/
def properties : Nodes (Option String × Option String) := do
  match ← anchor with
  | some name => return (some name, ← tag)
  | none =>
    let tag ← tag
    return (← anchor, tag)

/-- Takes note that an anchored node starts, and gives its number and place in the order of
starts. -/
def start (name : String) : Nodes (Nat × Nat) := do
  let r ← get
  let number := r.names.length
  set { r with
    names := (name, number) :: r.names.filter (·.1 != name), started := r.started + 1 }
  return (number, r.started)

/-- Whether a token cannot start the key or value that may stand here. -/
def leavesOut (inBlock : Bool) : Option Token → Bool
  | some .value => true
  | some .key | some .blockEnd => inBlock
  | some .flowEntry | some .flowEnd => !inBlock
  | _ => false

mutual

/-- Reads a node, in at most `fuel` steps. -/
def node (inBlock : Bool) : Nat → Nodes Node
  | 0 => failure
  | fuel + 1 => do
    match ← peek with
    | some (.alias name) =>
      skip
      match (← get).names.lookup name with
      | some number => return .alias number
      | none => failure
    | _ =>
      let (anchor, tag) ← properties
      let place ← anchor.mapM start
      let read ← match ← peek with
        | some (.scalar style text) => do
          skip
          pure (Node.scalar style tag text)
        | some .flowStart => skip; .mapping <$> flowMembers true fuel
        | some .blockStart =>
          if inBlock then skip; .mapping <$> blockMembers fuel else failure
        | _ =>
          if anchor.isSome || tag.isSome then pure (Node.scalar .plain tag "") else failure
      match place with
      | some (number, serial) =>
        modify fun r ↦ { r with anchored := ⟨number, serial, read⟩ :: r.anchored }
      | none => pure ()
      return read

/-- Reads a key or a value that may be left out, in at most `fuel` steps. -/
def part (inBlock : Bool) : Nat → Nodes Node
  | 0 => failure
  | fuel + 1 => do if leavesOut inBlock (← peek) then return .empty else node inBlock fuel

/-- Reads the value of a member after its key, in at most `fuel` steps. -/
def value (inBlock : Bool) : Nat → Nodes Node
  | 0 => failure
  | fuel + 1 => do
    match ← peek with
    | some .value =>
      skip
      part inBlock fuel
    | _ => return .empty

/-- Reads the rest of the members of a block, in at most `fuel` steps. -/
def blockMembers : Nat → Nodes (List (Node × Node))
  | 0 => failure
  | fuel + 1 => do
    match ← peek with
    | some .blockEnd => skip; return []
    | some .key =>
      skip
      let key ← part true fuel
      let value ← value true fuel
      return (key, value) :: (← blockMembers fuel)
    | _ => failure

/-- Reads the rest of the members in braces, in at most `fuel` steps. -/
def flowMembers (first : Bool) : Nat → Nodes (List (Node × Node))
  | 0 => failure
  | fuel + 1 => do
    if !first then
      match ← peek with
      | some .flowEntry => skip
      | some .flowEnd => pure ()
      | _ => failure
    match ← peek with
    | some .flowEnd => skip; return []
    | some .key =>
      skip
      let key ← part false fuel
      let value ← value false fuel
      return (key, value) :: (← flowMembers false fuel)
    | _ =>
      let key ← node false fuel
      return (key, .empty) :: (← flowMembers false fuel)

end

end Nodes

/-! ### Reading a document -/

/-- The meaning of the handles after some directives: the version and each handle are stated once at
most, and what is not stated has its common meaning. -/
def handles? (directives : List Directive) : Option (List (String × String)) :=
  let versions := directives.filter (· matches .version)
  let stated := directives.filterMap fun
    | .handle handle text => some (handle, text)
    | .version => none
  let names := stated.map (·.1)
  if versions.length ≤ 1 ∧ names.eraseDups.length = names.length then
    some (stated ++ [("!", "!"), ("!!", "tag:yaml.org,2002:")])
  else none

/-- The directives at the start of a list of tokens, and the tokens after them. -/
def leadingDirectives : List Token → List Directive × List Token
  | .directive d :: rest => ((d :: (leadingDirectives rest).1), (leadingDirectives rest).2)
  | rest => ([], rest)

/-- Whether some tokens have no node before the end of their document. -/
def isBlankDocument : List Token → Bool
  | [] | .directive _ :: _ | .documentStart :: _ | .documentEnd :: _ => true
  | _ => false

/-- Reads the document of some tokens. With directives it starts by a mark. Nothing but marks of its
end may follow it. -/
def Document.ofTokens? (tokens : List Token) : Option Document := do
  if tokens.isEmpty then return ⟨none, []⟩
  let (directives, rest) := leadingDirectives tokens
  let handles ← handles? directives
  let read (tokens : List Token) : Option Document := do
    let (root, r) ← (Nodes.node true (4 * tokens.length + 4)).run { tokens, handles }
    if r.tokens.all (· matches .documentEnd) then return ⟨some root, r.anchored⟩ else none
  match rest with
  | .documentStart :: rest =>
    if isBlankDocument rest then
      if rest.all (· matches .documentEnd) then return ⟨some .empty, []⟩ else none
    else read rest
  | _ => if directives.isEmpty then read rest else none

/-- Reads the document of a text. -/
def Document.ofText? (text : String) : Option Document := do
  Document.ofTokens? (← tokens? text)

end Dataflow.Yaml
