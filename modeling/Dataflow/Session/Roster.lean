import Dataflow.Json.Record
import Dataflow.Run.Routing
import Dataflow.Text.Base64

/-!
# Rosters and snapshots

A session keeps its fitted actors in a roster and persists them as a snapshot.
-/

set_option autoImplicit false
set_option relaxedAutoImplicit false

/-!
## Snapshots

A snapshot is the persisted fit state of a session: for each group, under the group's text, the
bytes its actor exported, in base64. Groups are kept sorted by their text. As JSON a snapshot is an
object with the one member `actors`, whose members are the groups.

Reading is strict about types and about a repeated `actors`, and ignores members it does not know.
Of two states of one group the later one is kept. The one-item list of the groups is read as well.
-/

namespace Dataflow

/-- Encoded states by the text of their group, sorted. -/
structure Snapshot where
  states : List (String × String)
  deriving DecidableEq, Repr

namespace Snapshot

/-- The snapshot without states. -/
def empty : Snapshot := ⟨[]⟩

/-- Adds an entry to a list sorted by key, in place of one with the same key. -/
def insert (key state : String) : List (String × String) → List (String × String)
  | [] => [(key, state)]
  | (k, s) :: rest =>
    if key < k then (key, state) :: (k, s) :: rest
    else if key = k then (key, state) :: rest
    else (k, s) :: insert key state rest

/-- Keeps a state under the text of a group. -/
def put (snapshot : Snapshot) (group state : String) : Snapshot :=
  ⟨insert group state snapshot.states⟩

/-- The number of states. -/
def size (snapshot : Snapshot) : Nat :=
  snapshot.states.length

/-- A snapshot as JSON. -/
def toJson (snapshot : Snapshot) : Json :=
  .object [("actors", .object (snapshot.states.map fun (group, state) ↦ (group, .text state)))]

/-- A snapshot as JSON text. -/
def text (snapshot : Snapshot) : String :=
  snapshot.toJson.compact

/-- Reads the states of an object. -/
def ofGroups? : Json → Option Snapshot
  | .object members =>
    members.foldlM (fun snapshot (group, value) ↦
      match value with
      | .text state => some (snapshot.put group state)
      | _ => none) empty
  | _ => none

/-- How the JSON of a snapshot is read. -/
def document : Json.Record.Step Snapshot := do
  let actors := Json.Record.mapOf Json.Record.text
  let [groups] ← Json.Record.record [("actors", actors)] | Json.Record.refuse
  Json.Record.need (ofGroups? groups)

/-- Reads the text of a snapshot. -/
def parse (text : String) : Except FlowError Snapshot :=
  (Json.Record.read document (Json.Form.ofText text)).mapError fun fault ↦ .state fault.message

end Snapshot

/-!
## Rosters

A roster keeps the actor instance of each group, with the spec it was made from and whether it
counts as trained. An instance is made when its group is first asked for, and only then.

The members of a roster have no order. What goes through all of them meets them in an order that is
arbitrary and may be another one each time, also if nothing but idle members came in between; so
exporting takes the order as an argument. The order of the list itself means nothing.

A run that fits actors works on a *staged* roster; `commit` adopts its instances in place of those
of the same groups. Exporting takes the state of every group that counts as trained and can export
one. Loading first reads the whole snapshot and then loads its states one after another, in the
order of their texts; when one of them is refused, those before it stay loaded, and no group is
marked.
-/

variable {ε σ : Type}

/-- The instance of a group. -/
structure Member (ε σ : Type) where
  spec : Spec ε σ
  actor : InstanceId
  trained : Bool

/-- The members of a roster by their group. -/
abbrev Roster (ε σ : Type) : Type :=
  List (GroupId × Member ε σ)

namespace Roster

/-- The roster without members. -/
def empty : Roster ε σ := []

/-- The member of a group. -/
def member? (roster : Roster ε σ) (group : GroupId) : Option (Member ε σ) :=
  roster.lookup group

/-- Makes an instance the member of a group, in place of the former one. -/
def put (roster : Roster ε σ) (group : GroupId) (member : Member ε σ) : Roster ε σ :=
  match roster with
  | [] => [(group, member)]
  | (g, m) :: rest => if group = g then (g, member) :: rest else (g, m) :: put rest group member

/-- Whether a group has a member that counts as trained. -/
def isTrained (roster : Roster ε σ) (group : GroupId) : Bool :=
  (roster.member? group).any (·.trained)

/-- The instance of a group, made from `spec` if the group has none. -/
def request (roster : Roster ε σ) (group : GroupId) (spec : Spec ε σ) :
    Action ε σ (InstanceId × Roster ε σ) := do
  match roster.member? group with
  | some member => return (member.actor, roster)
  | none =>
    let actor ← Action.spawn spec
    return (actor, roster.put group ⟨spec, actor, false⟩)

/-- Binds nodes in order: those of a group share the group's instance, every other node gets one of
its own. -/
def bind : List (Node ε σ) → Roster ε σ → Action ε σ (Binding × Roster ε σ)
  | [], roster => return ([], roster)
  | node :: rest, roster => do
    let (actor, roster) ←
      match node.group with
      | some group => roster.request group node.spec
      | none => do
        let actor ← Action.spawn node.spec
        pure (actor, roster)
    let (binding, roster) ← bind rest roster
    return (actor :: binding, roster)

/-- Marks the members of these groups as trained; groups without a member are passed over. -/
def markTrained (roster : Roster ε σ) (groups : List GroupId) : Roster ε σ :=
  roster.map fun (group, member) ↦
    (group, if groups.contains group then { member with trained := true } else member)

/-- Adopts all members of a staged roster and marks groups as trained. -/
def commit (roster staged : Roster ε σ) (groups : List GroupId) : Roster ε σ :=
  (staged.foldl (fun roster (group, member) ↦ roster.put group member) roster).markTrained groups

/-! ### Persisting -/

/-- An order in which all members are met: those of groups with lower numbers come first. -/
abbrev Order : Type :=
  GroupId → Nat

/-- The members in an order. -/
def arranged (roster : Roster ε σ) (order : Order) : Roster ε σ :=
  roster.mergeSort fun a b ↦ order a.1 ≤ order b.1

/-- Adds the states of members to a snapshot, up to the first that cannot be exported. -/
def exportInto (snapshot : Snapshot) :
    Roster ε σ → Action ε σ (Except FlowError Snapshot)
  | [] => return .ok snapshot
  | (group, member) :: rest => do
    if member.trained then
      match ← Action.exportState member.actor with
      | some (.ok (some bytes)) => exportInto (snapshot.put group.text (Text.Base64.encode bytes)) rest
      | some (.error e) =>
        return .error (.state s!"exporting {group.text} ({member.spec.name}): {e.message}")
      | _ => exportInto snapshot rest
    else exportInto snapshot rest

/-- The states of all members that count as trained and can export one. -/
def exportAll (roster : Roster ε σ) (order : Order) : Action ε σ (Except FlowError Snapshot) :=
  exportInto .empty (roster.arranged order)

/-- A state to be loaded: its group, the group's spec and the bytes. -/
structure Pending (ε σ : Type) where
  group : GroupId
  spec : Spec ε σ
  bytes : Bytes

/-- Reads one entry of a snapshot. Its group must be among `specs` and be stateful. -/
def decodeEntry (specs : List (GroupId × Spec ε σ)) (entry : String × String) :
    Except FlowError (Pending ε σ) := do
  let (key, encoded) := entry
  let group ←
    match GroupId.parse key with
    | .ok group => pure group
    | .error fault => throw (.state (fault.message key))
  let spec ←
    match specs.lookup group with
    | some spec =>
      if spec.stateful then pure spec
      else throw (.state s!"no stateful actor for group {key}")
    | none => throw (.state s!"no stateful actor for group {key}")
  match Text.Base64.decode encoded with
  | .ok bytes => return { group, spec, bytes }
  | .error fault => throw (.state s!"group {key}: {fault.message}")

/-- Loads states one after another, up to the first that is refused. -/
def loadEach : List (Pending ε σ) → Roster ε σ → Action ε σ (Except FlowError Unit × Roster ε σ)
  | [], roster => return (.ok (), roster)
  | entry :: rest, roster => do
    let (actor, roster) ← roster.request entry.group entry.spec
    match ← Action.loadState actor entry.bytes with
    | some (.error e) => return (.error (.state s!"group {entry.group.text}: {e.message}"), roster)
    | _ => loadEach rest roster

/-- Loads a snapshot and marks its groups as trained; gives the number of states. -/
def load (roster : Roster ε σ) (snapshot : Snapshot) (specs : List (GroupId × Spec ε σ)) :
    Action ε σ (Except FlowError Nat × Roster ε σ) := do
  match snapshot.states.mapM (decodeEntry specs) with
  | .error e => return (.error e, roster)
  | .ok entries =>
    match ← loadEach entries roster with
    | (.error e, roster) => return (.error e, roster)
    | (.ok (), roster) => return (.ok entries.length, roster.markTrained (entries.map (·.group)))

end Roster

end Dataflow
