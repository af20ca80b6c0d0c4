import Dataflow.Run.Runner

/-!
# Configuration

A configuration names the default runner, tunes the runners and sets the log filter. Every part is
optional, and each has a value that takes effect if it is left out; the number of workers then
depends on the machine.

Checking a configuration reports every problem at once, in a fixed order.
-/

set_option autoImplicit false
set_option relaxedAutoImplicit false

namespace Dataflow

/-- What can be configured; what is `none` is left to its default. -/
structure Config where
  defaultRunner : Option String := none
  /-- The number of workers of the distributed runner. -/
  maxConcurrency : Option Nat := none
  /-- The direction of drawings. -/
  direction : Option String := none
  logFilter : Option String := none
  deriving DecidableEq, Repr

namespace Config

/-! ### What takes effect -/

/-- The number of workers; `machine` is the number for a machine where none is configured. -/
def effectiveWorkers (config : Config) (machine : Nat) : Nat :=
  config.maxConcurrency.getD machine

/-- The direction of drawings. -/
def effectiveDirection (config : Config) : String :=
  config.direction.getD Drawing.defaultDirection

/-- The log filter if none is configured. -/
def defaultFilter : String := "info"

/-- The log filter. -/
def effectiveFilter (config : Config) : String :=
  config.logFilter.getD defaultFilter

/-- The registry of the three runners, tuned as configured. -/
def registry (config : Config) (machine : Nat) : Registry :=
  let registry := Registry.register (Registry.register (Registry.register {} .sequential)
    (.distributed (config.effectiveWorkers machine))) (.visualize config.effectiveDirection)
  { registry with chosen := config.defaultRunner }

/-! ### Checking -/

/-- The names of the runners, as messages list them. -/
def runnerNames : List String :=
  [Sequential.name, Distributed.name, Drawing.name]

/-- The directions a drawing can have. -/
def directions : List String :=
  ["LR", "RL", "TB", "BT"]

/-- What can be wrong with a configuration. -/
inductive Problem
  | unknownRunner (name : String)
  | noWorkers
  | unknownDirection (text : String)
  deriving DecidableEq, Repr

/-- The wording of a problem. -/
def Problem.message : Problem → String
  | unknownRunner name =>
    s!"default_runner '{name}' is not one of: " ++ ", ".intercalate runnerNames
  | noWorkers => "runners.distributed.max_concurrency must be greater than 0"
  | unknownDirection text =>
    s!"runners.visualize.rankdir '{text}' is not one of: " ++ ", ".intercalate directions

/-- Everything that is wrong with a configuration. -/
def problems (config : Config) : List Problem :=
  let runner := config.defaultRunner.bind fun name ↦
    if runnerNames.contains name then none else some (Problem.unknownRunner name)
  let workers := if config.maxConcurrency = some 0 then some Problem.noWorkers else none
  let direction := config.direction.bind fun text ↦
    if directions.contains text then none else some (Problem.unknownDirection text)
  runner.toList ++ workers.toList ++ direction.toList

end Config

/-- Why no configuration could be loaded. -/
inductive ConfigError
  /-- The file is not there or does not hold text. -/
  | unreadable
  | notYaml
  | notToml
  | invalid (problems : List Config.Problem)
  deriving DecidableEq, Repr

/-- The wording of the problems of a configuration that was read. -/
def Config.invalidText (problems : List Config.Problem) : String :=
  "configuration validation failed:\n" ++ "\n".intercalate (problems.map Problem.message)

end Dataflow

/-!
## The layout of a configuration file

A configuration is a section with the option `default_runner` and the sections `runners` and
`logging`; `runners` holds the sections `distributed`, with the option `max_concurrency`, and
`visualize`, with the option `rankdir`; `logging` has the option `filter`. Sections and options may
be left out.

How a section, a text or a count is written differs from one file format to another, so a `Format`
says how to read each. A section comes as named fields, of which each may be given once and all must
be known, or, if the format allows it, as a list of its fields in order. A section that holds just
one option has to list it; other fields may be left out at the end of the list. A format may ignore
surplus items.
-/

namespace Dataflow.Config

/-- The fields of a section. -/
inductive Fields (α : Type)
  | named (fields : List (String × α))
  | listed (items : List α)

/-- How the values of a file format are read. -/
structure Format (α : Type) where
  /-- The fields of a value that can be a section. -/
  fields? : α → Option (Fields α)
  /-- The text of an option that wants one; inside, `none` if the option counts as left out. -/
  text? : α → Option (Option String)
  /-- The number of an option that wants a count; inside, `none` if the option counts as left out. -/
  count? : α → Option (Option Nat)
  /-- Whether items behind the last field of a list are ignored. -/
  ignoresSurplus : Bool

namespace Format

variable {α β γ : Type}

/-- The value of each field of a section, `none` for a field that is left out. -/
def values? (format : Format α) (names : List String) : Fields α → Option (List (Option α))
  | .named fields =>
    if fields.all (fun field ↦ names.contains field.1) then
      names.mapM fun name ↦
        match fields.filter (·.1 == name) with
        | [] => some none
        | [(_, value)] => some (some value)
        | _ => none
    else none
  | .listed items =>
    if items.length ≤ names.length ∨ format.ignoresSurplus then
      some ((List.range names.length).map (items[·]?))
    else none

/-- Reads a field that may be left out. -/
def field? (read : α → Option β) (absent : β) : Option α → Option β
  | none => some absent
  | some value => read value

/-- Reads a section of two fields. -/
def pair? (format : Format α) (first second : String) (readFirst : α → Option β) (noFirst : β)
    (readSecond : α → Option γ) (noSecond : γ) (value : α) : Option (β × γ) := do
  match ← format.values? [first, second] (← format.fields? value) with
  | [a, b] => return (← field? readFirst noFirst a, ← field? readSecond noSecond b)
  | _ => none

/-- Reads a section of one option. A list has to give it. -/
def option? (format : Format α) (name : String) (read : α → Option (Option β)) (value : α) :
    Option (Option β) := do
  match ← format.fields? value with
  | .listed [] => none
  | fields =>
    match ← format.values? [name] fields with
    | [a] => field? read none a
    | _ => none

/-- Reads the section of the runners: the number of workers and the direction of drawings. -/
def runners? (format : Format α) (value : α) : Option (Option Nat × Option String) :=
  format.pair? "distributed" "visualize"
    (format.option? "max_concurrency" format.count?) none
    (format.option? "rankdir" format.text?) none value

/-- Reads a configuration from its fields. -/
def ofFields? (format : Format α) (fields : Fields α) : Option Config := do
  match ← format.values? ["default_runner", "runners", "logging"] fields with
  | [runner, runners, logging] =>
    let defaultRunner ← field? format.text? none runner
    let (maxConcurrency, direction) ← field? format.runners? (none, none) runners
    let logFilter ← field? (format.option? "filter" format.text?) none logging
    return { defaultRunner, maxConcurrency, direction, logFilter }
  | _ => none

/-- Reads a configuration. -/
def read? (format : Format α) (value : α) : Option Config := do
  format.ofFields? (← format.fields? value)

end Format

end Dataflow.Config
