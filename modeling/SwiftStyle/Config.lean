import SwiftStyle.Disk.Basic
import SwiftStyle.Severity
import SwiftStyle.Toml.Tagged

/-!
# Configurations

A configuration says which rules run and how, what is linted, and when a
run fails. It is written as a table (`SwiftStyle.Toml`); whatever it does
not say has a default, and names it does not know are passed over.

Whether a rule is **enabled** is decided by three lists: a disabled rule
never runs; if the configuration lists the only rules to run, the others
do not; and otherwise a rule runs unless it is to be opted in to and is
not.
-/

namespace SwiftStyle

/-- **What is linted.** -/
structure Scope where
  /-- The directory or file to lint. -/
  root : Path := ⟨"."⟩
  /-- Patterns of the paths to pass over. -/
  exclude : List String := ["**/.build/**", "**/Pods/**"]
  /-- The extensions of the files to lint, without the point. -/
  extensions : List String := ["swift"]
deriving DecidableEq, Repr, Inhabited

/-- **A configuration.** -/
structure Config where
  /-- Rules that never run. -/
  disabledRules : List String := []
  /-- Rules that run although they are to be opted in to. -/
  optInRules : List String := []
  /-- The only rules that run, if they are listed. -/
  onlyRules : Option (List String) := none
  /-- The severity at which a run fails, if it is given. -/
  failOn : Option Severity := none
  /-- What is linted. -/
  scope : Scope := {}
  /-- The values that rules are configured by. -/
  rules : List (String × Toml.Value) := []
  /-- Severities that take the place of those of rules. -/
  severities : List (String × Severity) := []
deriving Inhabited

/-- **Why a configuration could not be had.** -/
inductive ConfigError where
  /-- Its file could not be read. -/
  | unreadable (path : Path) (cause : IoError)
  /-- Its text is not a configuration. -/
  | malformed
deriving DecidableEq, Repr

/-- The wording. -/
def ConfigError.message : ConfigError → String
  | unreadable path cause =>
    "Failed to read config file " ++ path.text ++ ": " ++ cause.message
  | malformed => "Failed to parse config"

/-! ## Reading -/

namespace Config

/-- A list of texts. -/
def texts? (v : Toml.Value) : Option (List String) := do
  (← v.array?).mapM Toml.Value.string?

/-- A severity: its name, or a table with nothing under its name. -/
def severity? : Toml.Value → Option Severity
  | .string text => Severity.ofName? text
  | .table [(name, .table [])] => Severity.ofName? name
  | .table [(name, .array [])] => Severity.ofName? name
  | _ => none

/-- What is read from the value of a name, or a default without one. -/
def field {α : Type} (read : Toml.Value → Option α) (default : α)
    (v : Option Toml.Value) : Option α :=
  match v with
  | some v => read v
  | none => some default

/-- What is linted, from the values of its three parts. -/
def scopeOf? (root exclude extensions : Option Toml.Value) :
    Option Scope := do
  let default : Scope := {}
  return {
    root := ← field (fun v => v.string?.map Path.mk) default.root root
    exclude := ← field texts? default.exclude exclude
    extensions := ← field texts? default.extensions extensions }

/-- What is linted: a table, or an array of the parts in their order. -/
def scope? : Toml.Value → Option Scope
  | .array items => scopeOf? items[0]? items[1]? items[2]?
  | v => do
    let entries ← v.entries?
    let part := fun name => Toml.lookup name entries
    scopeOf? (part "root") (part "exclude") (part "extensions")

/-- The values that rules are configured by. -/
def rules? (v : Toml.Value) : Option (List (String × Toml.Value)) := do
  Toml.Value.untagEntries? (← v.entries?)

/-- Severities by the identifiers of rules. -/
def severities? (v : Toml.Value) : Option (List (String × Severity)) := do
  (← v.entries?).mapM fun (name, v) => do
    return (name, ← severity? v)

/-- The configuration that a table stands for. -/
def ofTable? (entries : List (String × Toml.Value)) : Option Config := do
  let part := fun name => Toml.lookup name entries
  return {
    disabledRules := ← field texts? [] (part "disabled_rules")
    optInRules := ← field texts? [] (part "opt_in_rules")
    onlyRules :=
      ← field (fun v => (texts? v).map some) none (part "only_rules")
    failOn :=
      ← field (fun v => (severity? v).map some) none (part "fail_on")
    scope := ← field scope? {} (part "analyzer")
    rules := ← field rules? [] (part "rules")
    severities := ← field severities? [] (part "severity") }

/-- **The configuration that is written as a text.** -/
def parse (text : String) : Except ConfigError Config :=
  match (Toml.parse text).bind ofTable? with
  | some config => .ok config
  | none => .error .malformed

/-- **The configuration in a file.** -/
def read (disk : Disk) (path : Path) : Except ConfigError Config :=
  match disk.read path with
  | .ok text => parse text
  | .error cause => .error (.unreadable path cause)

/-! ## Questions -/

/-- **Whether a rule may run**, given whether it is to be opted in to. -/
def isEnabled (c : Config) (identifier : String) (optIn : Bool) : Bool :=
  !c.disabledRules.contains identifier &&
    match c.onlyRules with
    | some only => only.contains identifier
    | none => !optIn || c.optInRules.contains identifier

/-- The value that a rule is configured by. -/
def valueOf? (c : Config) (identifier : String) : Option Toml.Value :=
  Toml.lookup identifier c.rules

/-- The severity that takes the place of that of a rule. -/
def severityOf? (c : Config) (identifier : String) : Option Severity :=
  (c.severities.find? fun entry => entry.1 == identifier).map (·.2)

/-- The severity at which a run fails. -/
def failingSeverity (c : Config) : Severity :=
  c.failOn.getD .error

/-- Every rule that the configuration names, with repetitions. -/
def named (c : Config) : List String :=
  c.disabledRules ++ c.optInRules ++ c.onlyRules.getD [] ++
    c.rules.map (·.1) ++ c.severities.map (·.1)

end Config
end SwiftStyle
