import SwiftStyle.CommandLine.Arguments
import SwiftStyle.CommandLine.ConfigSearch
import SwiftStyle.CommandLine.Listing
import SwiftStyle.Linter

/-!
# Runs

A run carries out a request on a disk. Its outcome is what it prints, the
error that ended it, if one did, the status it exits with, and the disk
afterwards. The status is 1 for an error and for violations that make a
run fail, and 2 for wrong usage.

A run first looks for a configuration and then works with it, so that nothing
is linted or corrected if the configuration cannot be read. Warnings about the
configuration come before those about files. Only two commands change the
disk: the one that corrects, by what the rules save, and the one that writes
the configuration to start from.
-/

namespace SwiftStyle.CommandLine

/-- **What a run finds around it.** -/
structure Environment where
  /-- The path of a configuration, if the environment asks for one. -/
  config : Option String := none
  /-- The directory with the configuration of the user. -/
  userDirectory : Option Path := none
deriving DecidableEq, Repr, Inhabited

/-- **What comes of a run.** -/
structure Outcome where
  /-- The status. -/
  status : Nat := 0
  /-- What is printed. -/
  output : String := ""
  /-- The error. -/
  error : Option String := none
  /-- Warnings on the way. -/
  warnings : List Warning := []
  /-- The disk afterwards. -/
  disk : Disk

/-- The name and the version of the program. -/
def versionText : String :=
  line "stylint 0.2.0"

/-- A run that ends with an error. -/
def failed (message : String) (disk : Disk) : Outcome :=
  { status := 1, error := some message, disk }

/-- The identifiers in a list with commas. -/
def splitNames (text : String) : List String :=
  let pieces := (text.splitOn ",").map fun piece =>
    String.ofList (Text.trimBlank piece.toList)
  pieces.filter (· ≠ "")

/-- The configuration that only runs listed rules, if there is a list. -/
def restrict (rules : Option String) (config : Config) : Config :=
  match rules with
  | some text => { config with onlyRules := some (splitNames text) }
  | none => config

/-- The linter for a path with the built-in rules that a configuration
enables. -/
def linterFor (disk : Disk) (path : Path) (exclude : List String)
    (config : Config) : Linter :=
  Linter.build disk.currentPath (BuiltIn.registry.configuredRules config)
    config exclude (some path)

/-- What is printed of a result in a format. -/
def shown (r : LintResult) : Format → String
  | .text => resultText r
  | .json => resultJson r
  | .compact => resultLines r
  | .pretty => line r.summary

/-- Lint with a configuration. -/
def lintWith (disk : Disk) (path : Path) (format : Format)
    (exclude : List String) (config : Config) : Outcome :=
  let linter := linterFor disk path exclude config
  let before := BuiltIn.registry.configurationWarnings config
  match linter.lint disk with
  | .error _ =>
    { failed "Lint failed" disk with warnings := before }
  | .ok (result, warnings) =>
    { status := if linter.fails result then 1 else 0
      output := shown result format
      warnings := before ++ warnings
      disk }

/-- Correct with a configuration. -/
def correctWith (disk : Disk) (path : Path) (exclude : List String)
    (config : Config) : Outcome :=
  let linter := linterFor disk path exclude config
  let before := BuiltIn.registry.configurationWarnings config
  match linter.correct disk with
  | .error _ =>
    { failed "Autocorrect failed" disk with warnings := before }
  | .ok run =>
    let output := reportText run.report
    let warnings := before ++ run.warnings
    if run.report.isPersisted then
      { output, warnings, disk := run.disk }
    else
      { status := 1
        output
        error := some ("Failed to write " ++
          toString run.report.failures.length ++ " file(s)")
        warnings
        disk := run.disk }

/-- Write the configuration to start from. -/
def start (disk : Disk) (force : Bool) : Outcome :=
  if disk.hasNode starterPath && !force then
    failed ("Configuration file already exists at " ++ starterPath.text ++
      ". Use --force to overwrite.") disk
  else
    match disk.write starterPath starterConfig with
    | .ok disk => { output := starterText, disk }
    | .error _ => failed ("Failed to write " ++ starterPath.text) disk

/-- The outcome of work with the configuration for a path. -/
def withConfig (env : Environment) (disk : Disk) (asked : Option Path)
    (path : Path) (work : Config → Outcome) : Outcome :=
  let source :=
    findConfig disk env.userDirectory (projectDirectory disk path) asked
  match source.load disk with
  | .ok config => work config
  | .error _ =>
    failed ("Failed to load config: " ++
      ((source.path?.map (·.text)).getD "")) disk

/-- **Carry out a command.** -/
def perform (env : Environment) (disk : Disk) (asked : Option Path) :
    Command → Outcome
  | .lint path format rules exclude =>
    withConfig env disk asked path fun config =>
      lintWith disk path format exclude (restrict rules config)
  | .autocorrect path exclude =>
    withConfig env disk asked path (correctWith disk path exclude)
  | .rules => { output := rulesText BuiltIn.allRules, disk }
  | .init force => start disk force

/-- **Carry out the request that arguments make.** -/
def run (env : Environment) (disk : Disk) (arguments : List String) :
    Outcome :=
  match request? env.config arguments with
  | none => { status := 2, disk }
  | some .version => { output := versionText, disk }
  | some (.run asked command) => perform env disk asked command

end SwiftStyle.CommandLine
