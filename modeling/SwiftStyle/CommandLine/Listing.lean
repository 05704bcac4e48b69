import SwiftStyle.Json
import SwiftStyle.Rules.BuiltIn

/-!
# What a run prints

The texts that are written to the standard output: results in the formats
that may be asked for, corrections, the list of rules, and the
configuration to start from.

Nothing is computed here but the texts: what is listed, and in which order, is
that of the result.
-/

namespace SwiftStyle.CommandLine

/-- A text with a line feed behind it. -/
def line (text : String) : String :=
  text ++ "\n"

/-! ## Results -/

/-- A text in a colour of the terminal. -/
def coloured (code : Nat) (text : String) : String :=
  "\x1b[" ++ toString code ++ "m" ++ text ++ "\x1b[0m"

/-- The colour of a severity: red, yellow or blue. -/
def colourOf : Severity → Nat
  | .error => 31
  | .warning => 33
  | .info => 34

/-- The colour of a result: that of its gravest severity, and green if
there is none graver than information. -/
def colourOfResult (r : LintResult) : Nat :=
  if 0 < r.count .error then 31
  else if 0 < r.count .warning then 33
  else 32

/-- A violation for people, with an empty line behind it. -/
def violationText (v : Violation) : String :=
  let severity := coloured (colourOf v.severity) v.severity.name
  line v.heading ++ line ("  " ++ severity ++ ": " ++ v.message) ++
    (if v.reason.isSome then line ("  = help: " ++ v.rule.description)
     else "") ++
    "\n"

/-- A result for people. -/
def resultText (r : LintResult) : String :=
  String.join (r.violations.map violationText) ++
    line (coloured (colourOfResult r) r.summary)

/-- A result with one line for each violation. -/
def resultLines (r : LintResult) : String :=
  String.join (r.violations.map fun v => line v.display)

/-- A result as JSON. -/
def resultJson (r : LintResult) : String :=
  line (r.toJson.pretty 0)

/-- A report of corrections. -/
def reportText (r : CorrectionReport) : String :=
  String.join (r.corrections.map fun c => line c.display) ++
    line r.summary

/-! ## The list of rules -/

/-- A text with spaces behind it up to a width. -/
def padRight (width : Nat) (text : String) : String :=
  text ++ String.ofList (List.replicate (width - text.length) ' ')

/-- A row of the list. -/
def row (identifier capabilities description : String) : String :=
  line (padRight 30 identifier ++ " " ++ padRight 26 capabilities ++ " " ++
    description)

/-- What a rule can do. -/
def capabilities (r : Rule) : String :=
  let names :=
    (if r.optIn then ["opt-in"] else []) ++
      (if r.correct?.isSome then ["correctable"] else []) ++
      (if r.configuration.isSome then ["configurable"] else [])
  if names.isEmpty then "-" else ", ".intercalate names

/-- The list of rules. -/
def rulesText (rules : List Rule) : String :=
  line "Available rules:\n" ++
    row "Identifier" "Capabilities" "Description" ++
    line (String.ofList (List.replicate 100 '-')) ++
    String.join (rules.map fun r =>
      row r.identifier (capabilities r) r.description.description) ++
    line ("\nOpt-in rules only run when listed in " ++
      "\x60opt_in_rules\x60.") ++
    line "\nUse --rules to run specific rules, e.g.:" ++
    line "  stylint lint --rules statement_position,line_length"

/-! ## The configuration to start from -/

/-- The path of the configuration. -/
def starterPath : Path := ⟨"./stylint.toml"⟩

/-- The configuration. -/
def starterConfig : String :=
  "# stylint configuration\n\n" ++
    "# Rules that never run\ndisabled_rules = []\n\n" ++
    "# Opt-in rules to enable (see \x60stylint rules\x60)\n" ++
    "opt_in_rules = []\n\n" ++
    "# Severity at which \x60stylint lint\x60 exits with an error: " ++
    "\"info\", \"warning\", \"error\"\nfail_on = \"error\"\n\n" ++
    "[analyzer]\n" ++
    "# Root directory to lint (default: current directory)\n" ++
    "# root = \"./Sources\"\n\n" ++
    "# Glob patterns to exclude\nexclude = [\n" ++
    "    \"**/.build/**\",\n    \"**/Pods/**\",\n" ++
    "    \"**/Carthage/**\",\n]\n\n" ++
    "# File extensions to lint\nextensions = [\"swift\"]\n\n" ++
    "# Per-rule configuration, keyed by rule identifier\n[rules]\n" ++
    "# Warning threshold first, then error threshold\n" ++
    "line_length = [120, 200]\n\n" ++
    "# Per-rule severity overrides\n[severity]\n" ++
    "# statement_position = \"error\"\n"

/-- What is told when the configuration has been written. -/
def starterText : String :=
  line ("Created " ++ starterPath.text) ++ line "\nNext steps:" ++
    line "  1. Edit stylint.toml to configure rules" ++
    line "  2. Run: stylint lint"

end SwiftStyle.CommandLine
