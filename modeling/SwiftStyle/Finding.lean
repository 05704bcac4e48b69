import SwiftStyle.Severity
import SwiftStyle.Source.File

/-!
# Findings

What rules report. A **violation** is a place in a source file where a
rule does not hold; a **correction** is a place where a rule changed the
text. Both carry the description of their rule and a location whose line
and column were resolved in the text they were found in.

A location is resolved once, when the finding is made, and is never looked up
again. This is why the corrections of a rule that corrects twice have lines
and columns of two different texts, each of them right in its own.
-/

namespace SwiftStyle

/-- **What is known about a rule**, the same for all its instances. -/
structure RuleDescription where
  /-- The name by which configurations refer to the rule. -/
  identifier : String
  /-- The name people read. -/
  name : String
  /-- What the rule asks. -/
  description : String
  /-- Texts that satisfy the rule. -/
  nonTriggering : List String := []
  /-- Texts that violate the rule. -/
  triggering : List String := []
  /-- Texts and what the rule corrects them to. -/
  corrections : List (String × String) := []
deriving DecidableEq, Repr, Inhabited

namespace RuleDescription

/-- Whether two descriptions are of one rule: their identifiers agree. -/
def same (a b : RuleDescription) : Bool :=
  a.identifier == b.identifier

/-- The name with the identifier. -/
def display (d : RuleDescription) : String :=
  d.name ++ " (" ++ d.identifier ++ ")"

end RuleDescription

/-- **A place in a source file.** -/
structure Location where
  /-- The path of the file, if it has one. -/
  file : Option Path
  /-- The byte offset in the text. -/
  offset : Nat
  /-- The line, counted from one. -/
  line : Nat
  /-- The column, counted from one. -/
  column : Nat
deriving DecidableEq, Repr, Inhabited

/-- The location of an offset in a file; an offset past the end is taken
for the end. -/
def SourceFile.locate (file : SourceFile) (offset : Nat) : Location :=
  let offset := min offset file.size
  let position := file.positionAt offset
  ⟨file.path, offset, position.line, position.column⟩

/-- The path, the line and the column. -/
def Location.display (l : Location) : String :=
  let file := (l.file.map (·.text)).getD "<stdin>"
  file ++ ":" ++ toString l.line ++ ":" ++ toString l.column

/-- **A violation of a rule.** -/
structure Violation where
  /-- The rule. -/
  rule : RuleDescription
  /-- Where it is violated. -/
  location : Location
  /-- How serious this is. -/
  severity : Severity := .warning
  /-- What is wrong here in particular, if there is more to say than
  the rule does. -/
  reason : Option String := none
deriving DecidableEq, Repr, Inhabited

namespace Violation

/-- The reason, or else what the rule asks. -/
def message (v : Violation) : String :=
  v.reason.getD v.rule.description

/-- One line for editors and logs. -/
def display (v : Violation) : String :=
  v.location.display ++ ": " ++ v.severity.name ++ ": " ++ v.rule.name ++
    " Violation: " ++ v.message ++ " (" ++ v.rule.identifier ++ ")"

/-- Where the violation is, in words. -/
def heading (v : Violation) : String :=
  v.rule.identifier ++ " " ++ v.rule.name ++ " at " ++ v.location.display

/-- Two lines for terminals. -/
def format (v : Violation) : String :=
  v.heading ++ "\n  " ++ v.severity.name ++ ": " ++ v.message ++ "\n"

/-- The violation with a severity. -/
def withSeverity (v : Violation) (severity : Severity) : Violation :=
  { v with severity }

end Violation

/-- **A violation as a note on the source**: a title, help on it if the
title does not tell the whole rule, and a label at an offset. -/
structure Diagnostic where
  /-- The title. -/
  title : String
  /-- What the rule asks, if the title tells something else. -/
  help : Option String
  /-- The offset of the label. -/
  offset : Nat
  /-- The label. -/
  label : String
deriving DecidableEq, Repr

/-- The note on a violation. -/
def Violation.diagnostic (v : Violation) : Diagnostic where
  title := "[" ++ v.rule.identifier ++ "] " ++ v.message
  help := v.reason.map fun _ => v.rule.description
  offset := v.location.offset
  label := v.rule.name ++ " (" ++ v.severity.name ++ ")"

/-- **A change by a rule.** -/
structure Correction where
  /-- The rule. -/
  rule : RuleDescription
  /-- Where the replaced text began, in the text before the change. -/
  location : Location
deriving DecidableEq, Repr, Inhabited

/-- One line about a correction. -/
def Correction.display (c : Correction) : String :=
  c.location.display ++ " Corrected " ++ c.rule.name

end SwiftStyle
