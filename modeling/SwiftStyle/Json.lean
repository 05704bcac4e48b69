import SwiftStyle.Report

/-!
# Reports as JSON

The findings and reports of this library have a JSON form, which is
printed over several lines: every item of an array and every member of an
object has a line of its own, and its level is shown by two spaces each.

Members stand in the order in which they are given, and nothing is sorted or
left out. A text is escaped as far as JSON asks for it and no further, so
characters outside ASCII stand for themselves.
-/

namespace SwiftStyle

/-- **A JSON value**, of the sorts that reports are made of. -/
inductive Json where
  /-- No value. -/
  | null
  /-- A natural number. -/
  | number (n : Nat)
  /-- A text. -/
  | text (s : String)
  /-- Values in order. -/
  | array (items : List Json)
  /-- Named values in order. -/
  | object (members : List (String × Json))
deriving Repr, Inhabited

namespace Json

/-- A character as it stands in a JSON text. -/
def escape (c : Char) : List Char :=
  if c = '"' || c = '\\' then ['\\', c]
  else if c = '\n' then ['\\', 'n']
  else if c = '\r' then ['\\', 'r']
  else if c = '\t' then ['\\', 't']
  else if c = '\x08' then ['\\', 'b']
  else if c = '\x0c' then ['\\', 'f']
  else if c.toNat < 32 then
    let digits := Nat.toDigits 16 c.toNat
    ['\\', 'u'] ++ List.replicate (4 - digits.length) '0' ++ digits
  else [c]

/-- A text between quotation marks. -/
def quote (s : String) : String :=
  String.ofList ('"' :: s.toList.flatMap escape ++ ['"'])

/-- The start of a line at a level. -/
def indent (level : Nat) : String :=
  String.ofList (List.replicate (2 * level) ' ')

/-- The lines of a container: its items, each indented, between its
brackets; all on one line if there are none. -/
def bracketed (opening closing : String) (level : Nat)
    (items : List String) : String :=
  if items.isEmpty then opening ++ closing
  else
    opening ++ "\n" ++
      ",\n".intercalate (items.map (indent (level + 1) ++ ·)) ++ "\n" ++
      indent level ++ closing

mutual

/-- **A value over several lines**, at a level. -/
def pretty (level : Nat) : Json → String
  | null => "null"
  | number n => toString n
  | text s => quote s
  | array items => bracketed "[" "]" level (prettyItems (level + 1) items)
  | object members =>
    bracketed "\x7b" "\x7d" level (prettyMembers (level + 1) members)

/-- The items of an array. -/
def prettyItems (level : Nat) : List Json → List String
  | [] => []
  | item :: rest => item.pretty level :: prettyItems level rest

/-- The members of an object. -/
def prettyMembers (level : Nat) : List (String × Json) → List String
  | [] => []
  | (name, value) :: rest =>
    (quote name ++ ": " ++ value.pretty level) :: prettyMembers level rest

end

end Json

/-! ## The forms of findings and reports -/

/-- The form of a rule. -/
def RuleDescription.toJson (d : RuleDescription) : Json :=
  .object
    [("identifier", .text d.identifier), ("name", .text d.name),
     ("description", .text d.description)]

/-- The form of a place. -/
def Location.toJson (l : Location) : Json :=
  .object
    [("file", (l.file.map fun p => Json.text p.text).getD .null),
     ("offset", .number l.offset), ("line", .number l.line),
     ("column", .number l.column)]

/-- The form of a violation; a reason that there is not is left out. -/
def Violation.toJson (v : Violation) : Json :=
  .object
    ([("rule", v.rule.toJson), ("location", v.location.toJson),
      ("severity", .text v.severity.name)] ++
      v.reason.toList.map fun reason => ("reason", .text reason))

/-- The form of a correction. -/
def Correction.toJson (c : Correction) : Json :=
  .object [("rule", c.rule.toJson), ("location", c.location.toJson)]

/-- The form of a failure to save. -/
def PersistFailure.toJson (f : PersistFailure) : Json :=
  .object [("file", .text f.file.text), ("message", .text f.message)]

/-- The form of the result of linting. -/
def LintResult.toJson (r : LintResult) : Json :=
  .object
    [("violations", .array (r.violations.map Violation.toJson)),
     ("files_checked", .number r.filesChecked)]

/-- The form of the result of correcting. -/
def CorrectionReport.toJson (r : CorrectionReport) : Json :=
  .object
    [("corrections", .array (r.corrections.map Correction.toJson)),
     ("files_corrected", .number r.filesCorrected),
     ("files_checked", .number r.filesChecked),
     ("failures", .array (r.failures.map PersistFailure.toJson))]

end SwiftStyle
