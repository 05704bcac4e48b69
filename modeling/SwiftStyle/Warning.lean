import SwiftStyle.Source.Substitution

/-!
# Warnings

What goes wrong without stopping a run, as causes; the wording is in
`Warning.message`.
-/

namespace SwiftStyle

/-- **Something that is worth telling and stops nothing.** -/
inductive Warning where
  /-- A second rule type came with an identifier. -/
  | registeredTwice (identifier : String)
  /-- A configuration names a rule that there is not. -/
  | unknownRule (identifier : String)
  /-- The configured value of a rule has the wrong shape. -/
  | invalidValue (identifier : String)
  /-- A rule that is not configurable has a configured value. -/
  | notConfigurable (identifier : String)
  /-- A file could not be read. -/
  | unreadable (cause : SourceError)
  /-- A corrected file could not be saved. -/
  | unsaved (cause : CorrectionError)
deriving DecidableEq, Repr

/-- The wording. -/
def Warning.message : Warning → String
  | registeredTwice identifier =>
    "Rule '" ++ identifier ++ "' registered twice; keeping the first"
  | unknownRule identifier =>
    "Configuration references unknown rule '" ++ identifier ++ "'"
  | invalidValue identifier =>
    "Invalid configuration for rule '" ++ identifier ++ "'; rule disabled"
  | notConfigurable identifier =>
    "Rule '" ++ identifier ++
      "' is not configurable; ignoring its configuration"
  | unreadable cause => cause.message
  | unsaved cause => cause.message

end SwiftStyle
