import SwiftStyle.Rules.BuiltIn
import SwiftStyle.Sample.Patterns

/-!
# Sample rules

Rules that report nothing and show one capability each: a rule to be
opted in to, rules that are configured by parameters of each type, a rule
with a setting of its own, and a rule whose corrections cannot be saved.
Some of them share an identifier, as rules of different clients may.

They are rules like any other to a registry, a linter and a configuration.
What is proved of all rules is proved of them, and they are what a statement
about several rules of one identifier is tried on.
-/

namespace SwiftStyle.Sample

/-- A rule that reports nothing. -/
def silent (identifier name description : String) : Rule where
  description := { identifier, name, description }
  validate _ := []

/-- A rule that can do nothing. -/
def plain : Rule :=
  silent "plain" "Plain" "Always passes"

/-- Another rule with the same identifier. -/
def plainTwin : Rule :=
  silent "plain" "Twin" "Same identifier"

/-- A rule to be opted in to. -/
def extra : Rule :=
  { silent "extra" "Extra" "Opt-in" with optIn := true }

/-- A rule with a setting of its own: a truth value. -/
def switch (enabled : Bool) : Rule :=
  { silent "plain" "Switch" "Configurable" with
    configuration := some ⟨"switch", .own (toString enabled)⟩ }

/-- The setting of a rule of the sort of `switch`. -/
def isSwitchedOn? (r : Rule) : Option Bool :=
  match r.configuration with
  | some ⟨"switch", .own text⟩ => some (text == toString true)
  | _ => none

/-- The type of the rules with a truth value as setting. -/
def switchType : RuleType where
  default := switch false
  ofValue? := some fun v => do
    let enabled ← (← Toml.lookup "enabled" (← v.table?)).boolean?
    return switch enabled

/-- A family of rules that report nothing. -/
def probe {α : Type} (family identifier : String) : Family α where
  name := family
  rule _ := silent identifier "Probe" "Parameterized"

/-- A path below a directory that does not exist. -/
def missingPath : Path :=
  ⟨"/nonexistent-stylint/r.swift"⟩

/-- A correction that drops semicolons at the ends of lines. -/
def dropSemicolons : Substitution where
  pattern := trailingSemicolon
  template := .ofString "\n"
  keep _ := true

/-- A rule that corrects a file and saves it where it cannot be. -/
def redirect : Rule :=
  let rule := silent "redirect" "Redirect" "Fails to save"
  { rule with
    correct? := some fun file disk =>
      (dropSemicolons.apply rule.description
        ((SourceFile.ofContents file.contents).withPath missingPath)
        disk).map (·.corrections) }

/-- All rule types by name, the built-in ones among them. -/
def types : List (String × RuleType) :=
  [("statement_position", ⟨StatementPosition.rule, none⟩),
   ("collection_shorthand_syntax", ⟨CollectionShorthand.rule, none⟩),
   ("line_length", LineLength.type),
   ("empty_count", ⟨EmptyCount.rule, none⟩),
   ("plain", ⟨plain, none⟩),
   ("plain_twin", ⟨plainTwin, none⟩),
   ("extra", ⟨extra, none⟩),
   ("switch", switchType),
   ("probe_int", (probe (α := Int) "probe_int" "probe_int").type [-1]),
   ("probe_size", (probe (α := Nat) "probe_size" "probe_size").type [80]),
   ("probe_size_twin",
    (probe (α := Nat) "probe_size_twin" "probe_size").type [80]),
   ("probe_float",
    (probe (α := Binary64) "probe_float" "probe_float").type
      [.ofDecimal false 5 (-1)]),
   ("probe_bool", (probe (α := Bool) "probe_bool" "probe_bool").type []),
   ("probe_text",
    (probe (α := String) "probe_text" "probe_text").type ["a"]),
   ("redirect", ⟨redirect, none⟩)]

/-- The rule type of a name. -/
def type? (name : String) : Option RuleType :=
  (types.find? fun entry => entry.1 == name).map (·.2)

/-- A registry of rule types that are given by name. -/
def registryOf (names : List String) : Registry :=
  (names.filterMap type?).foldl Registry.registerConfigurable .empty

/-- The registries by name. -/
def registry? (name : String) : Option Registry :=
  if name = "builtin" then some BuiltIn.registry
  else if name = "probe" then
    some <| registryOf
      ["plain", "extra", "probe_int", "probe_size", "probe_float",
       "probe_bool", "probe_text", "plain_twin", "probe_size_twin"]
  else if name = "empty" then some .empty
  else if name = "redirect" then
    some <| registryOf
      ["statement_position", "redirect", "collection_shorthand_syntax"]
  else none

end SwiftStyle.Sample
