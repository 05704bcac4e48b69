import Mathlib.Data.String.Basic
import SwiftStyle.Proofs.List.Sorted
import SwiftStyle.Proofs.Registry.Configured
import SwiftStyle.Proofs.Text.Bytes

/-!
# What a configuration warns of

A configuration may name rules in five places, and a name that no rule type
answers to is most likely a slip of the pen: it disables a rule, or sets it,
without any effect. Such a name is warned of once, wherever and however often
it is written, and the names come in the order of their bytes.

After the names come the values. A value that nothing can be made of is
warned of once for its rule type, if the type is enabled at all. There are
two sorts of them, and they differ in what becomes of the rule: a rule that
is not configurable stays as it is, and one that is configurable is left out
(`Config.Faults`).

Together with the rules that are kept, this is all that a configuration says
of a registry (`Config.Warns`).

The names are gathered from all five places and then sorted without
repetition, so the strict order of the list says both that it is sorted and
that nothing is in it twice. For the values there is nothing to sort: a
registry has its types in the order of registration, and the warnings keep it,
as do the rules. The three lists of `Config.Warns` are therefore each
described by membership and order, and determined by that.
-/

namespace SwiftStyle.Config

variable {c : Config} {r : Registry} {t : RuleType} {w : Warning}
  {identifier : String}

/-! ## Names

The five places are the disabled rules, the ones to opt in to, the only ones,
the values and the severities. -/

/-- **A configuration names a rule** in one of five places. -/
inductive Names (c : Config) (identifier : String) : Prop
  /-- Among the disabled rules. -/
  | disabled (h : identifier ∈ c.disabledRules)
  /-- Among the rules that are opted in to. -/
  | optedIn (h : identifier ∈ c.optInRules)
  /-- Among the only rules, if these are listed. -/
  | only {list : List String} (hlist : c.onlyRules = some list)
      (h : identifier ∈ list)
  /-- As a rule with a value. -/
  | value {v : Toml.Value} (h : (identifier, v) ∈ c.rules)
  /-- As a rule with a severity. -/
  | severity {s : Severity} (h : (identifier, s) ∈ c.severities)

/-- A name that is unknown in three places, a value for a rule that is not
configurable, one that is of the wrong shape, and one for a rule that is
disabled. -/
example :
    let c : Config :=
      { disabledRules := ["é", "statement_position", "é"]
        optInRules := ["empty_count"]
        rules := [("line_length", .boolean true), ("é", .boolean true),
          ("statement_position", .boolean true),
          ("empty_count", .boolean true)] }
    BuiltIn.registry.configurationWarnings c
      = [.unknownRule "é", .invalidValue "line_length",
         .notConfigurable "empty_count"] := by
  decide +kernel

end SwiftStyle.Config
