import SwiftStyle.Registry
import SwiftStyle.Rules.CollectionShorthand
import SwiftStyle.Rules.EmptyCount
import SwiftStyle.Rules.LineLength
import SwiftStyle.Rules.StatementPosition

/-!
# The built-in rules

Three of them are fixed and one, the length of lines, is configured by its
limits. They are registered in the order in which a report about a file lists
what they find at one place.
-/

namespace SwiftStyle.BuiltIn

/-- **The registry of the built-in rules.** -/
def registry : Registry :=
  Registry.empty
    |>.register ⟨StatementPosition.rule, none⟩
    |>.register ⟨CollectionShorthand.rule, none⟩
    |>.registerConfigurable LineLength.type
    |>.register ⟨EmptyCount.rule, none⟩

/-- The built-in rules that need not be opted in to. -/
def defaultRules : List Rule :=
  [StatementPosition.rule, CollectionShorthand.rule,
   LineLength.type.default]

/-- All built-in rules. -/
def allRules : List Rule :=
  defaultRules ++ [EmptyCount.rule]

end SwiftStyle.BuiltIn
