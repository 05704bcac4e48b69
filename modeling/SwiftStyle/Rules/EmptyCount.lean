import SwiftStyle.Rule.Basic

/-!
# Counts compared with zero

Asking whether something is empty is clearer than comparing its count
with zero. The rule is to be opted in to.
-/

namespace SwiftStyle.EmptyCount

/-- What is known about the rule. -/
def description : RuleDescription where
  identifier := "empty_count"
  name := "Empty Count"
  description :=
    "Prefer checking \x60isEmpty\x60 over comparing \x60count\x60 to zero."
  nonTriggering :=
    ["var count = 0\n", "[Int]().isEmpty\n", "[Int]().count > 1\n",
     "[Int]().count == 1\n", "discount == 0\n",
     "let s = \"count == 0\"\n"]
  triggering :=
    ["[Int]().count == 0\n", "[Int]().count > 0\n",
     "[Int]().count != 0\n", "if items.count==0 \x7b\n\x7d\n"]

/-- A comparison. -/
def comparison : Pattern :=
  .oneOf (.text "==")
    [.text "!=", .text "<=", .text ">=", .text "<", .text ">"]

/-- The word that is compared with zero, the comparison and zero. -/
def pattern : Pattern :=
  .inOrder
    [.wordEdge, .text "count", .blanks, comparison, .blanks, .char '0',
     .wordEdge]

/-- Whether a match begins with a name. -/
def keeps (m : SourceMatch) : Bool :=
  m.startsWith .identifier

/-- The violations in a file. -/
def validate (file : SourceFile) : List Violation :=
  ((file.matchesOf pattern).filter keeps).map fun m =>
    description.violationAt file m.span.start

/-- **The rule.** -/
def rule : Rule where
  description := description
  validate := validate
  optIn := true

end SwiftStyle.EmptyCount
