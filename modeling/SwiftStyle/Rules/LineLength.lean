import SwiftStyle.Rule.Basic

/-!
# The length of lines

A line has a limited number of characters. The limits are the parameters
of the rule; a line that exceeds several of them is reported once, for
the greatest. Of equal limits the last one listed counts.
-/

namespace SwiftStyle.LineLength

/-- What is known about the rule. -/
def description : RuleDescription where
  identifier := "line_length"
  name := "Line Length"
  description := "Lines should not span too many characters."
  nonTriggering := ["let short = 1\n"]
  triggering :=
    ["let long = \"" ++ String.ofList (List.replicate 92 'x') ++ "\"\n"]

/-- The limits by default. -/
def defaultLimits : List Nat := [100, 200]

/-- The greater of two limits, the second one if they are equal. -/
def greater (p q : Parameter Nat) : Parameter Nat :=
  if p.value ≤ q.value then q else p

/-- The greatest limit that a length exceeds, if it exceeds any. -/
def exceeded? (limits : List (Parameter Nat)) (length : Nat) :
    Option (Parameter Nat) :=
  match limits.filter fun p => decide (p.value < length) with
  | [] => none
  | first :: later => some (later.foldl greater first)

/-- The reason of a violation. -/
def reason (limit length : Nat) : String :=
  "Line should be " ++ toString limit ++
    " characters or less: currently " ++ toString length ++ " characters"

/-- The violation of a line, if it exceeds a limit. -/
def violation? (limits : List (Parameter Nat)) (file : SourceFile)
    (line : Line) : Option Violation :=
  let length := line.content.length
  (exceeded? limits length).map fun limit =>
    ⟨description, file.locate line.offset, limit.severity,
     some (reason limit.value length)⟩

/-- The violations in a file. -/
def validate (limits : List (Parameter Nat)) (file : SourceFile) :
    List Violation :=
  file.lines.filterMap (violation? limits file)

/-- The rules with given limits. -/
def family : Family Nat where
  name := "line_length"
  rule limits := { description, validate := validate limits }

/-- The rule with given limits. -/
def withLimits (limits : List Nat) : Rule :=
  family.withValues limits

/-- **The rule type.** -/
def type : RuleType :=
  family.type defaultLimits

end SwiftStyle.LineLength
