import SwiftStyle.Rule.Parameter
import SwiftStyle.Source.Substitution

/-!
# Rules

A rule looks at a source file and reports violations. Beyond that it may
have to be opted in to, be configurable, or be able to correct what it
reports; what a rule can do is part of it.

A **rule type** has a default rule and, if its rules are configurable,
reads a rule from a configured value.

What two rules are compared by depends on both of them: their configurations,
if both have one, and otherwise their identifiers. A configuration carries the
name of its rule type, so that settings of different types never agree,
whatever their identifiers are.

A rule that corrects by substitutions makes them one after the other
(`Substitution.applyAll`). If one fails, its error is the outcome, and the
corrections before it are not part of it, though the file has been changed by
them.
-/

namespace SwiftStyle

/-- **What a configurable rule is set to.** -/
inductive Setting where
  /-- Parameters. -/
  | parameters (list : Parameters)
  /-- A setting of the rule's own, in a form in which two settings are the
  same only if they are equal. -/
  | own (text : String)
deriving Repr, Inhabited

/-- Whether two settings are of one sort and agree. -/
def Setting.same : Setting → Setting → Bool
  | parameters ps, parameters qs => ps.same qs
  | own s, own t => s == t
  | _, _ => false

/-- **The configuration of a rule**, together with the name of its rule
type: settings of different rule types are not compared. -/
structure Configuration where
  /-- The name of the rule type. -/
  family : String
  /-- What the rule is set to. -/
  setting : Setting
deriving Repr, Inhabited

/-- Whether two configurations are of one rule type and agree. -/
def Configuration.same (a b : Configuration) : Bool :=
  a.family == b.family && a.setting.same b.setting

/-- **A rule.** -/
structure Rule where
  /-- What is known about it. -/
  description : RuleDescription
  /-- The violations in a file. -/
  validate : SourceFile → List Violation
  /-- Whether it runs only if a configuration lists it. -/
  optIn : Bool := false
  /-- Its configuration, if it is configurable. -/
  configuration : Option Configuration := none
  /-- How it corrects a file, if it can. -/
  correct? : Option (SourceFile → Disk → Attempt (List Correction)) := none

namespace Rule

/-- The name by which configurations refer to the rule. -/
def identifier (r : Rule) : String :=
  r.description.identifier

/-- The parameters of the rule, if it has any. -/
def parameters? (r : Rule) : Option Parameters :=
  match r.configuration with
  | some ⟨_, .parameters list⟩ => some list
  | _ => none

/-- **Whether two rules are the same**: if both are configurable, whether
their configurations agree; otherwise whether their identifiers do. -/
def same (a b : Rule) : Bool :=
  match a.configuration, b.configuration with
  | some c, some d => c.same d
  | _, _ => a.identifier == b.identifier

/-- Whether two lists have the same rules, in order. -/
def sameAll : List Rule → List Rule → Bool
  | [], [] => true
  | a :: as, b :: bs => a.same b && sameAll as bs
  | _, _ => false

/-- A short text for a rule. -/
def describe (r : Rule) : String :=
  "Rule(\"" ++ r.identifier ++ "\")"

end Rule

/-- The violation of a rule at an offset in a file. -/
def RuleDescription.violationAt (d : RuleDescription) (file : SourceFile)
    (offset : Nat) : Violation :=
  ⟨d, file.locate offset, .warning, none⟩

/-- **Make several substitutions**, each in the text that the one before
it left. One that fails ends the attempt, and the corrections before it
are not part of the outcome. -/
def Substitution.applyAll (rule : RuleDescription) :
    List Substitution → SourceFile → Disk → Attempt (List Correction)
  | [], file, disk => ⟨.ok [], file, disk⟩
  | s :: rest, file, disk =>
    match s.apply rule file disk with
    | ⟨.ok result, file, disk⟩ =>
      (applyAll rule rest file disk).map (result.corrections ++ ·)
    | ⟨.error e, file, disk⟩ => ⟨.error e, file, disk⟩

/-- **A rule type.** -/
structure RuleType where
  /-- The rule without a configured value. -/
  default : Rule
  /-- The rule of a configured value, if rules of the type are
  configurable and the value has the right shape. -/
  ofValue? : Option (Toml.Value → Option Rule) := none

/-- The rule type without its way to configure rules. -/
def RuleType.fixed (t : RuleType) : RuleType :=
  { t with ofValue? := none }

/-- **A family of rules that are configured by parameters** of one type.
The parameters become the configuration of the rule. -/
structure Family (α : Type) where
  /-- The name of the rule type. -/
  name : String
  /-- The rule with given parameters, but for its configuration. -/
  rule : List (Parameter α) → Rule

namespace Family

variable {α : Type} [ParameterType α]

/-- The rule of the family with given parameters. -/
def withParameters (f : Family α) (list : List (Parameter α)) : Rule :=
  { f.rule list with
    configuration :=
      some ⟨f.name, .parameters (ParameterType.pack list)⟩ }

/-- The rule of the family with given values. -/
def withValues (f : Family α) (values : List α) : Rule :=
  f.withParameters (Parameter.ofValues values)

/-- **The rule of a configured value**: an array of values of the type. -/
def ofValue? (f : Family α) (v : Toml.Value) : Option Rule :=
  (ParameterType.array? α v).map f.withValues

/-- The rule type whose default rule has given values. -/
def type (f : Family α) (default : List α) : RuleType :=
  ⟨f.withValues default, some f.ofValue?⟩

end Family

end SwiftStyle
