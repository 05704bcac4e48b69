import SwiftStyle.Config
import SwiftStyle.Rule.Basic
import SwiftStyle.Warning

/-!
# Registries

A registry knows rule types by the identifiers of their rules. The first
rule type with an identifier keeps it, so the identifiers of a registry
are distinct; that is part of the type.

A configuration picks rules out of a registry: `configuredRules` lists
the enabled ones in the order of registration, each as it is configured,
and `configurationWarnings` what was amiss with the configuration.

A type that comes too late is refused and remembered, for a warning; the types
that were there first are never replaced or moved. Rules that are not
configurable can be registered with a way to read values all the same, which
is dropped then (`Registry.register`).
-/

namespace SwiftStyle

/-- The identifier of the rules of a rule type. -/
def RuleType.identifier (t : RuleType) : String :=
  t.default.identifier

/-- **A registry of rule types.** -/
structure Registry where
  /-- The rule types, in the order of registration. -/
  types : List RuleType := []
  /-- The identifiers of the rule types that came too late. -/
  refused : List String := []
  /-- The identifiers are distinct. -/
  distinct : (types.map RuleType.identifier).Nodup := by simp

namespace Registry

/-- A registry without rules. -/
def empty : Registry := {}

/-- The rule type with an identifier. -/
def find? (r : Registry) (identifier : String) : Option RuleType :=
  r.types.find? fun t => t.identifier == identifier

/-- Whether there is a rule type with an identifier. -/
def contains (r : Registry) (identifier : String) : Bool :=
  r.types.any fun t => t.identifier == identifier

/-- A registry does not contain an identifier that none of its rule types
has. -/
theorem contains_eq_false_iff {r : Registry} {identifier : String} :
    r.contains identifier = false ↔
      identifier ∉ r.types.map RuleType.identifier := by
  simp [contains, List.any_eq_false]

/-- The registry with a rule type that may be configured. -/
def registerConfigurable (r : Registry) (t : RuleType) : Registry :=
  if h : r.contains t.identifier then
    { r with refused := r.refused ++ [t.identifier] }
  else
    { r with
      types := r.types ++ [t]
      distinct := by
        have hn := contains_eq_false_iff.1 (Bool.not_eq_true _ ▸ h)
        rw [List.map_append, List.nodup_append]
        refine ⟨r.distinct, by simp, fun a ha b hb => ?_⟩
        simp only [List.map_cons, List.map_nil, List.mem_singleton] at hb
        rintro rfl
        exact hn (hb ▸ ha) }

/-- **The registry with a rule type** whose rules are not configured. -/
def register (r : Registry) (t : RuleType) : Registry :=
  r.registerConfigurable t.fixed

/-- The number of rule types. -/
def size (r : Registry) : Nat :=
  r.types.length

/-- Whether there are no rule types. -/
def isEmpty (r : Registry) : Bool :=
  r.types.isEmpty

/-- The default rule with an identifier. -/
def rule? (r : Registry) (identifier : String) : Option Rule :=
  (r.find? identifier).map (·.default)

/-- The default rules of all rule types. -/
def allRules (r : Registry) : List Rule :=
  r.types.map (·.default)

/-- The default rules that need not be opted in to. -/
def defaultRules (r : Registry) : List Rule :=
  r.allRules.filter fun rule => !rule.optIn

/-- The warnings of the registrations. -/
def registrationWarnings (r : Registry) : List Warning :=
  r.refused.map .registeredTwice

/-- The identifiers between brackets. -/
def describe (r : Registry) : String :=
  "[" ++ ", ".intercalate
    (r.types.map fun t => "\"" ++ t.identifier ++ "\"") ++ "]"

end Registry

/-! ## Configured rules -/

/-- The rule of a rule type as it is configured, if it is enabled and its
configured value has the right shape, and what is amiss with the
configuration. -/
def RuleType.configured (t : RuleType) (c : Config) :
    Option Rule × Option Warning :=
  if c.isEnabled t.identifier t.default.optIn then
    match c.valueOf? t.identifier, t.ofValue? with
    | some v, some ofValue? =>
      match ofValue? v with
      | some rule => (some rule, none)
      | none => (none, some (.invalidValue t.identifier))
    | some _, none =>
      (some t.default, some (.notConfigurable t.identifier))
    | none, _ => (some t.default, none)
  else (none, none)

namespace Registry

/-- **The rules that a configuration enables**, as it configures them. -/
def configuredRules (r : Registry) (c : Config) : List Rule :=
  r.types.filterMap fun t => (t.configured c).1

/-- The rules that a configuration names and that are not in the
registry, each once and in ascending order. -/
def unknownIn (r : Registry) (c : Config) : List String :=
  (c.named.filter fun name => !r.contains name).eraseDups.mergeSort
    fun a b => decide (a ≤ b)

/-- **The warnings of a configuration**: first the unknown rules, then
what is amiss with the values of the known ones. -/
def configurationWarnings (r : Registry) (c : Config) : List Warning :=
  (r.unknownIn c).map .unknownRule ++
    r.types.filterMap fun t => (t.configured c).2

end Registry
end SwiftStyle
