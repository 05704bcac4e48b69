import SwiftStyle.Severity
import SwiftStyle.Toml.Value

/-!
# Parameters of rules

A rule may be configured by a list of values of one type. The first value
is a warning threshold and the others are error thresholds, so a value
and its place in the list make a **parameter**.

The types are a closed set: integers, sizes, doubles, truth values and
texts. `Parameters` is a list of parameters of any of them, and two such
lists are the same when they are of one type and agree item by item –
where doubles agree as numbers, so that what is not a number agrees with
nothing.
-/

namespace SwiftStyle

/-- **A value and how serious it is** to exceed it. -/
structure Parameter (α : Type) where
  /-- How serious it is. -/
  severity : Severity
  /-- The value. -/
  value : α
deriving DecidableEq, Repr, Inhabited

namespace Parameter

/-- The parameters of values that follow the first. -/
def ofLater {α : Type} (values : List α) : List (Parameter α) :=
  values.map fun v => ⟨.error, v⟩

/-- **The parameters of a list of values.** -/
def ofValues {α : Type} : List α → List (Parameter α)
  | [] => []
  | first :: later => ⟨.warning, first⟩ :: ofLater later

/-- Two lists of parameters agree item by item, given when values do. -/
def sameAll {α : Type} (same : α → α → Bool) :
    List (Parameter α) → List (Parameter α) → Bool
  | [], [] => true
  | p :: ps, q :: qs =>
    p.severity == q.severity && same p.value q.value && sameAll same ps qs
  | _, _ => false

/-- The parameters of values that follow the first are for errors. -/
theorem of_mem_ofLater {α : Type} {values : List α} {p : Parameter α}
    (h : p ∈ ofLater values) : p.value ∈ values ∧ p.severity = .error := by
  obtain ⟨value, hvalue, rfl⟩ := List.mem_map.1 h
  exact ⟨hvalue, rfl⟩

/-- The values of parameters are the values they were made of. -/
@[simp] theorem map_value_ofValues {α : Type} (values : List α) :
    (ofValues values).map (·.value) = values := by
  cases values with
  | nil => rfl
  | cons first later => simp [ofValues, ofLater, Function.comp_def]

end Parameter

/-- **Parameters of any one type.** -/
inductive Parameters where
  /-- Integers. -/
  | integers (list : List (Parameter Int))
  /-- Integers that are not negative. -/
  | sizes (list : List (Parameter Nat))
  /-- Doubles. -/
  | floats (list : List (Parameter Binary64))
  /-- Truth values. -/
  | flags (list : List (Parameter Bool))
  /-- Texts. -/
  | texts (list : List (Parameter String))
deriving Repr, Inhabited

/-- Whether parameters are of one type and agree. -/
def Parameters.same : Parameters → Parameters → Bool
  | integers ps, integers qs => Parameter.sameAll (· == ·) ps qs
  | sizes ps, sizes qs => Parameter.sameAll (· == ·) ps qs
  | floats ps, floats qs => Parameter.sameAll Binary64.numericEq ps qs
  | flags ps, flags qs => Parameter.sameAll (· == ·) ps qs
  | texts ps, texts qs => Parameter.sameAll (· == ·) ps qs
  | _, _ => false

/-- **A type that parameters may have**: how a value of it is read from a
configuration, and how parameters of it are kept. -/
class ParameterType (α : Type) where
  /-- The value that is read, if it has the right shape. -/
  ofValue? : Toml.Value → Option α
  /-- Parameters of the type. -/
  pack : List (Parameter α) → Parameters

instance : ParameterType Int := ⟨Toml.Value.integer?, .integers⟩

instance : ParameterType Nat where
  ofValue? v := do
    let n ← v.integer?
    if 0 ≤ n then some n.toNat else none
  pack := .sizes

instance : ParameterType Binary64 where
  ofValue? v :=
    match v with
    | .float x => some x
    | .integer n => some (.ofInt n)
    | _ => none
  pack := .floats

instance : ParameterType Bool := ⟨Toml.Value.boolean?, .flags⟩

instance : ParameterType String := ⟨Toml.Value.string?, .texts⟩

/-- **The values of an array**, if it is one and all its items have the
right shape. -/
def ParameterType.array? (α : Type) [ParameterType α] (v : Toml.Value) :
    Option (List α) := do
  (← v.array?).mapM ofValue?

end SwiftStyle
