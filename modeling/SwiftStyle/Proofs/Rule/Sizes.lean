import Mathlib.Data.Set.List
import SwiftStyle.Proofs.Rule.Equality

/-!
# Rules that are configured by sizes

A family of rules that take sizes as parameters reads a rule from an array of
integers none of which is negative, and from no other value: one item of a
wrong shape rejects the whole (`array?_eq_some_iff`). The rule has the sizes
of the array, in their order, the first of them for warnings and all others
for errors (`IsLadder`).

So a rule keeps all of the array that it was read from, and two rules of one
family are the same exactly if they were read from the same array
(`Family.same_withValues_iff`). Rules of two families are never the same.

Reading is not only sound but loses nothing, and that is what makes sameness
of rules the sameness of arrays: an array of sizes is determined by the sizes
(`sizesValue_inj`), the parameters of a rule by the values they are made of,
and both go back and forth item by item.
-/

namespace SwiftStyle

variable {α β : Type}

/-- **Reading all items of a list** is reading each of them. -/
theorem mapM_eq_some_iff {read : α → Option β} {items : List α}
    {values : List β} :
    items.mapM read = some values
      ↔ List.Forall₂ (fun item value => read item = some value) items
          values := by
  induction items generalizing values with
  | nil => cases values <;> simp
  | cons item items ih =>
    cases values with
    | nil => simp [List.mapM_cons, Option.bind_eq_some_iff]
    | cons value values =>
      simp [List.mapM_cons, Option.bind_eq_some_iff, ih, and_left_comm]

/-! ## The values that are read

An integer that is not negative is a size, and nothing else is. So to read an
array is to read its items, and one that cannot be read stops it. -/

/-- **A value is an array of sizes**: all of its items are integers, and none
of them is negative. -/
def IsSizes (v : Toml.Value) : Prop :=
  ∃ items, v = .array items ∧
    ∀ item ∈ items, ∃ n : Int, item = .integer n ∧ 0 ≤ n

/-- The array of sizes. -/
def sizesValue (sizes : List Nat) : Toml.Value :=
  .array (sizes.map fun n : Nat => .integer n)

variable {v w : Toml.Value} {sizes : List Nat}

theorem isSizes_iff : IsSizes v ↔ ∃ sizes, v = sizesValue sizes := by
  have hrange := Set.range_list_map fun n : Nat => Toml.Value.integer n
  constructor
  · rintro ⟨items, rfl, hitems⟩
    obtain ⟨sizes, rfl⟩ : items ∈ Set.range
        (List.map fun n : Nat => Toml.Value.integer n) := by
      rw [hrange]
      intro item hitem
      obtain ⟨n, rfl, hn⟩ := hitems item hitem
      exact ⟨n.toNat, congrArg _ (Int.toNat_of_nonneg hn)⟩
    exact ⟨sizes, rfl⟩
  · rintro ⟨sizes, rfl⟩
    refine ⟨_, rfl, fun item hitem => ?_⟩
    obtain ⟨n, -, rfl⟩ := List.mem_map.1 hitem
    exact ⟨n, rfl, Int.natCast_nonneg n⟩

namespace ParameterType

/-- A size is read from the integer that it is. -/
theorem ofValue?_eq_some_iff {n : Nat} :
    ofValue? v = some n ↔ v = .integer n := by
  cases v with
  | integer m =>
    show (if 0 ≤ m then some m.toNat else none) = some n ↔ _
    rw [Toml.Value.integer.injEq, Option.ite_none_right_eq_some,
      Option.some_inj]
    omega
  | _ => exact iff_of_false nofun nofun

/-- **Sizes are read from their array**, and from no other value. -/
theorem array?_eq_some_iff :
    array? Nat v = some sizes ↔ v = sizesValue sizes := by
  cases v with
  | array items =>
    show items.mapM ofValue? = some sizes ↔ _
    unfold sizesValue
    rw [mapM_eq_some_iff, Toml.Value.array.injEq, ← List.forall₂_eq_eq_eq,
      List.forall₂_map_right_iff]
    simp only [ofValue?_eq_some_iff]
  | _ => exact iff_of_false nofun nofun

end ParameterType

theorem sizesValue_inj {sizes' : List Nat} :
    sizesValue sizes = sizesValue sizes' ↔ sizes = sizes' := by
  constructor
  · intro h
    have hread := ParameterType.array?_eq_some_iff.2 h
    rw [ParameterType.array?_eq_some_iff.2 rfl] at hread
    exact Option.some_inj.1 hread
  · exact congrArg sizesValue

/-! ## The rules that are read -/

/-- **A ladder of values**: the first is for warnings, and all that follow it
are for errors. -/
structure IsLadder (list : List (Parameter α)) (values : List α) : Prop where
  /-- The values are in their order. -/
  values : list.map (·.value) = values
  /-- The first is for warnings. -/
  first : ∀ p ∈ list.head?, p.severity = .warning
  /-- The others are for errors. -/
  later : ∀ p ∈ list.tail, p.severity = .error

theorem isLadder_ofValues (values : List α) :
    IsLadder (Parameter.ofValues values) values where
  values := Parameter.map_value_ofValues values
  first := by
    cases values with
    | nil => exact nofun
    | cons first later =>
      rintro p ⟨⟩
      rfl
  later := by
    cases values with
    | nil => exact nofun
    | cons first later => exact fun _ hp => (Parameter.of_mem_ofLater hp).2

namespace Family

variable [ParameterType α] [ParameterType β]

/-- What a family of sizes reads. -/
theorem ofValue?_eq_some_iff {f : Family Nat} {r : Rule} :
    f.ofValue? v = some r
      ↔ ∃ sizes, v = sizesValue sizes ∧ r = f.withValues sizes := by
  unfold ofValue?
  rw [Option.map_eq_some_iff]
  simp only [ParameterType.array?_eq_some_iff, eq_comm (b := r)]

/-- **Rules of one family are the same if they have the same sizes**, and only
then. -/
theorem same_withValues_iff (f : Family Nat) {sizes' : List Nat} :
    (f.withValues sizes).same (f.withValues sizes') ↔ sizes = sizes' := by
  rw [Rule.same_of_configured rfl rfl, Configuration.same_iff]
  have hsame : (Setting.parameters (.sizes (Parameter.ofValues sizes))).same
      (.parameters (.sizes (Parameter.ofValues sizes')))
        ↔ Parameter.ofValues sizes = Parameter.ofValues sizes' :=
    Parameter.sameAll_beq_iff
  refine (and_iff_right rfl).trans (hsame.trans ⟨fun h => ?_, congrArg _⟩)
  have hvalues := congrArg (List.map (·.value)) h
  rwa [Parameter.map_value_ofValues, Parameter.map_value_ofValues] at hvalues

/-- **Rules of two families are never the same.** -/
theorem not_same_of_ne {f : Family α} {g : Family β} (h : f.name ≠ g.name)
    (ps : List (Parameter α)) (qs : List (Parameter β)) :
    ¬ (f.withParameters ps).same (g.withParameters qs) := by
  rw [Rule.same_of_configured rfl rfl, Configuration.same_iff]
  exact fun hsame => h hsame.1

/-- **Rules are read from arrays of sizes.** A value is accepted exactly if it
is one, and the rule that is read takes its parameters from it, the first for
warnings and the others for errors. Two rules that are read are the same
exactly if they are read from the same value, and no rule of another family
is the same. A rule with given limits is the one that is read from their
array. -/
theorem reads_sizes (f : Family Nat) (v w : Toml.Value) :
    ((f.ofValue? v).isSome ↔ IsSizes v) ∧
    (∀ r, f.ofValue? v = some r → ∃ sizes list, v = sizesValue sizes ∧
      r.parameters? = some (.sizes list) ∧ IsLadder list sizes) ∧
    (∀ a b, f.ofValue? v = some a → f.ofValue? w = some b →
      (a.same b ↔ v = w)) ∧
    (∀ {β : Type} [ParameterType β] (g : Family β), f.name ≠ g.name →
      ∀ ps qs, ¬ (f.withParameters ps).same (g.withParameters qs)) ∧
    ∀ limits : List Nat, ∃ r,
      LineLength.family.ofValue? (sizesValue limits) = some r ∧
        (LineLength.withLimits limits).same r := by
  refine ⟨?_, ?_, ?_, fun g h => not_same_of_ne h, fun limits => ?_⟩
  · rw [Option.isSome_iff_exists, isSizes_iff]
    simp only [ofValue?_eq_some_iff]
    exact ⟨fun ⟨_, sizes, hv, _⟩ => ⟨sizes, hv⟩,
      fun ⟨sizes, hv⟩ => ⟨_, sizes, hv, rfl⟩⟩
  · intro r hr
    obtain ⟨sizes, rfl, rfl⟩ := ofValue?_eq_some_iff.1 hr
    exact ⟨sizes, _, rfl, rfl, isLadder_ofValues sizes⟩
  · intro a b ha hb
    obtain ⟨sizes, rfl, rfl⟩ := ofValue?_eq_some_iff.1 ha
    obtain ⟨sizes', rfl, rfl⟩ := ofValue?_eq_some_iff.1 hb
    rw [same_withValues_iff, sizesValue_inj]
  · exact ⟨_, ofValue?_eq_some_iff.2 ⟨limits, rfl, rfl⟩,
      (same_withValues_iff _).2 rfl⟩

/-- Two families with one identifier, and two arrays with the same sizes in
different orders. -/
theorem reads_sizes_probe :
    let f : Family Nat := Sample.probe "probe_size" "probe_size"
    let g : Family Nat := Sample.probe "probe_size_twin" "probe_size"
    ∃ a b, f.ofValue? (sizesValue [80, 120]) = some a ∧
      f.ofValue? (sizesValue [120, 80]) = some b ∧
      (∃ sizes list, sizesValue [80, 120] = sizesValue sizes ∧
        a.parameters? = some (.sizes list) ∧ IsLadder list sizes) ∧
      ¬ a.same b ∧ f.name ≠ g.name ∧
      ¬ (f.withParameters []).same (g.withParameters []) := by
  intro f g
  obtain ⟨-, hparameters, hsame, hfamilies, -⟩ :=
    reads_sizes f (sizesValue [80, 120]) (sizesValue [120, 80])
  have ha := (ofValue?_eq_some_iff (f := f)).2 ⟨[80, 120], rfl, rfl⟩
  have hb := (ofValue?_eq_some_iff (f := f)).2 ⟨[120, 80], rfl, rfl⟩
  have horder : sizesValue [80, 120] ≠ sizesValue [120, 80] :=
    fun h => absurd (sizesValue_inj.1 h) (by decide)
  have hname : f.name ≠ g.name := by decide
  exact ⟨_, _, ha, hb, hparameters _ ha,
    fun h => horder ((hsame _ _ ha hb).1 h), hname, hfamilies g hname [] []⟩

end Family

end SwiftStyle
