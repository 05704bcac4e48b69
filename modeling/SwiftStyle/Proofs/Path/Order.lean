import SwiftStyle.Path

/-!
# The order of paths

Paths are ordered by their components, and components by their sorts and
then by their names (`Component.compare_eq`). Both are orders by keys, so
that what holds of the keys holds of paths: the order is transitive, and
the answer for a pair is the answer for the reversed pair, reversed.
-/

namespace SwiftStyle

section

variable {α β : Type} (cmp : β → β → Ordering) [Std.TransCmp cmp]

/-- An order of keys orders what has the keys. -/
theorem transCmp_on (key : α → β) :
    Std.TransCmp fun a b => cmp (key a) (key b) where
  eq_swap := Std.OrientedCmp.eq_swap
  isLE_trans := Std.TransCmp.isLE_trans

theorem isLE_total (a b : β) : (cmp a b).isLE || (cmp b a).isLE := by
  rw [@Std.OrientedCmp.eq_swap _ cmp _ b a]
  cases cmp a b <;> rfl

end

namespace Path

/-- The name of a component, if it is one. -/
def Component.label : Component → String
  | name text => text
  | _ => ""

/-- Components are ordered by their sorts and then by their names. -/
theorem Component.compare_eq :
    Component.compare = compareLex (compareOn rank) (compareOn label) := by
  funext a b
  cases a <;> cases b <;> rfl

instance : Std.TransCmp Component.compare :=
  Component.compare_eq ▸ inferInstance

/-- Lists of components are ordered by their first difference. -/
theorem compareComponents_eq :
    compareComponents = List.compareLex Component.compare := by
  funext as bs
  induction as generalizing bs with
  | nil => cases bs <;> rfl
  | cons a as ih =>
    cases bs with
    | nil => rfl
    | cons b bs =>
      rw [compareComponents, List.compareLex_cons_cons, ih]

instance : Std.TransCmp compareComponents :=
  compareComponents_eq ▸ inferInstance

instance : Std.TransCmp compare :=
  transCmp_on compareComponents components

/-- Paths that are in order and not the same are in strict order. -/
theorem lt_of_le {p q : Path} (h : p.le q) (hsame : ¬ p.same q) :
    p.compare q = .lt := by
  unfold le at h
  unfold same at hsame
  cases hcompare : p.compare q with
  | lt => rfl
  | eq => simp [hcompare] at hsame
  | gt => simp [hcompare] at h

end Path
end SwiftStyle
