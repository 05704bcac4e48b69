import Mathlib.Data.List.Forall2
import Mathlib.Order.Lattice

/-!
# Lists that are chosen from and sorted

A choice from a list keeps the order of the list, and what is sorted is in
strict order if nothing in it is equal.

The places in a text that a rule reports are the motive: they are chosen from
a list of matches that ascend, and then sorted by their offsets. A sort by
itself gives an order with ties, and that no two offsets are equal has to
come from the choice.
-/

namespace SwiftStyle

variable {α β : Type}

/-- What a choice keeps of a list and what it makes of that stand item by
item beside each other. -/
theorem forall₂_filterMap {R : α → β → Prop} {f : α → Option β}
    {keeps : α → Bool} {items : List α}
    (hkeeps : ∀ a, (f a).isSome = keeps a)
    (hR : ∀ a ∈ items, ∀ b, f a = some b → R a b) :
    List.Forall₂ R (items.filter keeps) (items.filterMap f) := by
  induction items with
  | nil => exact .nil
  | cons a items ih =>
    obtain ⟨ha, hitems⟩ := List.forall_mem_cons.1 hR
    have hkeep := hkeeps a
    cases hf : f a with
    | none =>
      rw [hf] at hkeep
      rw [List.filter_cons_of_neg (by simp [← hkeep]),
        List.filterMap_cons_none hf]
      exact ih hitems
    | some b =>
      rw [hf] at hkeep
      rw [List.filter_cons_of_pos hkeep.symm, List.filterMap_cons_some hf]
      exact .cons (ha b hf) (ih hitems)

/-- **What is sorted by keys that differ is in strict order.** -/
theorem pairwise_lt_mergeSort [LinearOrder β] (key : α → β)
    {le : α → α → Bool} (hle : ∀ a b, le a b ↔ key a ≤ key b)
    {items : List α} (h : items.Pairwise fun a b => key a ≠ key b) :
    (items.mergeSort le).Pairwise fun a b => key a < key b := by
  have hsorted : (items.mergeSort le).Pairwise fun a b => le a b :=
    List.pairwise_mergeSort
      (fun a b c hab hbc =>
        (hle a c).2 (le_trans ((hle a b).1 hab) ((hle b c).1 hbc)))
      (fun a b => by
        rw [Bool.or_eq_true, hle, hle]
        exact le_total (key a) (key b)) items
  have hdistinct : (items.mergeSort le).Pairwise fun a b => key a ≠ key b :=
    h.perm (List.mergeSort_perm items le).symm fun hne => hne.symm
  exact hsorted.imp₂
    (fun a b hab hne => lt_of_le_of_ne ((hle a b).1 hab) hne) hdistinct

/-- **One list in strict order goes on from another** if its first item does
from the last one of the other. -/
theorem forall_le_iff_of_ascending [Preorder β] {key : α → β}
    {items later : List α} (h : items.Pairwise fun a b => key a < key b)
    (hlater : later.Pairwise fun a b => key a < key b) :
    (∀ a ∈ items, ∀ b ∈ later, key a ≤ key b)
      ↔ ∀ a ∈ items.getLast?, ∀ b ∈ later.head?, key a ≤ key b := by
  refine ⟨fun hall a ha b hb =>
    hall a (List.mem_of_getLast? ha) b (List.mem_of_head? hb), ?_⟩
  intro hends a ha b hb
  obtain ⟨init, last, rfl⟩ :=
    (List.eq_nil_or_concat' items).resolve_left (List.ne_nil_of_mem ha)
  obtain ⟨first, rest, rfl⟩ :=
    List.exists_cons_of_ne_nil (List.ne_nil_of_mem hb)
  have hlast : key a ≤ key last := by
    rcases List.mem_append.1 ha with ha | ha
    · exact le_of_lt ((List.pairwise_append.1 h).2.2 a ha last (by simp))
    · exact (List.mem_singleton.1 ha) ▸ le_refl _
  have hfirst : key first ≤ key b := by
    rcases List.mem_cons.1 hb with rfl | hb
    · exact le_refl _
    · exact le_of_lt ((List.pairwise_cons.1 hlater).1 b hb)
  calc key a ≤ key last := hlast
    _ ≤ key first := hends last (by simp) first rfl
    _ ≤ key b := hfirst

end SwiftStyle
