import SwiftStyle.Text.Utf8

/-!
# Texts that part in one way

Two ways to split a text in two agree if something tells where the first
part ends: that it is made of characters of a class and the second part
does not begin with one (`split_unique`), or that a mark follows which is
not in it (`split_at_unique`) or not in the second part
(`split_last_unique`), or how many bytes it has (`split_size_unique`).
-/

namespace SwiftStyle.Text

variable {u v x y : List Char} {a : Char}

/-- **A run of a class of characters ends in one place.** -/
theorem split_unique {p : Char → Bool} (hu : ∀ c ∈ u, p c)
    (hv : ∀ c ∈ v, p c) (hx : x.head?.any p = false)
    (hy : y.head?.any p = false) (h : u ++ x = v ++ y) : u = v ∧ x = y := by
  have htake : ∀ {text : List Char}, text.head?.any p = false →
      text.takeWhile p = [] := by
    intro text ht
    cases text with
    | nil => rfl
    | cons c text =>
      refine List.takeWhile_cons_of_neg ?_
      simpa using ht
  have huv := congrArg (List.takeWhile p) h
  rw [List.takeWhile_append_of_pos hu, List.takeWhile_append_of_pos hv,
    htake hx, htake hy, List.append_nil, List.append_nil] at huv
  subst huv
  exact ⟨rfl, List.append_cancel_left h⟩

/-- **A text in front of a mark that is not in it ends in one place.** -/
theorem split_at_unique (hu : a ∉ u) (hv : a ∉ v)
    (h : u ++ a :: x = v ++ a :: y) : u = v ∧ x = y := by
  obtain ⟨rfl, hxy⟩ := split_unique (p := (· != a))
    (fun c hc => by simpa using fun hca : c = a => hu (hca ▸ hc))
    (fun c hc => by simpa using fun hca : c = a => hv (hca ▸ hc))
    (by simp) (by simp) h
  exact ⟨rfl, (List.cons.inj hxy).2⟩

/-- **A text behind a mark that is not in it begins in one place.** -/
theorem split_last_unique (hx : a ∉ x) (hy : a ∉ y)
    (h : u ++ a :: x = v ++ a :: y) : u = v ∧ x = y := by
  have hreverse := congrArg List.reverse h
  simp only [List.reverse_append, List.reverse_cons, List.append_assoc,
    List.singleton_append] at hreverse
  obtain ⟨hxy, huv⟩ := split_at_unique (by simpa using hx) (by simpa using hy)
    hreverse
  exact ⟨List.reverse_inj.1 huv, List.reverse_inj.1 hxy⟩

/-- **A front of so many bytes ends in one place.** -/
theorem split_size_unique (hsize : size u = size v) (h : u ++ x = v ++ y) :
    u = v ∧ x = y := by
  obtain ⟨middle, rfl, rfl⟩ :=
    exists_append_of_size_le h (Nat.le_of_eq hsize)
  rw [size_append] at hsize
  obtain rfl : middle = [] := size_eq_zero (by omega)
  exact ⟨(List.append_nil u).symm, rfl⟩

end SwiftStyle.Text
