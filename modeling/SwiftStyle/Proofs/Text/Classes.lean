import SwiftStyle.Text.Blank
import SwiftStyle.Text.Word

/-!
# Character classes that do not meet

White space is neither part of a name nor a word character. Outside ASCII
the three classes are tables, and that no character is in two of them is
a fact about the runs in the tables (`inRuns_of_apart`); inside ASCII they
are rules, and 128 characters are looked at.
-/

namespace SwiftStyle.Text

/-- Whether no run of a table meets one of another. -/
def apart (runs others : List CodeRun) : Bool :=
  runs.all fun r => others.all fun s =>
    decide (r.2 < s.1) || decide (s.2 < r.1)

theorem inRuns_of_apart {runs others : List CodeRun} {c : Char}
    (h : apart runs others) (hc : inRuns runs c) :
    inRuns others c = false := by
  rw [← Bool.not_eq_true]
  intro ho
  obtain ⟨r, hr, hcr⟩ := List.any_eq_true.1 hc
  obtain ⟨s, hs, hcs⟩ := List.any_eq_true.1 ho
  have hrs := List.all_eq_true.1 (List.all_eq_true.1 h r hr) s hs
  simp only [Bool.and_eq_true, Bool.or_eq_true, decide_eq_true_eq]
    at hcr hcs hrs
  omega

/-- No white space outside ASCII is in a table of letters, of numbers or of
other word characters. -/
theorem apart_blankRuns : apart blankRuns (alphabeticRuns ++ numericRuns
    ++ (markRuns ++ decimalRuns ++ connectorRuns ++ joinerRuns)) := by
  decide +kernel

/-- No white space of ASCII goes on with a name or is a word character. -/
theorem apart_ascii : ∀ n < 128, isBlank (Char.ofNat n) →
    continuesName (Char.ofNat n) = false ∧ isWord (Char.ofNat n) = false := by
  decide +kernel

theorem apart_of_isBlank {c : Char} (h : isBlank c) :
    continuesName c = false ∧ isWord c = false := by
  by_cases hlt : c.toNat < 128
  · have hascii := apart_ascii c.toNat hlt
    rw [Char.ofNat_toNat] at hascii
    exact hascii h
  · have hruns : inRuns blankRuns c := by
      unfold isBlank at h
      rw [if_neg hlt] at h
      exact h
    have hline : (c == '_') = false := by
      rw [beq_eq_false_iff_ne]
      rintro rfl
      exact hlt (by decide)
    have htables := inRuns_of_apart apart_blankRuns hruns
    rw [inRuns_append, inRuns_append] at htables
    obtain ⟨hname, hword⟩ := Bool.or_eq_false_iff.1 htables
    obtain ⟨hletter, hnumber⟩ := Bool.or_eq_false_iff.1 hname
    rw [inRuns_append, inRuns_append, inRuns_append] at hword
    unfold continuesName isWord isAlphabetic isNumeric
    rw [if_neg hlt, if_neg hlt, if_neg hlt, hline, hletter, hnumber, hword]
    exact ⟨rfl, Bool.and_false _⟩

/-- **White space is no part of a name.** -/
theorem continuesName_of_isBlank {c : Char} (h : isBlank c) :
    continuesName c = false :=
  (apart_of_isBlank h).1

/-- **White space is not a word character.** -/
theorem isWord_of_isBlank {c : Char} (h : isBlank c) : isWord c = false :=
  (apart_of_isBlank h).2

end SwiftStyle.Text
