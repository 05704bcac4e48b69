import Mathlib.Data.List.DropRight
import SwiftStyle.Rule.Basic

/-!
# Positions between characters

A place between two characters is given by the text before it. Its line
is one more than the line feeds in that text, and its column one more
than the characters behind the last of them (`Position.behind`). This
mentions no table of line starts and no offset.

`positionAt_size` says that looking the place up in the table gives this
position, and `SourceFile.locate_size` that this is what a location in a
source file records.

The table is made in one pass over the text, so it can be taken apart where
the text is (`breaksFrom_append`): the entries for a front of a text, and
those for the text behind it, which all lie behind the place between the two.
The line of a place is found by counting the entries that are not behind it,
and these are the entries for the front (`takeWhile_lineStarts`).
-/

namespace SwiftStyle

/-- **The position behind a text**: how many lines it has begun, and how
many characters of the last one it holds. -/
def Position.behind (front : List Char) : Position :=
  ⟨front.count '\n' + 1, (front.rtakeWhile (· != '\n')).length + 1⟩

/-! ## The table of line starts -/

theorem breaksFrom_append (offset : Nat) (text more : List Char) :
    breaksFrom offset (text ++ more)
      = breaksFrom offset text
        ++ breaksFrom (offset + Text.size text) more := by
  induction text generalizing offset with
  | nil => rfl
  | cons c rest ih =>
    simp only [List.cons_append, breaksFrom, Text.size_cons, ih]
    rw [Nat.add_assoc]
    split <;> rfl

/-- The line starts after an offset lie behind it, and not behind the end
of the text. -/
theorem lt_of_mem_breaksFrom {offset start : Nat} {text : List Char}
    (h : start ∈ breaksFrom offset text) :
    offset < start ∧ start ≤ offset + Text.size text := by
  induction text generalizing offset with
  | nil => cases h
  | cons c rest ih =>
    have hpos := c.utf8Size_pos
    have hmem : start = offset + c.utf8Size
        ∨ start ∈ breaksFrom (offset + c.utf8Size) rest := by
      unfold breaksFrom at h
      dsimp only at h
      split at h
      · exact List.mem_cons.1 h
      · exact .inr h
    rw [Text.size_cons]
    rcases hmem with rfl | hmem
    · omega
    · have := ih hmem
      omega

theorem length_breaksFrom (offset : Nat) (text : List Char) :
    (breaksFrom offset text).length = text.count '\n' := by
  induction text generalizing offset with
  | nil => rfl
  | cons c rest ih =>
    unfold breaksFrom
    dsimp only
    by_cases h : c = '\n'
    · rw [if_pos h, List.length_cons, ih, h, List.count_cons_self]
    · rw [if_neg h, ih, List.count_cons_of_ne (fun he => h he)]

theorem breaksFrom_eq_nil {offset : Nat} {text : List Char}
    (h : '\n' ∉ text) : breaksFrom offset text = [] := by
  rw [← List.length_eq_zero_iff, length_breaksFrom,
    List.count_eq_zero_of_not_mem h]

/-- The line starts up to an offset are those of a text that ends at or
before it, if all behind that text are past the offset. -/
theorem takeWhile_lineStarts {front back : List Char} {offset : Nat}
    (hle : Text.size front ≤ offset)
    (hlater : ∀ start ∈ breaksFrom (Text.size front) back,
      offset < start) :
    (lineStarts (front ++ back)).takeWhile
        (fun start => decide (start ≤ offset))
      = lineStarts front := by
  unfold lineStarts
  rw [breaksFrom_append, ← List.cons_append, List.takeWhile_append_of_pos]
  · rw [List.takeWhile_eq_nil_iff.2, List.append_nil]
    intro hne
    have := hlater _ (by
      rw [← Nat.zero_add (Text.size front)]
      exact List.get_mem _ ⟨0, hne⟩)
    rw [decide_eq_true_eq]
    omega
  · intro start hs
    rw [decide_eq_true_eq]
    rcases List.mem_cons.1 hs with rfl | hs
    · exact Nat.zero_le _
    · have := (lt_of_mem_breaksFrom hs).2
      omega

/-- **The last line start of a text is where its last line begins.** -/
theorem getLast?_lineStarts (text : List Char) :
    (lineStarts text).getLast?
      = some (Text.size (text.rdropWhile (· != '\n'))) := by
  have hline : '\n' ∉ text.rtakeWhile (· != '\n') := fun hm => by
    have := List.mem_rtakeWhile_imp hm
    simp at this
  conv_lhs =>
    rw [← List.rdropWhile_append_rtakeWhile (p := (· != '\n')) (l := text)]
  unfold lineStarts
  rw [breaksFrom_append, breaksFrom_eq_nil hline, List.append_nil]
  rcases List.eq_nil_or_concat' (text.rdropWhile (· != '\n'))
    with hnil | ⟨lines, c, hc⟩
  · rw [hnil]
    rfl
  · have hfeed : c = '\n' := by
      have hne : text.rdropWhile (· != '\n') ≠ [] := by
        rw [hc]
        simp
      have := List.rdropWhile_last_not (· != '\n') text hne
      simpa [hc] using this
    rw [hc, hfeed, breaksFrom_append, ← List.cons_append,
      List.getLast?_append]
    simp [breaksFrom]

/-- **The line of an offset** is the last one of a text that ends at or
before it, if no line starts in between; the column is counted from where
that line begins. -/
theorem positionAt_eq_columnAt {front back : List Char} {offset : Nat}
    (hle : Text.size front ≤ offset)
    (hsize : offset ≤ Text.size (front ++ back))
    (hlater : ∀ start ∈ breaksFrom (Text.size front) back,
      offset < start) :
    positionAt (front ++ back) (lineStarts (front ++ back)) offset
      = ⟨front.count '\n' + 1, columnAt (front ++ back)
          (Text.size (front.rdropWhile (· != '\n'))) offset⟩ := by
  unfold positionAt
  dsimp only
  rw [Nat.min_eq_left hsize, takeWhile_lineStarts hle hlater,
    getLast?_lineStarts, Option.getD_some]
  unfold lineStarts
  rw [List.length_cons, length_breaksFrom]

/-- **The position of a place between characters.** -/
theorem positionAt_size (front back : List Char) :
    positionAt (front ++ back) (lineStarts (front ++ back))
        (Text.size front)
      = .behind front := by
  have hsize : Text.size front ≤ Text.size (front ++ back) := by
    rw [Text.size_append]
    omega
  have hslice : Text.slice? (Text.size (front.rdropWhile (· != '\n')))
      (Text.size front) (front ++ back)
        = some (front.rtakeWhile (· != '\n')) :=
    Text.slice?_eq_some.2 ⟨_, back,
      by rw [List.rdropWhile_append_rtakeWhile], rfl,
      by rw [List.rdropWhile_append_rtakeWhile]⟩
  rw [positionAt_eq_columnAt (Nat.le_refl _) hsize fun _ hs =>
    (lt_of_mem_breaksFrom hs).1]
  unfold columnAt Position.behind
  rw [hslice]

/-! ## Locations

A location in a file adds the path and cuts the offset at the end of the text.
-/

theorem SourceFile.size_text (file : SourceFile) :
    Text.size file.text = file.size := by
  rw [file.text_eq, Text.size_toList]
  rfl

theorem SourceFile.positionAt_size {file : SourceFile}
    {front back : List Char} (h : file.text = front ++ back) :
    file.positionAt (Text.size front) = .behind front := by
  unfold positionAt
  rw [file.starts_eq, h, SwiftStyle.positionAt_size]

/-- **What a location records of a place between characters**: its own
offset, and the line and column it has in the text. -/
theorem SourceFile.locate_size {file : SourceFile}
    {front back : List Char} (h : file.text = front ++ back) :
    file.locate (Text.size front)
      = ⟨file.path, Text.size front, (Position.behind front).line,
          (Position.behind front).column⟩ := by
  have hmin : min (Text.size front) file.size = Text.size front := by
    rw [← file.size_text, h, Text.size_append]
    omega
  unfold SourceFile.locate
  dsimp only
  rw [hmin, positionAt_size h]

/-- A violation at a place between characters keeps its offset. -/
theorem RuleDescription.offset_violationAt {file : SourceFile}
    {front back : List Char} (d : RuleDescription)
    (h : file.text = front ++ back) :
    (d.violationAt file (Text.size front)).location.offset
      = Text.size front := by
  unfold violationAt
  rw [SourceFile.locate_size h]

end SwiftStyle
