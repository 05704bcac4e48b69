import SwiftStyle.Proofs.Source.PositionOrder
import SwiftStyle.Proofs.Text.Split

/-!
# Positions inside characters

An offset may be inside a character, and a location may be asked for there.
Its line is that of the character, but its column counts the bytes from the
begin of the line (`Position.inside`), while the column of an offset between
characters counts the characters. Behind characters of several bytes the two
do not fit together: an offset inside the second of two characters of two
bytes is in column four, and the end of that character in column three.

So positions are not always in the order of their offsets. An offset **runs
ahead** of a later one (`RunsAhead`) if it is inside a character, the later
one is between characters of the same line, and the line has more bytes up to
the first than characters up to the second. These are all the exceptions, and
they also tell where a column is past the end of its line: an offset runs
ahead of the end of its line exactly then
(`SourceFile.ordered_iff_not_runsAhead`).

Every offset of a text is at a border or inside one character, with a front
and a back around it (`Text.isBorder_or_inside`), and two offsets can be of
four sorts together. If the first is at a border, or both are inside
characters, the positions are in order without more: bytes are never fewer
than characters, and bytes are compared with bytes. What is left is the first
inside a character and the second at a border, where bytes are compared with
characters (`Position.inside_le_behind_iff`).

The end of a line is at a border too, so whether a column is past the end of
its line is a case of the same comparison and needs no argument of its own.
-/

namespace SwiftStyle

variable {front middle back front' back' text : List Char} {c d : Char}
  {offset k a b : Nat}

/-- **An offset inside a character** of a text, with what stands before
the character and what stands behind it. -/
structure Text.Inside (text : List Char) (offset : Nat)
    (front : List Char) (c : Char) (back : List Char) : Prop where
  /-- The parts of the text. -/
  text_eq : text = front ++ c :: back
  /-- The character begins before the offset. -/
  lt_offset : size front < offset
  /-- It ends behind the offset. -/
  offset_lt : offset < size front + c.utf8Size

namespace Text

/-- Every offset of a text is between characters or inside one. -/
theorem isBorder_or_inside (h : offset ≤ size text) :
    IsBorder text offset ∨
      ∃ front c back, Inside text offset front c back := by
  induction text generalizing offset with
  | nil => exact .inl (isBorder_iff.2 ⟨[], [], rfl, (Nat.le_zero.1 h).symm⟩)
  | cons c rest ih =>
    rw [size_cons] at h
    by_cases hin : offset < c.utf8Size
    · rcases Nat.eq_zero_or_pos offset with rfl | hpos
      · exact .inl (isBorder_iff.2 ⟨[], c :: rest, rfl, rfl⟩)
      · exact .inr ⟨[], c, rest, rfl, hpos, by simpa using hin⟩
    · have hrest : offset - c.utf8Size ≤ size rest := by omega
      rcases ih hrest with hborder | ⟨front, d, back, rfl, hlt, hgt⟩
      · obtain ⟨front, back, rfl, hsize⟩ := isBorder_iff.1 hborder
        refine .inl (isBorder_iff.2 ⟨c :: front, back, rfl, ?_⟩)
        rw [size_cons]
        omega
      · refine .inr ⟨c :: front, d, back, rfl, ?_, ?_⟩ <;>
          rw [size_cons] <;> omega

namespace Inside

theorem ne_feed (h : Inside text offset front c back) : c ≠ '\n' := by
  rintro rfl
  have := h.lt_offset
  have : offset < size front + 1 := h.offset_lt
  omega

/-- A front of the text that ends behind the offset has the character. -/
theorem exists_append (h : Inside text offset front c back)
    (htext : text = front' ++ back') (hle : offset ≤ size front') :
    ∃ middle, front' = front ++ c :: middle ∧ back = middle ++ back' := by
  have hlt := h.lt_offset
  obtain ⟨middle, rfl, hback⟩ := exists_append_of_size_le
    (h.text_eq.symm.trans htext) (by omega)
  cases middle with
  | nil =>
    rw [List.append_nil] at hle
    omega
  | cons d middle =>
    obtain ⟨rfl, rfl⟩ := List.cons.inj hback
    exact ⟨middle, rfl, rfl⟩

/-- A front of the text that ends before the offset ends before the
character. -/
theorem exists_append_of_le (h : Inside text offset front c back)
    (htext : text = front' ++ back') (hle : size front' ≤ offset) :
    ∃ middle, front = front' ++ middle ∧ back' = middle ++ c :: back := by
  refine exists_append_of_size_le (htext.symm.trans h.text_eq) ?_
  -- a longer front would have the whole character
  by_contra hlong
  obtain ⟨middle, rfl, hmiddle⟩ := exists_append_of_size_le
    (h.text_eq.symm.trans htext) (by omega)
  have hgt := h.offset_lt
  cases middle with
  | nil => simp at hlong
  | cons d middle =>
    obtain ⟨rfl, -⟩ := List.cons.inj hmiddle
    rw [size_append, size_cons] at hle
    omega

theorem lt_size (h : Inside text offset front c back) :
    offset < size text := by
  have := h.offset_lt
  rw [h.text_eq, size_append, size_cons]
  omega

theorem not_isBorder (h : Inside text offset front c back) :
    ¬ IsBorder text offset := by
  intro hborder
  obtain ⟨front', back', htext, rfl⟩ := isBorder_iff.1 hborder
  obtain ⟨middle, rfl, -⟩ := h.exists_append htext (Nat.le_refl _)
  have := h.offset_lt
  rw [size_append, size_cons] at this
  omega

/-- The offset tells the character and what stands around it. -/
theorem unique (h : Inside text offset front c back)
    (h' : Inside text offset front' d back') :
    front' = front ∧ d = c ∧ back' = back := by
  have hle : offset ≤ size (front' ++ [d]) := by
    rw [size_append]
    simpa using Nat.le_of_lt h'.offset_lt
  have hparts : text = (front' ++ [d]) ++ back' := by
    rw [h'.text_eq, List.append_assoc]
    rfl
  obtain ⟨middle, hconcat, hback⟩ := h.exists_append hparts hle
  rcases List.eq_nil_or_concat' middle with rfl | ⟨middle, e, rfl⟩
  · obtain ⟨rfl, hd⟩ := List.append_inj' hconcat rfl
    exact ⟨rfl, (List.cons.inj hd).1, hback.symm⟩
  · rw [← List.cons_append, ← List.append_assoc] at hconcat
    obtain ⟨rfl, -⟩ := List.append_inj' hconcat rfl
    have hlt := h.offset_lt
    have hlt' := h'.lt_offset
    rw [size_append, size_cons] at hlt'
    omega

/-- The characters that begin before the offset. -/
theorem takeBytes_eq (h : Inside text offset front c back) :
    takeBytes offset text = front ++ [c] := by
  obtain ⟨rfl, hlt, hgt⟩ := h
  induction front generalizing offset with
  | nil =>
    have hback : takeBytes (offset - c.utf8Size) back = [] := by
      rw [Nat.sub_eq_zero_of_le (by simpa using Nat.le_of_lt hgt),
        takeBytes_zero]
    simp only [List.nil_append, takeBytes, hback]
    exact if_neg (Nat.ne_of_gt hlt)
  | cons d front ih =>
    rw [size_cons] at hlt hgt
    simp only [List.cons_append, takeBytes]
    rw [if_neg (by omega), ih (by omega) (by omega)]

theorem dropBytes_eq (h : Inside text offset front c back) :
    dropBytes offset text = back := by
  have hwhole := takeBytes_append_dropBytes offset text
  rw [h.takeBytes_eq] at hwhole
  refine List.append_cancel_left (hwhole.trans (h.text_eq.trans ?_))
  simp

end Inside
end Text

/-- All characters begin before an offset at or past the end. -/
theorem Text.takeBytes_of_size_le (h : size text ≤ offset) :
    takeBytes offset text = text := by
  induction text generalizing offset with
  | nil => rfl
  | cons c rest ih =>
    have := c.utf8Size_pos
    rw [size_cons] at h
    unfold takeBytes
    rw [if_neg (by omega), ih (by omega)]

/-! ## Columns in bytes

A column in bytes has one parameter more than a column in characters: how many
bytes of the character are before the offset. -/

theorem Text.length_le_size (text : List Char) :
    text.length ≤ size text := by
  induction text with
  | nil => exact Nat.le_refl _
  | cons c rest ih =>
    have := c.utf8Size_pos
    rw [size_cons, List.length_cons]
    omega

namespace Position

/-- **The position some bytes behind a text**, with the bytes of the last
line as its column. -/
def inside (front : List Char) (k : Nat) : Position :=
  ⟨front.count '\n' + 1, Text.size (lastLine front) + k + 1⟩

/-- A column in bytes is not before a column in characters. -/
theorem behind_le_inside (front : List Char) (k : Nat) :
    behind front ≤ inside front k := by
  have := Text.length_le_size (lastLine front)
  refine .inr ⟨rfl, ?_⟩
  show (lastLine front).length + 1 ≤ Text.size (lastLine front) + k + 1
  omega

/-- Columns in bytes of one character, and of two, are in order. -/
theorem inside_le_inside_append (hk : k ≤ c.utf8Size)
    (middle : List Char) (l : Nat) :
    inside front k ≤ inside (front ++ c :: middle) l := by
  by_cases hfeed : '\n' ∈ c :: middle
  · exact le_of_lt (lt_of_mem_feed hfeed front _ _)
  · refine .inr ⟨line_append hfeed front, ?_⟩
    show Text.size (lastLine front) + k + 1
      ≤ Text.size (lastLine (front ++ c :: middle)) + l + 1
    rw [lastLine_append hfeed, Text.size_append, Text.size_cons]
    omega

/-- **A column in bytes against a later one in characters.** -/
theorem inside_le_behind_iff (hc : c ≠ '\n') :
    inside front k ≤ behind (front ++ c :: middle) ↔
      '\n' ∈ middle ∨
        Text.size (lastLine front) + k
          ≤ (lastLine front ++ c :: middle).length := by
  have hmem : '\n' ∈ c :: middle ↔ '\n' ∈ middle := by
    rw [List.mem_cons, or_iff_right (Ne.symm hc)]
  rw [← hmem]
  by_cases hfeed : '\n' ∈ c :: middle
  · exact iff_of_true (le_of_lt (lt_of_mem_feed hfeed front _ _))
      (.inl hfeed)
  · have hline := line_append hfeed front
    rw [or_iff_right hfeed, ← lastLine_append hfeed,
      ← Nat.add_le_add_iff_right (n := 1)]
    exact ⟨fun h => h.elim (fun hlt => absurd hline (Nat.ne_of_lt hlt))
      And.right, fun h => .inr ⟨hline, h⟩⟩

end Position

namespace SourceFile

variable {file : SourceFile}

/-- **The position of an offset inside a character.** -/
theorem positionAt_inside (h : Text.Inside file.text offset front c back) :
    file.positionAt offset = .inside front (offset - Text.size front) := by
  have hlt := h.lt_offset
  have hgt := h.offset_lt
  have hlater : ∀ start ∈ breaksFrom (Text.size front) (c :: back),
      offset < start := by
    intro start hs
    unfold breaksFrom at hs
    rw [if_neg h.ne_feed] at hs
    have := (lt_of_mem_breaksFrom hs).1
    omega
  -- the offset cuts a character, so that there is no text to count
  have hslice : Text.slice? (Text.size (front.rdropWhile (· != '\n')))
      offset (front ++ c :: back) = none := by
    refine Option.eq_none_iff_forall_not_mem.2 fun line hline => ?_
    obtain ⟨start, rest, htext, -, hstop⟩ := Text.slice?_eq_some.1 hline
    exact h.not_isBorder (Text.isBorder_iff.2
      ⟨start ++ line, rest, h.text_eq.trans htext, hstop⟩)
  have hsize : Text.size (front.rdropWhile (· != '\n'))
      + Text.size (lastLine front) = Text.size front := by
    rw [← Text.size_append]
    exact congrArg _ List.rdropWhile_append_rtakeWhile
  unfold positionAt Position.inside
  rw [file.starts_eq, h.text_eq, positionAt_eq_columnAt (Nat.le_of_lt hlt)
    (h.text_eq ▸ Nat.le_of_lt h.lt_size) hlater]
  unfold columnAt
  rw [hslice]
  congr 1
  show offset - Text.size (front.rdropWhile (· != '\n')) + 1 = _
  omega

end SourceFile

/-! ## Offsets that run ahead

The definition is by the text alone, and says nothing of positions, so that it
can be computed for a file without asking where anything is. -/

/-- **An offset runs ahead of a later one**: it is inside a character, the
later one is between characters of the same line, and the line has more
bytes up to the first than characters up to the second. -/
def RunsAhead (text : List Char) (a b : Nat) : Prop :=
  ∃ front c middle back, Text.Inside text a front c (middle ++ back) ∧
    b = Text.size (front ++ c :: middle) ∧ '\n' ∉ middle ∧
    (lastLine front ++ c :: middle).length
      < Text.size (lastLine front) + (a - Text.size front)

/-- **The line that an offset is on**: what is around the offset up to the
line feeds next to it. -/
def lineAround (text : List Char) (offset : Nat) : List Char :=
  lastLine (Text.takeBytes offset text) ++
    (Text.dropBytes offset text).takeWhile (· != '\n')

/-- The offset at which the line of an offset ends. -/
def lineEnd (text : List Char) (offset : Nat) : Nat :=
  Text.size (Text.takeBytes offset text) +
    Text.size ((Text.dropBytes offset text).takeWhile (· != '\n'))

/-- Offsets between characters do not run ahead, nor those past the
end. -/
theorem RunsAhead.exists_inside (h : RunsAhead text a b) :
    ∃ front c back, Text.Inside text a front c back := by
  obtain ⟨front, c, middle, back, hin, -⟩ := h
  exact ⟨front, c, _, hin⟩

theorem RunsAhead.isBorder (h : RunsAhead text a b) :
    Text.IsBorder text b := by
  obtain ⟨front, c, middle, back, hin, rfl, -⟩ := h
  exact Text.isBorder_iff.2
    ⟨front ++ c :: middle, back, by simp [hin.text_eq], rfl⟩

/-- Whether an offset inside a character runs ahead of a later place. -/
theorem runsAhead_iff (h : Text.Inside text a front c (middle ++ back)) :
    RunsAhead text a (Text.size (front ++ c :: middle)) ↔
      '\n' ∉ middle ∧ (lastLine front ++ c :: middle).length
        < Text.size (lastLine front) + (a - Text.size front) := by
  constructor
  · rintro ⟨front', d, middle', back', h', hb, hfeed, hmore⟩
    obtain ⟨rfl, rfl, hback⟩ := h.unique h'
    obtain ⟨rfl, -⟩ : middle' = middle ∧ back' = back := by
      refine Text.split_size_unique ?_ hback
      simp only [Text.size_append, Text.size_cons] at hb
      omega
    exact ⟨hfeed, hmore⟩
  · rintro ⟨hfeed, hmore⟩
    exact ⟨front, c, middle, back, h, rfl, hfeed, hmore⟩

/-- What is around an offset inside a character. -/
theorem Text.Inside.lineAround_eq
    (h : Text.Inside text offset front c back) :
    lineAround text offset
      = lastLine front ++ c :: back.takeWhile (· != '\n') := by
  unfold lineAround
  rw [h.takeBytes_eq, h.dropBytes_eq, lastLine_append (by
    simpa using Ne.symm h.ne_feed), List.append_assoc]
  rfl

theorem Text.Inside.lineEnd_eq
    (h : Text.Inside text offset front c back) :
    lineEnd text offset
      = Text.size (front ++ c :: back.takeWhile (· != '\n')) := by
  unfold lineEnd
  rw [h.takeBytes_eq, h.dropBytes_eq, ← Text.size_append,
    List.append_assoc]
  rfl

namespace SourceFile

variable {file : SourceFile}

theorem positionAt_min (file : SourceFile) (offset : Nat) :
    file.positionAt (min offset file.size) = file.positionAt offset := by
  unfold positionAt SwiftStyle.positionAt
  rw [file.size_text, Nat.min_assoc, Nat.min_self]

/-- **The position of a place between characters is not behind those of
later offsets.** -/
theorem positionAt_le_of_isBorder (ha : Text.IsBorder file.text a)
    (h : a ≤ b) (hb : b ≤ Text.size file.text) :
    file.positionAt a ≤ file.positionAt b := by
  obtain ⟨front, back, htext, rfl⟩ := Text.isBorder_iff.1 ha
  rw [positionAt_size htext]
  rcases Text.isBorder_or_inside hb with hborder | ⟨front', c, back', hin⟩
  · obtain ⟨longer, rest, htext', rfl⟩ := Text.isBorder_iff.1 hborder
    obtain ⟨middle, rfl, -⟩ :=
      Text.exists_append_of_size_le (htext.symm.trans htext') h
    rw [positionAt_size htext']
    exact Position.behind_le_append front middle
  · obtain ⟨middle, rfl, -⟩ := hin.exists_append_of_le htext h
    rw [positionAt_inside hin]
    exact Position.le_trans (Position.behind_le_append front middle)
      (Position.behind_le_inside _ _)

/-- Positions inside characters are in the order of the offsets. -/
theorem positionAt_le_of_inside
    (ha : Text.Inside file.text a front c back)
    (hb : Text.Inside file.text b front' d back') (h : a ≤ b) :
    file.positionAt a ≤ file.positionAt b := by
  rw [positionAt_inside ha, positionAt_inside hb]
  have hlt := ha.offset_lt
  have hstart := ha.lt_offset
  obtain ⟨middle, rfl, hmiddle⟩ :=
    hb.exists_append_of_le ha.text_eq (by omega)
  cases middle with
  | nil =>
    rw [List.append_nil]
    refine .inr ⟨rfl, ?_⟩
    show _ ≤ Text.size (lastLine front) + (b - Text.size front) + 1
    unfold Position.inside
    dsimp only
    omega
  | cons e middle =>
    obtain ⟨rfl, -⟩ := List.cons.inj hmiddle
    exact Position.inside_le_inside_append (by omega) middle _

/-- The position of an offset inside a character against that of a later
place between characters. -/
theorem positionAt_le_iff_of_inside
    (ha : Text.Inside file.text a front c back)
    (hb : Text.IsBorder file.text b) (h : a ≤ b) :
    file.positionAt a ≤ file.positionAt b ↔ ¬ RunsAhead file.text a b := by
  obtain ⟨longer, rest, htext, rfl⟩ := Text.isBorder_iff.1 hb
  obtain ⟨middle, rfl, rfl⟩ := ha.exists_append htext h
  rw [positionAt_inside ha, positionAt_size htext,
    Position.inside_le_behind_iff ha.ne_feed, runsAhead_iff ha, not_and_or,
    not_not, Nat.not_lt]

/-- **When positions are in the order of their offsets.** -/
theorem positionAt_le_iff (file : SourceFile) (h : a ≤ b) :
    file.positionAt a ≤ file.positionAt b ↔
      ¬ RunsAhead file.text a (min b file.size) := by
  rw [← file.positionAt_min b, ← file.size_text]
  rcases Nat.lt_or_ge a (Text.size file.text) with hlt | hge
  · have hle : a ≤ min b (Text.size file.text) := by omega
    have hsize := Nat.min_le_right b (Text.size file.text)
    rcases Text.isBorder_or_inside (Nat.le_of_lt hlt) with
      ha | ⟨front, c, back, ha⟩
    · refine iff_of_true (positionAt_le_of_isBorder ha hle hsize) fun hr => ?_
      obtain ⟨front, c, back, hin⟩ := hr.exists_inside
      exact hin.not_isBorder ha
    · rcases Text.isBorder_or_inside hsize with hb | ⟨front', d, back', hb⟩
      · exact positionAt_le_iff_of_inside ha hb hle
      · exact iff_of_true (positionAt_le_of_inside ha hb hle)
          fun hr => hb.not_isBorder hr.isBorder
  · rw [positionAt_of_le hge, positionAt_of_le (by omega)]
    refine iff_of_true (Position.le_refl _) fun hr => ?_
    obtain ⟨front, c, back, hin⟩ := hr.exists_inside
    exact Nat.not_lt_of_ge hge hin.lt_size

theorem positionAt_eq_behind
    (h : ¬ ∃ front c back, Text.Inside file.text a front c back) :
    file.positionAt a = .behind (Text.takeBytes a file.text) := by
  rcases Nat.le_total a (Text.size file.text) with hle | hle
  · obtain ⟨front, back, htext, rfl⟩ :=
      Text.isBorder_iff.1 ((Text.isBorder_or_inside hle).resolve_right h)
    rw [positionAt_size htext, htext, Text.takeBytes_size_append]
  · rw [positionAt_of_le hle, Text.takeBytes_of_size_le hle]

/-- **When a column is not past the end of its line.** -/
theorem column_le_iff (file : SourceFile) (a : Nat) :
    (file.positionAt a).column ≤ (lineAround file.text a).length + 1 ↔
      ¬ RunsAhead file.text a (lineEnd file.text a) := by
  by_cases h : ∃ front c back, Text.Inside file.text a front c back
  · obtain ⟨front, c, back, ha⟩ := h
    have hparts : back = back.takeWhile (· != '\n')
        ++ back.dropWhile (· != '\n') :=
      List.takeWhile_append_dropWhile.symm
    have hfeed : '\n' ∉ back.takeWhile (· != '\n') := fun hmem => by
      simpa using List.mem_takeWhile_imp hmem
    rw [ha.lineEnd_eq, runsAhead_iff (hparts ▸ ha), and_iff_right hfeed,
      Nat.not_lt, ha.lineAround_eq, positionAt_inside ha]
    exact Nat.add_le_add_iff_right
  · refine iff_of_true ?_ fun hr => h hr.exists_inside
    rw [positionAt_eq_behind h]
    unfold lineAround
    rw [List.length_append]
    show (lastLine _).length + 1 ≤ _
    omega

/-- Later offsets are not on earlier lines. -/
theorem line_positionAt_le (file : SourceFile) (h : a ≤ b) :
    (file.positionAt a).line ≤ (file.positionAt b).line := by
  by_cases hle : file.positionAt a ≤ file.positionAt b
  · rcases hle with hlt | ⟨heq, -⟩
    · exact Nat.le_of_lt hlt
    · exact Nat.le_of_eq heq
  · rw [file.positionAt_le_iff h, not_not] at hle
    obtain ⟨front, c, middle, back, hin, hb, -⟩ := hle
    have htext : file.text = (front ++ c :: middle) ++ back := by
      rw [hin.text_eq, List.append_assoc]
      rfl
    rw [← file.positionAt_min b, hb, positionAt_inside hin,
      positionAt_size htext]
    show _ ≤ List.count '\n' (front ++ c :: middle) + 1
    rw [List.count_append]
    exact Nat.succ_le_succ (Nat.le_add_right _ _)

/-- **Positions are in the order of their offsets, unless one runs ahead
of the other.** Lines are always in order. A position comes before that of
a later offset, or is the same, exactly if the offset does not run ahead;
and its column is at most one more than the characters of its line exactly
if it does not run ahead of the end of the line. -/
theorem ordered_iff_not_runsAhead (file : SourceFile) (h : a ≤ b) :
    (file.positionAt a).line ≤ (file.positionAt b).line ∧
    (file.positionAt a ≤ file.positionAt b ↔
      ¬ RunsAhead file.text a (min b file.size)) ∧
    ((file.positionAt a).column ≤ (lineAround file.text a).length + 1 ↔
      ¬ RunsAhead file.text a (lineEnd file.text a)) :=
  ⟨file.line_positionAt_le h, file.positionAt_le_iff h,
    file.column_le_iff a⟩

/-- Of two characters of two bytes behind a letter, an offset inside the
first does not run ahead, and one inside the second does. -/
theorem ordered_iff_not_runsAhead_second :
    let file := ofContents "a\u00e9\u00e9\nb"
    2 ≤ 3 ∧ ¬ RunsAhead file.text 2 3 ∧
    4 ≤ 5 ∧ RunsAhead file.text 4 5 ∧
      ¬ file.positionAt 4 ≤ file.positionAt 5 := by
  intro file
  have hfirst := (file.ordered_iff_not_runsAhead (a := 2) (b := 3)
    (by decide)).2.1
  have hsecond := (file.ordered_iff_not_runsAhead (a := 4) (b := 5)
    (by decide)).2.1
  have hruns : RunsAhead file.text 4 5 :=
    ⟨['a', '\u00e9'], '\u00e9', [], ['\n', 'b'],
      ⟨by decide, by decide, by decide⟩, by decide, by decide, by decide⟩
  exact ⟨by decide, hfirst.1 (by decide), by decide, hruns,
    fun hle => hsecond.1 hle hruns⟩

/-- Inside the second of two characters of two bytes the column is past
the end of the line, and the end of that character comes before it. -/
theorem inside_out_of_order :
    let file := ofContents "\u00e9\u00e9"
    file.positionAt 3 = ⟨1, 4⟩ ∧ file.positionAt 4 = ⟨1, 3⟩ ∧
    ¬ (3 ≤ 4 → file.positionAt 3 ≤ file.positionAt 4) ∧
    ¬ (file.positionAt 3).column ≤ (lineAround file.text 3).length + 1 := by
  decide

end SourceFile
end SwiftStyle
