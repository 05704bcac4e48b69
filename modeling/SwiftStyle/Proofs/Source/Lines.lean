import Mathlib.Data.List.Nodup
import SwiftStyle.Proofs.Source.PositionOrder

/-!
# Lines divide their text

The content of a line is not all of it: carriage returns behind the content
and a line feed end the line, or the text ends there. With what ends them
(`EndedLine`) the lines of a text give back the text, each from the offset at
which it stands and with none left out; an empty piece behind the last line
feed is no line, since nothing stands there (`Divides`).

The lines are cut out between the entries of the table of line starts. So
the proofs need a picture of the lines that mentions no table: a text is ruled
line by line, each ended by its line feed (`Ruled`), and this is what the
table cuts out behind any front (`exists_ruled`), by induction on the lines.
Every part of the main statement, `SourceFile.lines_divide`, is read off that
picture. The positions of offsets come from the same table; that a line begins
in the first column of the line of its number, and that the lines begin at the
line starts before the end of the text, is part of the statement too.

Of the text between two entries of the table the last byte is the line feed,
and what is left without it and without the carriage returns before it is the
content. So a content is determined by two offsets and the text, and a ruling
by the text alone, which is why every line can be led back to what stands
around it in the text (`Ruled.exists_parts`).
-/

namespace SwiftStyle

/-- **A line with what ends it**: a number of carriage returns, and then a
line feed unless the text ends there. -/
structure EndedLine where
  /-- The line. -/
  line : Line
  /-- How many carriage returns stand behind its content. -/
  returns : Nat
  /-- Whether a line feed stands behind them. -/
  fed : Bool

/-- All of the text of a line. -/
def EndedLine.text (l : EndedLine) : List Char :=
  l.line.content ++ (List.replicate l.returns '\r'
    ++ if l.fed then ['\n'] else [])

/-- **Lines divide a text**, with what ends them. -/
structure Divides (ended : List EndedLine) (text : List Char) : Prop where
  /-- They are numbered from one on. -/
  numbers : ended.map (·.line.number) = List.range' 1 ended.length
  /-- Their offsets ascend. -/
  ascending : ended.Pairwise fun l m => l.line.offset < m.line.offset
  /-- Together they are the text. -/
  whole : (ended.map EndedLine.text).flatten = text
  /-- Each stands at its offset, and the text ends behind one that no line
  feed ends. -/
  stands : ∀ l ∈ ended, ∃ front back, text = front ++ (l.text ++ back) ∧
    Text.size front = l.line.offset ∧ (l.fed = false → back = [])
  /-- No content has a line feed. -/
  noFeed : ∀ l ∈ ended, '\n' ∉ l.line.content
  /-- No content ends in a carriage return. -/
  noReturn : ∀ l ∈ ended, l.line.content.getLast? ≠ some '\r'
  /-- None is made of nothing. -/
  nonempty : ∀ l ∈ ended, l.text ≠ []

variable {front line rest text : List Char} {ended later : List EndedLine}
  {l : EndedLine}

/-! ## Texts line by line

The induction peels off a line with its line feed. The table of line starts
grows by one entry at the same time. -/

theorem utf8Size_feed : '\n'.utf8Size = 1 := rfl

theorem count_append_feed (h : '\n' ∉ line) (front : List Char) :
    (front ++ (line ++ ['\n'])).count '\n' = front.count '\n' + 1 := by
  simp [List.count_append, List.count_eq_zero_of_not_mem h]

theorem lastLine_append_feed (front line : List Char) :
    lastLine (front ++ (line ++ ['\n'])) = [] := by
  rw [← List.append_assoc, lastLine_feed]

/-- A text is a single line that no line feed ends, or a line with a line
feed and another text behind it. -/
theorem line_induction {motive : List Char → Prop}
    (last : ∀ line, '\n' ∉ line → motive line)
    (fed : ∀ line rest, '\n' ∉ line → motive rest →
      motive (line ++ '\n' :: rest)) (text : List Char) : motive text := by
  induction h : text.length using Nat.strongRecOn generalizing text with
  | ind n ih =>
    by_cases hfeed : '\n' ∈ text
    · obtain ⟨line, rest, rfl, hline⟩ := List.eq_append_cons_of_mem hfeed
      refine fed line rest hline (ih rest.length ?_ rest rfl)
      simp only [List.length_append, List.length_cons] at h
      omega
    · exact last text hfeed

/-! ## Lines behind a front

Numbers and offsets are counted from the beginning of the file, so a ruling
knows the text in front of it, by its line feeds and by its size. -/

/-- The line that stands behind a front. -/
def endedLine (front line : List Char) (fed : Bool) : EndedLine :=
  ⟨⟨front.count '\n' + 1, Text.size front, dropReturns line⟩,
    (line.rtakeWhile (· == '\r')).length, fed⟩

/-- The carriage returns that a content is freed of end the line. -/
@[simp] theorem text_endedLine (front line : List Char) (fed : Bool) :
    (endedLine front line fed).text
      = line ++ if fed then ['\n'] else [] := by
  have hreturns : line.rtakeWhile (· == '\r')
      = List.replicate (line.rtakeWhile (· == '\r')).length '\r' :=
    List.eq_replicate_of_mem fun c hc => by
      simpa using List.mem_rtakeWhile_imp hc
  show line.rdropWhile (· == '\r')
    ++ (List.replicate (line.rtakeWhile (· == '\r')).length '\r' ++ _) = _
  rw [← hreturns, ← List.append_assoc, List.rdropWhile_append_rtakeWhile]
  rfl

theorem not_mem_dropReturns (h : '\n' ∉ line) : '\n' ∉ dropReturns line :=
  fun hmem => h ((List.rdropWhile_prefix _ line).subset hmem)

theorem getLast?_dropReturns (line : List Char) :
    (dropReturns line).getLast? ≠ some '\r' := by
  show (line.rdropWhile (· == '\r')).getLast? ≠ some '\r'
  by_cases hne : line.rdropWhile (· == '\r') = []
  · rw [hne]
    exact nofun
  · have hlast := List.rdropWhile_last_not (· == '\r') line hne
    rw [List.getLast?_eq_some_getLast hne]
    simpa using hlast

/-- **The lines of a text behind a front**, one after the other. -/
inductive Ruled : (front text : List Char) → List EndedLine → Prop where
  /-- There is no line where there is no text. -/
  | done (front : List Char) : Ruled front [] []
  /-- The text is the last line. -/
  | last {front line : List Char} (hne : line ≠ []) (hline : '\n' ∉ line) :
      Ruled front line [endedLine front line false]
  /-- A line feed ends the first line. -/
  | fed {front line rest : List Char} {later : List EndedLine}
      (hline : '\n' ∉ line)
      (tail : Ruled (front ++ (line ++ ['\n'])) rest later) :
      Ruled front (line ++ '\n' :: rest) (endedLine front line true :: later)

/-- A line is what stands between its start and the end of the text, or the
line feed in front of the next one. -/
theorem slice?_line (front line back : List Char) :
    Text.slice? (Text.size front) (Text.size front + Text.size line)
      (front ++ (line ++ back)) = some line :=
  Text.slice?_eq_some.2 ⟨front, back, by simp, rfl, Text.size_append _ _⟩

/-- **The lines behind a front are ruled**: they are cut out between the line
starts that the table has from there on. -/
theorem exists_ruled (front text : List Char) :
    ∃ ended, Ruled front text ended ∧
      ended.map EndedLine.line
        = linesFrom (front ++ text) (front.count '\n' + 1)
            (Text.size front :: breaksFrom (Text.size front) text) := by
  induction text using line_induction generalizing front with
  | last line hline =>
    have hslice := slice?_line front line []
    rw [List.append_nil, ← Text.size_append] at hslice
    rw [breaksFrom_eq_nil hline, linesFrom, hslice]
    by_cases hnil : line = []
    · subst hnil
      exact ⟨[], .done front, by simp [linesFrom]⟩
    · have := Text.size_pos hnil
      refine ⟨_, .last hnil hline, ?_⟩
      rw [if_pos (by rw [Text.size_append]; omega)]
      rfl
  | fed line rest hline ih =>
    obtain ⟨later, htail, hlater⟩ := ih (front ++ (line ++ ['\n']))
    refine ⟨_, .fed hline htail, ?_⟩
    have hbreaks : breaksFrom (Text.size front) (line ++ '\n' :: rest)
        = Text.size (front ++ (line ++ ['\n'])) ::
            breaksFrom (Text.size (front ++ (line ++ ['\n']))) rest := by
      rw [breaksFrom_append, breaksFrom_eq_nil hline, List.nil_append,
        breaksFrom, if_pos rfl]
      simp [Nat.add_assoc]
    have hstop : Text.size (front ++ (line ++ ['\n'])) - 1
        = Text.size front + Text.size line := by
      simp [utf8Size_feed, ← Nat.add_assoc]
    have hstart : Text.size front
        < Text.size (front ++ (line ++ '\n' :: rest)) := by
      rw [Text.size_append]
      exact Nat.lt_add_of_pos_right (Text.size_pos (by simp))
    rw [hbreaks, linesFrom, hstop, slice?_line, if_pos hstart,
      List.map_cons, hlater, count_append_feed hline]
    simp [endedLine]

namespace Ruled

/-- The lines are numbered one after the other. -/
theorem numbers (h : Ruled front text ended) :
    ended.map (·.line.number)
      = List.range' (front.count '\n' + 1) ended.length := by
  induction h with
  | done front => rfl
  | last hne hline => rfl
  | fed hline tail ih =>
    rw [List.map_cons, ih, List.length_cons, List.range'_succ,
      count_append_feed hline]
    rfl

/-- The lines are the text. -/
theorem whole (h : Ruled front text ended) :
    (ended.map EndedLine.text).flatten = text := by
  induction h with
  | done front => rfl
  | last hne hline => simp
  | fed hline tail ih => simp [ih]

/-- **Where a line stands**: behind a front of whole lines. -/
theorem exists_parts (h : Ruled front text ended)
    (hfront : lastLine front = []) (hl : l ∈ ended) :
    ∃ before line fed back, text = before ++ (l.text ++ back) ∧
      l = endedLine (front ++ before) line fed ∧ '\n' ∉ line ∧
      lastLine (front ++ before) = [] ∧
      (fed = false → line ≠ [] ∧ back = []) := by
  induction h with
  | done front => cases hl
  | @last front line hne hline =>
    obtain rfl := List.mem_singleton.1 hl
    exact ⟨[], line, false, [], by simp, by simp, hline, by simpa using hfront,
      fun _ => ⟨hne, rfl⟩⟩
  | @fed front line rest later hline tail ih =>
    rcases List.mem_cons.1 hl with rfl | hl
    · exact ⟨[], line, true, rest, by simp, by simp, hline,
        by simpa using hfront, fun h => nomatch h⟩
    · obtain ⟨before, line', fed, back, rfl, heq, hline', hbefore, hlast⟩ :=
        ih (lastLine_append_feed front line) hl
      refine ⟨line ++ '\n' :: before, line', fed, back, by simp, ?_, hline',
        ?_, hlast⟩
      · simpa using heq
      · simpa using hbefore

theorem ascending (h : Ruled front text ended)
    (hfront : lastLine front = []) :
    ended.Pairwise fun l m => l.line.offset < m.line.offset := by
  induction h with
  | done front => exact .nil
  | last hne hline => exact List.pairwise_singleton _ _
  | @fed front line rest later hline tail ih =>
    have hnext := lastLine_append_feed front line
    refine .cons (fun m hm => ?_) (ih hnext)
    obtain ⟨before, line', fed, -, -, rfl, -⟩ := tail.exists_parts hnext hm
    show Text.size front < Text.size (front ++ (line ++ ['\n']) ++ before)
    simp only [Text.size_append, Text.size_cons]
    have := utf8Size_feed
    omega

/-- The lines begin at the line starts before the end of the text. -/
theorem map_offset (h : Ruled front text ended) :
    ended.map (·.line.offset)
      = (Text.size front :: breaksFrom (Text.size front) text).filter
          fun start =>
            decide (start < Text.size front + Text.size text) := by
  induction h with
  | done front => simp [breaksFrom]
  | @last front line hne hline =>
    have := Text.size_pos hne
    rw [breaksFrom_eq_nil hline, List.filter_cons_of_pos (by
      rw [decide_eq_true_eq]; omega)]
    rfl
  | @fed front line rest later hline tail ih =>
    have hpos : 0 < Text.size (line ++ '\n' :: rest) :=
      Text.size_pos (by simp)
    rw [breaksFrom_append, breaksFrom_eq_nil hline, List.nil_append,
      breaksFrom, if_pos rfl, List.filter_cons_of_pos (by
        rw [decide_eq_true_eq]; omega), List.map_cons, ih]
    simp only [Text.size_append, Text.size_cons, Text.size_nil,
      Nat.add_assoc, Nat.add_zero]
    rfl

/-- **The lines of a text divide it.** -/
theorem divides (h : Ruled [] text ended) : Divides ended text where
  numbers := h.numbers
  ascending := h.ascending rfl
  whole := h.whole
  stands l hl := by
    obtain ⟨before, line, fed, back, htext, rfl, -, -, hlast⟩ :=
      h.exists_parts rfl hl
    exact ⟨before, back, htext, rfl, fun hfed => (hlast hfed).2⟩
  noFeed l hl := by
    obtain ⟨before, line, fed, back, -, rfl, hline, -⟩ :=
      h.exists_parts rfl hl
    exact not_mem_dropReturns hline
  noReturn l hl := by
    obtain ⟨before, line, fed, back, -, rfl, -⟩ := h.exists_parts rfl hl
    exact getLast?_dropReturns line
  nonempty l hl := by
    obtain ⟨before, line, fed, back, -, rfl, -, -, hlast⟩ :=
      h.exists_parts rfl hl
    rw [text_endedLine]
    cases fed with
    | true => simp
    | false => simpa using (hlast rfl).1

end Ruled

/-! ## The lines of a file -/

namespace SourceFile

/-- The lines of a file are ruled. -/
theorem exists_ruled_lines (file : SourceFile) :
    ∃ ended, Ruled [] file.text ended ∧
      ended.map EndedLine.line = file.lines := by
  unfold lines linesOf
  rw [file.starts_eq]
  exact exists_ruled [] file.text

/-- **A line begins in the first column of the line of its number.** -/
theorem positionAt_of_mem_lines {file : SourceFile} {line : Line}
    (h : line ∈ file.lines) :
    file.positionAt line.offset = ⟨line.number, 1⟩ := by
  obtain ⟨ended, hruled, hlines⟩ := file.exists_ruled_lines
  rw [← hlines] at h
  obtain ⟨l, hl, rfl⟩ := List.mem_map.1 h
  obtain ⟨before, line, fed, back, htext, rfl, -, hbefore, -⟩ :=
    hruled.exists_parts rfl hl
  refine (file.positionAt_size htext).trans ?_
  show (⟨_, (lastLine before).length + 1⟩ : Position) = _
  rw [List.nil_append] at hbefore
  rw [hbefore]
  rfl

/-- **The lines begin at the line starts before the end of the text.** -/
theorem map_offset_lines (file : SourceFile) :
    file.lines.map (·.offset)
      = file.starts.filter fun start => decide (start < file.size) := by
  obtain ⟨ended, hruled, hlines⟩ := file.exists_ruled_lines
  have hoffsets := hruled.map_offset
  rw [Text.size_nil, Nat.zero_add, file.size_text] at hoffsets
  rw [← hlines, List.map_map, file.starts_eq]
  exact hoffsets

theorem offset_lt_size {file : SourceFile} {line : Line}
    (h : line ∈ file.lines) : line.offset < file.size := by
  have hmem := List.mem_map_of_mem (f := (·.offset)) h
  rw [map_offset_lines] at hmem
  exact of_decide_eq_true (List.mem_filter.1 hmem).2

theorem isBorder_of_mem_lines {file : SourceFile} {line : Line}
    (h : line ∈ file.lines) : Text.IsBorder file.text line.offset := by
  obtain ⟨ended, hruled, hlines⟩ := file.exists_ruled_lines
  rw [← hlines] at h
  obtain ⟨l, hl, rfl⟩ := List.mem_map.1 h
  obtain ⟨before, line, fed, back, htext, rfl, -⟩ :=
    hruled.exists_parts rfl hl
  exact Text.isBorder_iff.2 ⟨before, _, htext, rfl⟩

theorem ascending_lines (file : SourceFile) :
    file.lines.Pairwise fun l m => l.offset < m.offset := by
  obtain ⟨ended, hruled, hlines⟩ := file.exists_ruled_lines
  rw [← hlines, List.pairwise_map]
  exact hruled.ascending rfl

theorem eq_of_offset_eq {file : SourceFile} {line line' : Line}
    (h : line ∈ file.lines) (h' : line' ∈ file.lines)
    (heq : line.offset = line'.offset) : line = line' := by
  have hnodup : (file.lines.map Line.offset).Nodup :=
    (List.pairwise_map.2 file.ascending_lines).imp Nat.ne_of_lt
  exact List.inj_on_of_nodup_map hnodup h h' heq

/-- **Lines divide the text of their file.** With what ends them they are
numbered from one on, have ascending offsets and give back the text; every
line begins in the first column of the line of its number; and the lines
begin at the line starts before the end of the text. -/
theorem lines_divide (file : SourceFile) :
    (∃ ended, ended.map EndedLine.line = file.lines ∧
      Divides ended file.contents.toList) ∧
    (∀ line ∈ file.lines,
      file.positionAt line.offset = ⟨line.number, 1⟩) ∧
    file.lines.map (·.offset)
      = file.starts.filter fun start => decide (start < file.size) := by
  obtain ⟨ended, hruled, hlines⟩ := file.exists_ruled_lines
  exact ⟨⟨ended, hlines, file.text_eq ▸ hruled.divides⟩,
    fun line => positionAt_of_mem_lines, file.map_offset_lines⟩

/-- A line that ends in two carriage returns and a line feed, and a last
one that is a carriage return only. -/
theorem lines_divide_returns :
    let file := ofContents "a\r\r\n\r"
    file.lines = [⟨1, 0, ['a']⟩, ⟨2, 4, []⟩] ∧
    file.positionAt 4 = ⟨2, 1⟩ ∧
    file.lines.map (·.offset) = [0, 4] := by
  intro file
  obtain ⟨-, hposition, hoffsets⟩ := file.lines_divide
  exact ⟨by decide, hposition ⟨2, 4, []⟩ (by decide),
    hoffsets.trans (by decide)⟩

end SourceFile
end SwiftStyle
