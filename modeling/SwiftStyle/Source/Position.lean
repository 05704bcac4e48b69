import SwiftStyle.Text.Utf8

/-!
# Lines and positions

A text is divided into lines by its line feeds. `lineStarts` lists the
byte offset at which each line begins; the last may be the end of the
text, where no line begins. Both `linesOf`, which cuts the text into its
lines, and `positionAt` go by this table.

`positionAt` turns an offset into a line and a column, both counted from
one. The column counts characters, from the start of the line; for an
offset inside a character, which no character begins at, it counts bytes
instead. An offset past the end is taken for the end.
-/

namespace SwiftStyle

/-- **A line and a column**, both counted from one. -/
structure Position where
  /-- The line. -/
  line : Nat
  /-- The column. -/
  column : Nat
deriving DecidableEq, Repr, Inhabited

/-- The offsets after the line feeds of a text that begins at an
offset. -/
def breaksFrom : (offset : Nat) → List Char → List Nat
  | _, [] => []
  | offset, c :: rest =>
    let next := offset + c.utf8Size
    if c = '\n' then next :: breaksFrom next rest
    else breaksFrom next rest

/-- **The offsets at which the lines of a text begin.** -/
def lineStarts (text : List Char) : List Nat :=
  0 :: breaksFrom 0 text

/-- The column of an offset in a line that begins at `start`. -/
def columnAt (text : List Char) (start offset : Nat) : Nat :=
  match Text.slice? start offset text with
  | some before => before.length + 1
  | none => offset - start + 1

/-- **The position of an offset**, given where the lines begin. -/
def positionAt (text : List Char) (starts : List Nat) (offset : Nat) :
    Position :=
  let offset := min offset (Text.size text)
  let passed := starts.takeWhile fun start => decide (start ≤ offset)
  ⟨passed.length, columnAt text (passed.getLast?.getD 0) offset⟩

/-- **A line of a text**, without what ends it. -/
structure Line where
  /-- Its number, counted from one. -/
  number : Nat
  /-- The offset of its first byte. -/
  offset : Nat
  /-- Its text, without a line feed and the carriage returns before
  it. -/
  content : List Char
deriving DecidableEq, Repr

/-- A text without the carriage returns at its end. -/
def dropReturns (text : List Char) : List Char :=
  (text.reverse.dropWhile (· == '\r')).reverse

/-- The lines that begin at offsets, numbered from a number on. Each goes on
up to the line feed in front of the next one, and the last to the end of the
text. None begins at the end. -/
def linesFrom (text : List Char) : (number : Nat) → (starts : List Nat) →
    List Line
  | _, [] => []
  | number, start :: later =>
    let stop :=
      match later with
      | [] => Text.size text
      | next :: _ => next - 1
    let piece := (Text.slice? start stop text).getD []
    let lines := linesFrom text (number + 1) later
    if start < Text.size text then
      ⟨number, start, dropReturns piece⟩ :: lines
    else lines

/-- **The lines of a text**, given where they begin. -/
def linesOf (text : List Char) (starts : List Nat) : List Line :=
  linesFrom text 1 starts

end SwiftStyle
