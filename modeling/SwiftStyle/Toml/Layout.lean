/-!
# Layout of configuration texts

Blanks, line ends and comments. A line ends with a line feed, perhaps
after a carriage return, or with the text. A comment runs to the end of
its line and holds no control characters but tabs.

Scanners take a text and answer what they read and the text after it, or
nothing if the text does not start with what they read.
-/

namespace SwiftStyle.Toml

/-- **A scanner**: what it reads at the front of a text, and the text
after that. -/
abbrev Scan (α : Type) := List Char → Option (α × List Char)

/-- Whether a character is a blank within a line. -/
def isGap (c : Char) : Bool :=
  c == ' ' || c == '\t'

/-- The text after the blanks at its front. -/
def skipGap (text : List Char) : List Char :=
  text.dropWhile isGap

/-- Whether a character may stand for itself in a text of one line. -/
def isPrintable (c : Char) : Bool :=
  c == '\t' || (decide (32 ≤ c.toNat) && c.toNat != 127)

/-- The text after a line break. -/
def skipBreak? : List Char → Option (List Char)
  | '\n' :: rest => some rest
  | '\r' :: '\n' :: rest => some rest
  | _ => none

/-- The text after the end of a line: a line break, or no text at all. -/
def skipLineEnd? (text : List Char) : Option (List Char) :=
  if text.isEmpty then some [] else skipBreak? text

/-- The text after a comment, if there is one. -/
def skipComment : List Char → List Char
  | '#' :: rest => rest.dropWhile isPrintable
  | text => text

/-- The text after what may follow a statement on its line. -/
def skipTrailing? (text : List Char) : Option (List Char) :=
  skipLineEnd? (skipComment (skipGap text))

/-- The text after blanks, line breaks and comments, each of which ends
with its line; `inComment` says whether a comment has begun. -/
def skipLayout? : (inComment : Bool) → List Char → Option (List Char)
  | _, '\n' :: rest => skipLayout? false rest
  | _, '\r' :: '\n' :: rest => skipLayout? false rest
  | true, c :: rest => if isPrintable c then skipLayout? true rest else none
  | true, [] => none
  | false, '#' :: rest => skipLayout? true rest
  | false, c :: rest =>
    if isGap c then skipLayout? false rest
    else if c = '\r' then none
    else some (c :: rest)
  | false, [] => some []

/-- The text after blanks and line breaks. -/
def skipFold : List Char → List Char
  | '\n' :: rest => skipFold rest
  | '\r' :: '\n' :: rest => skipFold rest
  | c :: rest => if isGap c then skipFold rest else c :: rest
  | [] => []

theorem length_skipFold_le (text : List Char) :
    (skipFold text).length ≤ text.length := by
  fun_induction skipFold text <;> simp_all <;> omega

end SwiftStyle.Toml
