import SwiftStyle.Proofs.Text.Bytes
import SwiftStyle.Proofs.Token.Opening

/-!
# A scanner with a cursor

`tokenize` takes its pieces from the front of a text. A program that reads a
long text keeps the text where it is and moves a **cursor** over it, an offset
in bytes: over a character by its width, over a mark or a delimiter by the
number of its bytes. Such a scanner looks at the text behind its cursor again
and again, and there is such a text only at the border of two characters or
at an end of the text. It also counts: the comments that are open.

This module is that scanner, turn by turn of its loops. The loop outside goes
from lexeme to lexeme; those inside are the **tasks**, one for each kind of
lexeme that is longer than what opens it. Wherever the text is cut and
wherever something is subtracted this is checked, and a step that fails the
check has no next state but a **fault**. Nothing here says that no step does:
the scanner may be set anywhere.

What the scanner looks for is the same as in `tokenize`, and what begins at a
character is given the same names (`Opening`). How it looks is not: it
compares bytes where it looks for characters of ASCII, it cuts the text at its
cursor for each question, and it puts a token together from two offsets.
-/

namespace SwiftStyle

open Lexeme

/-- **What a scanner does while it takes a lexeme.** -/
inductive Scanner.Task where
  /-- Go to the end of the line. -/
  | line
  /-- Go to the end of a block comment, inside so many. -/
  | block (depth : Nat)
  /-- Go to the end of a string. -/
  | string (d : Delimiter)
  /-- Go to the backquote that closes a name. -/
  | quotedName
  /-- Go to the end of the name of an attribute. -/
  | atName
  /-- Go to the end of a number. -/
  | number
  /-- Go to the end of a name or a reserved word. -/
  | name
deriving DecidableEq, Repr

/-- **Where a scanner is in its loops.** -/
inductive Scanner.Mode where
  /-- Between two lexemes. -/
  | between
  /-- In a lexeme that begins at an offset. -/
  | within (start : Nat) (task : Scanner.Task)
deriving DecidableEq, Repr

/-- **A scanner**, on its way through a text. -/
structure Scanner where
  /-- The offset up to which the text is read. -/
  cursor : Nat
  /-- The tokens that have been found. -/
  tokens : List Token
  /-- Where it is in its loops. -/
  mode : Scanner.Mode
deriving DecidableEq, Repr

namespace Scanner

/-- **What a scanner must not do.** -/
inductive Fault where
  /-- Look at the text behind an offset that is inside a character or behind
  the end. -/
  | outside (offset : Nat)
  /-- Close a comment when none is open. -/
  | unopened
deriving DecidableEq, Repr

/-- Where a scanner begins. -/
def initial : Scanner := ⟨0, [], .between⟩

/-! ## Looking at the text

To cut the text at an offset is checked; to ask for a byte or for a character
at an offset is not, and has no answer where there is none. -/

/-- The text behind an offset. -/
def cut (text : List Char) (offset : Nat) : Except Fault (List Char) :=
  match Text.after? offset text with
  | some rest => .ok rest
  | none => .error (.outside offset)

/-- The character behind the cursor. -/
def peek (text : List Char) (cursor : Nat) : Except Fault (Option Char) := do
  return (← cut text cursor).head?

/-- The character behind an offset, if there is one. -/
def charAt? (text : List Char) (offset : Nat) : Option Char :=
  (Text.after? offset text).bind List.head?

/-- The byte behind an offset, if there is one. -/
def byteAt? (text : List Char) (offset : Nat) : Option UInt8 :=
  (Text.bytes text)[offset]?

/-- The text between two offsets. -/
def slice (text : List Char) (start stop : Nat) :
    Except Fault (List Char) :=
  match Text.slice? start stop text with
  | some piece => .ok piece
  | none => .error (.outside stop)

/-- How many number signs stand behind the cursor, counted by their bytes. -/
def hashesAt (text : List Char) (cursor : Nat) : Except Fault Nat :=
  if cursor ≤ Text.size text then
    .ok (((Text.bytes text).drop cursor).takeWhile
      (· == '#'.toUInt8)).length
  else .error (.outside cursor)

/-! ## Between lexemes

One character and what follows it decide what begins. Most openings need one
further character, and a string is told by its bytes. -/

/-- Whether the character behind the cursor starts a string. -/
def startsStringAt (text : List Char) (cursor : Nat) (c : Char) :
    Except Fault Bool :=
  if c = '"' then return true
  else if c = '#' then do
    let hashes ← hashesAt text cursor
    return byteAt? text (cursor + hashes) == some '"'.toUInt8
  else return false

/-- What begins at the cursor. -/
def openingAt (text : List Char) (cursor : Nat) (c : Char) :
    Except Fault Opening := do
  let rest ← cut text cursor
  if ['/', '/'].isPrefixOf rest then return .lineComment
  else if ['/', '*'].isPrefixOf rest then return .blockComment
  else if ← startsStringAt text cursor c then return .string
  else if c = '\x60' then return .quotedName
  else if c = '@' && (charAt? text (cursor + 1)).any Text.startsName then
    return .atName
  else if c.isDigit then return .number
  else if Text.startsName c then return .name
  else return .other

/-- The task that a string is, and the cursor behind its opening. -/
def enterString (text : List Char) (cursor : Nat) :
    Except Fault (Nat × Task) := do
  let hashes ← hashesAt text cursor
  let rest ← cut text (cursor + hashes)
  let multiline := ['"', '"', '"'].isPrefixOf rest
  return (cursor + hashes + (if multiline then 3 else 1),
    .string ⟨hashes, multiline⟩)

/-- The task that an opening begins, and the cursor that it begins at. -/
def enter (text : List Char) (cursor : Nat) (c : Char) :
    Opening → Except Fault (Nat × Option Task)
  | .lineComment => return (cursor, some .line)
  | .blockComment => return (cursor, some (.block 0))
  | .string => do
    let (cursor, task) ← enterString text cursor
    return (cursor, some task)
  | .quotedName => return (cursor + 1, some .quotedName)
  | .atName => return (cursor + 1, some .atName)
  | .number => return (cursor, some .number)
  | .name => return (cursor, some .name)
  | .other => return (cursor + c.utf8Size, none)

/-! ## In a lexeme

A turn goes over one character, one mark or one escape, or it ends the lexeme.
-/

/-- **What comes of one turn** of the loop of a task. -/
inductive Turn where
  /-- The loop goes on. -/
  | goesOn (cursor : Nat) (task : Task)
  /-- The lexeme ends. -/
  | ends (cursor : Nat)
deriving DecidableEq, Repr

namespace Task

/-- A turn of a task that goes over the characters with a property. -/
def turnWhile (p : Char → Bool) (task : Task) (text : List Char)
    (cursor : Nat) : Except Fault Turn := do
  match ← peek text cursor with
  | some c =>
    if p c then return .goesOn (cursor + c.utf8Size) task
    else return .ends cursor
  | none => return .ends cursor

/-- How many comments are open when one has been closed. -/
def closeOne : (depth : Nat) → Except Fault Nat
  | 0 => throw .unopened
  | depth + 1 => return depth

/-- A turn in a block comment. -/
def turnBlock (depth : Nat) (text : List Char) (cursor : Nat) :
    Except Fault Turn := do
  if cursor < Text.size text then
    let rest ← cut text cursor
    if ['/', '*'].isPrefixOf rest then
      return .goesOn (cursor + 2) (.block (depth + 1))
    else if ['*', '/'].isPrefixOf rest then
      let depth ← closeOne depth
      if depth = 0 then return .ends (cursor + 2)
      else return .goesOn (cursor + 2) (.block depth)
    else
      return .goesOn (cursor + (rest.head?.map Char.utf8Size).getD 1)
        (.block depth)
  else return .ends cursor

/-- Where an escape ends whose mark ends at the cursor: it takes the next
character along, but for the line feed that ends the string. -/
def escapeEnd (d : Delimiter) (text : List Char) (cursor : Nat) :
    Except Fault Nat := do
  match ← peek text cursor with
  | some e =>
    if e != '\n' || d.multiline then return cursor + e.utf8Size
    else return cursor
  | none => return cursor

/-- A turn in a string. -/
def turnString (d : Delimiter) (text : List Char) (cursor : Nat) :
    Except Fault Turn := do
  match ← peek text cursor with
  | some c =>
    let rest ← cut text cursor
    if d.escape.isPrefixOf rest then
      let stop ← escapeEnd d text (cursor + Text.size d.escape)
      return .goesOn stop (.string d)
    else if d.closing.isPrefixOf rest then
      return .ends (cursor + Text.size d.closing)
    else if c == '\n' && !d.multiline then return .ends cursor
    else return .goesOn (cursor + c.utf8Size) (.string d)
  | none => return .ends cursor

/-- A turn in a name between backquotes. -/
def turnQuotedName (text : List Char) (cursor : Nat) :
    Except Fault Turn := do
  match ← turnWhile (fun c => c != '\x60' && c != '\n') .quotedName text
      cursor with
  | .goesOn cursor task => return .goesOn cursor task
  | .ends cursor =>
    if (← peek text cursor) = some '\x60' then return .ends (cursor + 1)
    else return .ends cursor

/-- A turn in a number. -/
def turnNumber (text : List Char) (cursor : Nat) : Except Fault Turn := do
  match ← turnWhile (fun c => c.isAlphanum || c == '_') .number text
      cursor with
  | .goesOn cursor task => return .goesOn cursor task
  | .ends cursor =>
    if byteAt? text cursor == some '.'.toUInt8
        && (byteAt? text (cursor + 1)).any Text.isDigitByte then
      return .goesOn (cursor + 1) .number
    else return .ends cursor

/-- **One turn of a task.** -/
def turn (text : List Char) (cursor : Nat) :
    Task → Except Fault Turn
  | line => turnWhile (· != '\n') line text cursor
  | block depth => turnBlock depth text cursor
  | string d => turnString d text cursor
  | quotedName => turnQuotedName text cursor
  | atName => turnWhile Text.continuesName atName text cursor
  | number => turnNumber text cursor
  | name => turnWhile Text.continuesName name text cursor

/-- The kind of the token that a task has taken. Whether a name is a reserved
word is seen in the text. -/
def kindAt (text : List Char) (start stop : Nat) :
    Task → Except Fault Token.Kind
  | line | block _ => return .comment
  | string _ => return .string
  | quotedName => return .identifier
  | atName => return .attribute
  | number => return .number
  | name => do
    let piece ← slice text start stop
    return if Token.isReserved piece then .keyword else .identifier

end Task

/-! ## Steps

A step is one turn of the loop that the scanner is in, so a run can be looked
at in the middle of a lexeme. -/

/-- A step between lexemes: `none` at the end of the text. -/
def stepBetween (text : List Char) (s : Scanner) :
    Except Fault (Option Scanner) := do
  match ← peek text s.cursor with
  | some c =>
    let opening ← openingAt text s.cursor c
    let (cursor, task) ← enter text s.cursor c opening
    return some ⟨cursor, s.tokens,
      task.elim .between (.within s.cursor)⟩
  | none => return none

/-- A step in a lexeme. -/
def stepWithin (text : List Char) (s : Scanner) (start : Nat)
    (task : Task) : Except Fault (Option Scanner) := do
  match ← task.turn text s.cursor with
  | .goesOn cursor task => return some ⟨cursor, s.tokens, .within start task⟩
  | .ends cursor =>
    let kind ← task.kindAt text start cursor
    return some ⟨cursor, s.tokens ++ [⟨⟨start, cursor⟩, kind⟩], .between⟩

/-- **One step of a scanner**: `none` at the end of the text. -/
def step (text : List Char) (s : Scanner) :
    Except Fault (Option Scanner) :=
  match s.mode with
  | .between => s.stepBetween text
  | .within start task => s.stepWithin text start task

/-- A scanner that is set inside a character cannot step. -/
example : step ['é'] ⟨1, [], .between⟩ = .error (.outside 1) := by decide

/-- Nor can one that has opened no comment and finds the end of one. -/
example : step ['*', '/'] ⟨0, [], .within 0 (.block 0)⟩ = .error .unopened := by
  decide

/-- One step leads to another state. -/
def Steps (text : List Char) (s t : Scanner) : Prop :=
  s.step text = .ok (some t)

end Scanner

end SwiftStyle
