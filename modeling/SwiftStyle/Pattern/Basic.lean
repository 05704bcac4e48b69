import SwiftStyle.Text.Blank
import SwiftStyle.Text.Utf8
import SwiftStyle.Text.Word

/-!
# Patterns

A pattern describes pieces of text. Where a pattern is tried at a cursor,
it may end at several places; `Pattern.ends` lists them in the order of
**preference** – the first branch of a choice before the second, more
repetitions before fewer – and a match is what the most preferred end
gives. Groups of a pattern capture the piece of text they describe.

The preference is that of a search which commits to the first branch that
leads to a match, so the list of ends says both what a pattern can match
(membership) and what it does match (the head of the list).
-/

namespace SwiftStyle

/-- **A place in a text** as a pattern sees it: the character before it,
its byte offset, and the text after it. -/
structure Cursor where
  /-- The character before the place, if it is not the front. -/
  before : Option Char
  /-- The byte offset of the place. -/
  offset : Nat
  /-- The text after the place. -/
  rest : List Char
deriving DecidableEq, Repr, Inhabited

namespace Cursor

/-- The front of a text. -/
def start (text : List Char) : Cursor :=
  ⟨none, 0, text⟩

/-- The place behind a character that is followed by a text. -/
def step (c : Cursor) (a : Char) (rest : List Char) : Cursor :=
  ⟨some a, c.offset + a.utf8Size, rest⟩

/-- The piece of text from a place to a later one. -/
def textTo (c d : Cursor) : List Char :=
  Text.takeBytes (d.offset - c.offset) c.rest

/-- The places that are reached by passing over characters of a class,
the nearest first; the place itself is one. -/
def reach (p : Char → Bool) (before : Option Char) (offset : Nat) :
    List Char → List Cursor
  | [] => [⟨before, offset, []⟩]
  | a :: rest =>
    ⟨before, offset, a :: rest⟩ ::
      (if p a then reach p (some a) (offset + a.utf8Size) rest else [])

end Cursor

/-- **A pattern.** -/
inductive Pattern where
  /-- Nothing. -/
  | empty
  /-- One character of a class. -/
  | one (p : Char → Bool)
  /-- As many characters of a class as possible, or fewer. -/
  | many (p : Char → Bool)
  /-- One pattern and then another. -/
  | seq (first second : Pattern)
  /-- One pattern, or else another. -/
  | either (first second : Pattern)
  /-- A pattern whose text is captured under a number, and under a name
  if it has one. -/
  | group (number : Nat) (name : Option String) (body : Pattern)
  /-- A word edge. -/
  | wordEdge

namespace Pattern

/-- **What a group took**: its number and name, and where it began and
ended. -/
structure Capture where
  /-- The number of the group. -/
  number : Nat
  /-- The name of the group, if it has one. -/
  name : Option String
  /-- Where it began. -/
  start : Cursor
  /-- Where it ended. -/
  stop : Cursor
deriving DecidableEq, Repr

/-- **The ends of a pattern** that is tried at a place, the preferred one
first, each with what the groups took on the way. -/
def ends : Pattern → Cursor → List (Cursor × List Capture)
  | empty, c => [(c, [])]
  | one p, c =>
    match c.rest with
    | [] => []
    | a :: rest => if p a then [(c.step a rest, [])] else []
  | many p, c =>
    (Cursor.reach p c.before c.offset c.rest).reverse.map fun d => (d, [])
  | seq first second, c =>
    (first.ends c).flatMap fun (d, taken) =>
      (second.ends d).map fun (e, more) => (e, taken ++ more)
  | either first second, c => first.ends c ++ second.ends c
  | group number name body, c =>
    (body.ends c).map fun (d, taken) =>
      (d, ⟨number, name, c, d⟩ :: taken)
  | wordEdge, c =>
    if Text.isWordEdge c.before c.rest.head? then [(c, [])] else []

/-- The end that a pattern comes to at a place, if it matches there. -/
def firstEnd? (p : Pattern) (c : Cursor) :
    Option (Cursor × List Capture) :=
  (p.ends c).head?

/-! ## Writing patterns -/

/-- Patterns one after the other. -/
def inOrder : List Pattern → Pattern
  | [] => empty
  | [p] => p
  | p :: rest => seq p (inOrder rest)

/-- One of several patterns, the first that leads to a match. -/
def oneOf : Pattern → List Pattern → Pattern
  | p, [] => p
  | p, q :: rest => either p (oneOf q rest)

/-- A given character. -/
def char (c : Char) : Pattern :=
  one (· == c)

/-- A given text. -/
def text (t : String) : Pattern :=
  inOrder (t.toList.map char)

/-- One character of a class, or more. -/
def oneOrMore (p : Char → Bool) : Pattern :=
  seq (one p) (many p)

/-- A pattern, or else nothing. -/
def optional (p : Pattern) : Pattern :=
  either p empty

/-- White space, perhaps none. -/
def blanks : Pattern :=
  many Text.isBlank

/-- Some white space. -/
def someBlanks : Pattern :=
  oneOrMore Text.isBlank

/-- Some word characters. -/
def word : Pattern :=
  oneOrMore Text.isWord

end Pattern
end SwiftStyle
