import SwiftStyle.Pattern.Occurrence

/-!
# Templates

A template is a text with references to the groups of a pattern. A
dollar sign starts a reference:

* before letters, digits or low lines of ASCII, to the group with the
  longest such name;
* before a name in braces, whatever it holds, to the group of that name;
* before another dollar sign, it stands for one dollar sign.

Any other dollar sign stands for itself. A name that reads as a number
is the number of a group, and 0 is the whole occurrence. A reference to
a group that the pattern lacks, or that took no part in the match,
expands to nothing.
-/

namespace SwiftStyle

/-- **A piece of a template.** -/
inductive Template.Piece where
  /-- A character that stands for itself. -/
  | char (c : Char)
  /-- The text of a group, by its number. -/
  | numbered (number : Nat)
  /-- The text of a group, by its name. -/
  | named (name : String)
deriving DecidableEq, Repr

/-- **A template.** -/
structure Template where
  /-- Its pieces. -/
  pieces : List Template.Piece
deriving DecidableEq, Repr

namespace Template

/-- The number that a text of decimal digits is read as. -/
def digitsValue (digits : List Char) : Nat :=
  digits.foldl (fun n c => 10 * n + (c.toNat - '0'.toNat)) 0

/-- The greatest number that a group may be referred to by. -/
def maxNumber : Nat := (1 <<< 64) - 1

/-- The number that a name reads as: decimal digits, perhaps after a plus
sign. -/
def number? (name : List Char) : Option Nat :=
  let digits := if name.head? = some '+' then name.tail else name
  if digits ≠ [] && digits.all Char.isDigit &&
      decide (digitsValue digits ≤ maxNumber)
  then some (digitsValue digits)
  else none

/-- The reference by a name. -/
def Piece.reference (name : List Char) : Piece :=
  match number? name with
  | some n => .numbered n
  | none => .named (String.ofList name)

/-- Whether a character continues a name outside braces. -/
def continuesReference (c : Char) : Bool :=
  c.isAlphanum || c == '_'

/-- The reference at the front of a text that stands behind a dollar
sign, and the text after it. -/
def takeReference (text : List Char) : Option (Piece × List Char) :=
  match text with
  | '\x7b' :: inner =>
    match inner.dropWhile (· != '\x7d') with
    | _ :: after => some (.reference (inner.takeWhile (· != '\x7d')), after)
    | [] => none
  | _ =>
    match text.takeWhile continuesReference with
    | [] => none
    | name => some (.reference name, text.dropWhile continuesReference)

theorem length_takeReference_le {text rest : List Char} {piece : Piece}
    (h : takeReference text = some (piece, rest)) :
    rest.length ≤ text.length := by
  unfold takeReference at h
  split at h
  next inner =>
    split at h
    next c after heq =>
      have := (List.dropWhile_suffix (l := inner) (· != '\x7d')).length_le
      simp only [Option.some.injEq, Prod.mk.injEq] at h
      simp_all only [List.length_cons]
      obtain ⟨_, rfl⟩ := h
      omega
    next => simp at h
  next =>
    split at h
    next => simp at h
    next =>
      have := (List.dropWhile_suffix (l := text) continuesReference).length_le
      simp only [Option.some.injEq, Prod.mk.injEq] at h
      obtain ⟨_, rfl⟩ := h
      exact this

/-- The pieces of a template that is written as a text. -/
def piecesOf (text : List Char) : List Piece :=
  match text with
  | [] => []
  | '$' :: '$' :: rest => .char '$' :: piecesOf rest
  | '$' :: rest =>
    match _found : takeReference rest with
    | some (piece, after) => piece :: piecesOf after
    | none => .char '$' :: piecesOf rest
  | c :: rest => .char c :: piecesOf rest
termination_by text.length
decreasing_by
  · simp only [List.length_cons]; omega
  · have := length_takeReference_le _found
    simp only [List.length_cons]
    omega
  · simp
  · simp

/-- **The template that is written as a text.** -/
def ofString (text : String) : Template :=
  ⟨piecesOf text.toList⟩

/-- The text that a piece stands for at an occurrence. -/
def Piece.expand (o : Occurrence) : Piece → List Char
  | .char c => [c]
  | .numbered 0 => o.text
  | .numbered n =>
    ((o.groups.find? fun g => g.number == n).map (·.text)).getD []
  | .named name =>
    ((o.groups.find? fun g => g.name == some name).map (·.text)).getD []

/-- **The text that a template stands for at an occurrence.** -/
def expand (t : Template) (o : Occurrence) : List Char :=
  t.pieces.flatMap (Piece.expand o)

end Template
end SwiftStyle
