import SwiftStyle.Pattern.Search
import SwiftStyle.Token.Basic

/-!
# Occurrences of a pattern

The occurrences of a pattern in a text are found from its front to its
end. Each begins at the first place at which the pattern matches and
which lies behind the occurrence before it. An occurrence may be empty,
but not where the one before it ends.
-/

namespace SwiftStyle

/-- **The text of a group** in an occurrence of a pattern. -/
structure Pattern.Group where
  /-- The number of the group. -/
  number : Nat
  /-- The name of the group, if it has one. -/
  name : Option String
  /-- What it took. -/
  text : List Char
deriving DecidableEq, Repr

/-- **An occurrence of a pattern**: a stretch of a text. -/
structure Occurrence where
  /-- The stretch. -/
  span : Span
  /-- The text of the stretch. -/
  text : List Char
  /-- What the groups took that took part in the match. -/
  groups : List Pattern.Group
deriving DecidableEq, Repr

/-- The group that a capture stands for. -/
def Pattern.Capture.group (c : Pattern.Capture) : Pattern.Group :=
  ⟨c.number, c.name, c.start.textTo c.stop⟩

/-- The occurrence from one place to another. -/
def Occurrence.between (c d : Cursor) (taken : List Pattern.Capture) :
    Occurrence :=
  ⟨⟨c.offset, d.offset⟩, c.textTo d, taken.map (·.group)⟩

namespace Pattern

/-- The occurrence that begins at a place at which a pattern comes to the
given end, if to any. The one before it ended at `last`: there is none
inside that one, and no empty one at its end. -/
def occurrenceAt? (last : Option Nat) (c : Cursor) :
    Option (Cursor × List Capture) → Option (Occurrence × Nat)
  | none => none
  | some (d, taken) =>
    if last.any fun stop => decide (c.offset < stop) then none
    else if d.offset = c.offset && last = some c.offset then none
    else some (.between c d taken, d.offset)

/-- The occurrences that begin at some of the places of a text, given the
end that the pattern comes to at each of them, and where the occurrence
before them ended. -/
def occurrencesAmong (last : Option Nat) :
    List Cursor → List (Option (Cursor × List Capture)) →
      List Occurrence
  | c :: places, stop? :: stops =>
    match occurrenceAt? last c stop? with
    | some (found, stop) =>
      found :: occurrencesAmong (some stop) places stops
    | none => occurrencesAmong last places stops
  | _, _ => []

/-- **The occurrences of a pattern in a text.** -/
def occurrences (p : Pattern) (text : List Char) : List Occurrence :=
  let places := Cursor.places none 0 text
  occurrencesAmong none places (p.firstEnds places)

/-- The occurrences are those that begin where trying the pattern, place
by place, finds an end. -/
theorem occurrences_eq (p : Pattern) (text : List Char) :
    p.occurrences text =
      occurrencesAmong none (Cursor.places none 0 text)
        ((Cursor.places none 0 text).map p.firstEnd?) := by
  rw [occurrences, firstEnds_places]

end Pattern
end SwiftStyle
