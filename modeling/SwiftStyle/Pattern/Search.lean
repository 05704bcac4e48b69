import SwiftStyle.Pattern.Basic

/-!
# Trying a pattern everywhere

`Pattern.ends` follows a pattern from one place. A search asks about
every place of a text, and following the pattern from each of them on its
own would read the same characters over and over. Here all places are
answered together, from the last to the first.

A **column** holds, for each of the places of a text in their order, an
answer or none. `Pattern.answers` turns the column of what comes after a
pattern into the column of the pattern and what comes after it. It takes
the parts of a pattern from the last to the first, and reads the column
once for each part. That this finds the end which is preferred among
those from which the search can go on is `Pattern.answers_eq`, and that a
column of ends holds what `Pattern.firstEnd?` says of each place is
`Pattern.firstEnds_places`.
-/

namespace SwiftStyle

namespace Cursor

/-- **The places of a text** from a cursor on, itself the first. -/
def places (before : Option Char) (offset : Nat) :
    List Char → List Cursor
  | [] => [⟨before, offset, []⟩]
  | a :: rest =>
    ⟨before, offset, a :: rest⟩ ::
      places (some a) (offset + a.utf8Size) rest

/-- Whether a character of a class stands at a place. -/
def meets (p : Char → Bool) (c : Cursor) : Bool :=
  c.rest.head?.any p

end Cursor

namespace Pattern

variable {β : Type}

/-- The answer at the first place of a column. -/
def first? (column : List (Option β)) : Option β :=
  column.head?.join

/-- The column of a character of a class, given what comes after it. -/
def afterOne (p : Char → Bool) :
    List Cursor → List (Option β) → List (Option β)
  | c :: places, _ :: behind =>
    (if c.meets p then first? behind else none) ::
      afterOne p places behind
  | _, _ => []

/-- The column of characters of a class, given what comes after them. -/
def afterMany (p : Char → Bool) :
    List Cursor → List (Option β) → List (Option β)
  | c :: places, here :: behind =>
    let below := afterMany p places behind
    (if c.meets p then (first? below).or here else here) :: below
  | _, _ => []

/-- **The column of a pattern**, given what comes after it; `add` adds
what a group took to an answer. -/
def answers : Pattern → {β : Type} → (add : Capture → β → β) →
    List Cursor → List (Option β) → List (Option β)
  | empty, _, _, _, column => column
  | one p, _, _, places, column => afterOne p places column
  | many p, _, _, places, column => afterMany p places column
  | seq first second, _, add, places, column =>
    first.answers add places (second.answers add places column)
  | either first second, _, add, places, column =>
    List.zipWith Option.or (first.answers add places column)
      (second.answers add places column)
  | group number name body, _, add, places, column =>
    let stops := List.zipWith (fun c answer => answer.map (c, ·))
      places column
    let taken := body.answers (fun t (d, b) => (d, add t b)) places stops
    List.zipWith
      (fun c answer => answer.map fun (d, b) => add ⟨number, name, c, d⟩ b)
      places taken
  | wordEdge, _, _, places, column =>
    List.zipWith
      (fun c answer =>
        if Text.isWordEdge c.before c.rest.head? then answer else none)
      places column

/-- **The ends that a pattern comes to** at each of the places. -/
def firstEnds (p : Pattern) (places : List Cursor) :
    List (Option (Cursor × List Capture)) :=
  p.answers (fun t (d, taken) => (d, t :: taken)) places
    (places.map fun c => some (c, []))

/-- The answer of the most preferred end of a pattern at a place from
which there is one, `next` being the answers after the pattern. -/
def answerAt (p : Pattern) (add : Capture → β → β)
    (next : Cursor → Option β) (c : Cursor) : Option β :=
  (p.ends c).findSome? fun (d, taken) =>
    (next d).map fun b => taken.foldr add b

/-- What is done to the first answer may be done to all. -/
theorem map_findSome? {α γ : Type} (f : β → γ) (g : α → Option β)
    (items : List α) :
    (items.findSome? g).map f = items.findSome? fun a => (g a).map f := by
  induction items with
  | nil => rfl
  | cons a items ih => cases h : g a <;> simp [h, ih]

/-- The first answer in a list of lists is the first that one of them
gives. -/
theorem findSome?_flatMap {α γ : Type} (f : α → List γ)
    (g : γ → Option β) (items : List α) :
    (items.flatMap f).findSome? g =
      items.findSome? fun a => (f a).findSome? g := by
  induction items with
  | nil => rfl
  | cons a items ih =>
    rw [List.flatMap_cons, List.findSome?_append, ih, List.findSome?_cons]
    cases (f a).findSome? g <;> rfl

theorem first?_map_places (f : Cursor → Option β) (before : Option Char)
    (offset : Nat) (text : List Char) :
    first? ((Cursor.places before offset text).map f) =
      f ⟨before, offset, text⟩ := by
  cases text <;> rfl

theorem afterOne_eq (p : Char → Bool) (add : Capture → β → β)
    (next : Cursor → Option β) (before : Option Char) (offset : Nat)
    (text : List Char) :
    afterOne p (Cursor.places before offset text)
        ((Cursor.places before offset text).map next) =
      (Cursor.places before offset text).map
        ((one p).answerAt add next) := by
  induction text generalizing before offset with
  | nil => rfl
  | cons a rest ih =>
    simp only [Cursor.places, List.map_cons, afterOne, ih,
      first?_map_places, List.cons.injEq, and_true]
    by_cases h : p a <;>
      simp [Cursor.meets, answerAt, ends, Cursor.step, h]

theorem afterMany_eq (p : Char → Bool) (add : Capture → β → β)
    (next : Cursor → Option β) (before : Option Char) (offset : Nat)
    (text : List Char) :
    afterMany p (Cursor.places before offset text)
        ((Cursor.places before offset text).map next) =
      (Cursor.places before offset text).map
        ((many p).answerAt add next) := by
  induction text generalizing before offset with
  | nil =>
    simp [Cursor.places, afterMany, Cursor.meets, answerAt, ends,
      Cursor.reach]
  | cons a rest ih =>
    simp only [Cursor.places, List.map_cons, afterMany, ih,
      first?_map_places, List.cons.injEq, and_true]
    by_cases h : p a <;>
      simp [Cursor.meets, answerAt, ends, Cursor.reach, h]

/-- A column that is worked out is that of the preferred ends. -/
theorem answers_eq (p : Pattern) (add : Capture → β → β)
    (next : Cursor → Option β) (before : Option Char) (offset : Nat)
    (text : List Char) :
    p.answers add (Cursor.places before offset text)
        ((Cursor.places before offset text).map next) =
      (Cursor.places before offset text).map (p.answerAt add next) := by
  induction p generalizing β with
  | empty => simp [answers, answerAt, ends]
  | one p => exact afterOne_eq p add next before offset text
  | many p => exact afterMany_eq p add next before offset text
  | seq first second ihf ihs =>
    simp only [answers, ihs, ihf]
    refine List.map_congr_left fun c _ => ?_
    simp only [answerAt, ends, findSome?_flatMap, List.findSome?_map,
      Function.comp_def, map_findSome?, List.foldr_append, Option.map_map]
  | either first second ihf ihs =>
    simp only [answers, ihs, ihf, List.zipWith_map, List.zipWith_self]
    refine List.map_congr_left fun c _ => ?_
    simp [answerAt, ends, List.findSome?_append]
  | group number name body ih =>
    simp only [answers, List.zipWith_map_right, List.zipWith_self, ih]
    refine List.map_congr_left fun c _ => ?_
    have hf : ∀ (taken : List Capture) (x : Cursor × β),
        taken.foldr (fun t (y : Cursor × β) => (y.1, add t y.2)) x =
          (x.1, taken.foldr add x.2) := by
      intro taken x
      induction taken with
      | nil => rfl
      | cons t taken ih => simp [ih]
    simp only [answerAt, ends, List.findSome?_map, Function.comp_def,
      map_findSome?, Option.map_map, hf, List.foldr_cons]
  | wordEdge =>
    simp only [answers, List.zipWith_map_right, List.zipWith_self]
    refine List.map_congr_left fun c _ => ?_
    by_cases h : Text.isWordEdge c.before c.rest.head? <;>
      simp [answerAt, ends, h]

/-- The ends found together are those found one by one. -/
theorem firstEnds_places (p : Pattern) (before : Option Char)
    (offset : Nat) (text : List Char) :
    p.firstEnds (Cursor.places before offset text) =
      (Cursor.places before offset text).map p.firstEnd? := by
  rw [firstEnds, answers_eq]
  refine List.map_congr_left fun c _ => ?_
  have hf : ∀ (d : Cursor) (taken : List Capture),
      taken.foldr (fun t (x : Cursor × List Capture) => (x.1, t :: x.2))
        (d, []) = (d, taken) := by
    intro d taken
    induction taken with
    | nil => rfl
    | cons t taken ih => simp [ih]
  simp only [answerAt, firstEnd?, Option.map_some, hf]
  cases p.ends c <;> rfl

end Pattern
end SwiftStyle
