/-!
# Sizes and cuts in bytes

Texts are lists of characters; every offset and length that leaves the
library counts bytes of their UTF-8 form. This module holds the size of
a text in bytes and the cuts at a byte offset. `takeBytes` and
`dropBytes` cut anywhere, a character that is hit staying whole in the
first part. `after?` and `slice?` cut only at a border between two
characters: they answer `none` inside one and past the end.

A size is a sum over characters, and no text is ever turned into bytes to find
it. The cuts go character by character, so an offset is compared with sizes of
fronts of the text, and an offset at a border is the size of exactly one
front.
-/

namespace SwiftStyle.Text

/-- The number of bytes of a text in UTF-8. -/
def size : List Char → Nat
  | [] => 0
  | c :: rest => c.utf8Size + size rest

@[simp] theorem size_nil : size [] = 0 := rfl

@[simp] theorem size_cons (c : Char) (rest : List Char) :
    size (c :: rest) = c.utf8Size + size rest := rfl

@[simp] theorem size_append (text more : List Char) :
    size (text ++ more) = size text + size more := by
  induction text with
  | nil => simp
  | cons c rest ih => simp [ih, Nat.add_assoc]

/-- A text without some of its characters is not longer. -/
theorem size_le_of_sublist {text more : List Char} (h : text.Sublist more) :
    size text ≤ size more := by
  induction h with
  | slnil => exact Nat.le_refl _
  | cons c _ ih => exact Nat.le_trans ih (Nat.le_add_left ..)
  | cons_cons c _ ih => exact Nat.add_le_add_left ih _

/-- A text that is not empty has a positive size. -/
theorem size_pos {text : List Char} (h : text ≠ []) : 0 < size text := by
  cases text with
  | nil => exact absurd rfl h
  | cons c rest => have := c.utf8Size_pos; simp only [size_cons]; omega

/-- A text of no size is empty. -/
theorem size_eq_zero {text : List Char} (h : size text = 0) : text = [] := by
  cases text with
  | nil => rfl
  | cons c rest =>
    have := c.utf8Size_pos
    rw [size_cons] at h
    omega

/-- Of two beginnings of a text the one with fewer bytes begins the
other. -/
theorem exists_append_of_size_le {front back front' back' : List Char}
    (h : front ++ back = front' ++ back') (hle : size front ≤ size front') :
    ∃ middle, front' = front ++ middle ∧ back = middle ++ back' := by
  rcases List.append_eq_append_iff.1 h with
    ⟨middle, hfront, hback⟩ | ⟨middle, hfront, hback⟩
  · exact ⟨middle, hfront, hback⟩
  · have hnil : middle = [] := by
      rw [hfront, size_append] at hle
      exact size_eq_zero (by omega)
    rw [hnil, List.append_nil] at hfront
    rw [hnil, List.nil_append] at hback
    exact ⟨[], by rw [hfront, List.append_nil], hback.symm⟩

/-- The size of a string in UTF-8 is the size of its characters. -/
theorem size_toList (s : String) : size s.toList = s.utf8ByteSize := by
  have h : ∀ text : List Char,
      size text = (String.ofList text).utf8ByteSize := by
    intro text
    induction text with
    | nil => rfl
    | cons c rest ih =>
      rw [String.ofList_cons, String.utf8ByteSize_append,
        String.utf8ByteSize_singleton, size_cons, ih]
  rw [h, String.ofList_toList]

/-! ## Cuts anywhere -/

/-- The characters that begin in the first `n` bytes. -/
def takeBytes : Nat → List Char → List Char
  | _, [] => []
  | n, c :: rest => if n = 0 then [] else c :: takeBytes (n - c.utf8Size) rest

/-- The characters that do not begin in the first `n` bytes. -/
def dropBytes : Nat → List Char → List Char
  | _, [] => []
  | n, c :: rest => if n = 0 then c :: rest else dropBytes (n - c.utf8Size) rest

/-- Nothing is lost between the two parts of a cut. -/
theorem takeBytes_append_dropBytes (n : Nat) (text : List Char) :
    takeBytes n text ++ dropBytes n text = text := by
  induction text generalizing n with
  | nil => rfl
  | cons c rest ih =>
    by_cases h : n = 0 <;> simp [takeBytes, dropBytes, h, ih]

@[simp] theorem takeBytes_zero (text : List Char) :
    takeBytes 0 text = [] := by
  cases text <;> simp [takeBytes]

@[simp] theorem dropBytes_zero (text : List Char) :
    dropBytes 0 text = text := by
  cases text <;> simp [dropBytes]

/-- A cut behind a beginning of a text gives that beginning. -/
@[simp] theorem takeBytes_size_append (front back : List Char) :
    takeBytes (size front) (front ++ back) = front := by
  induction front with
  | nil => simp
  | cons c rest ih =>
    have h := c.utf8Size_pos
    have hne : c.utf8Size ≠ 0 := by omega
    simp [takeBytes, hne, ih]

/-- A cut behind a beginning of a text leaves what follows it. -/
@[simp] theorem dropBytes_size_append (front back : List Char) :
    dropBytes (size front) (front ++ back) = back := by
  induction front with
  | nil => simp
  | cons c rest ih =>
    have h := c.utf8Size_pos
    have hne : c.utf8Size ≠ 0 := by omega
    simp [dropBytes, hne, ih]

/-! ## Cuts between characters -/

/-- The text behind a byte offset, if the offset is the border between
two characters or an end of the text. -/
def after? : Nat → List Char → Option (List Char)
  | 0, text => some text
  | _ + 1, [] => none
  | n + 1, c :: rest =>
    if c.utf8Size ≤ n + 1 then after? (n + 1 - c.utf8Size) rest else none

/-- There is a text behind an offset when a beginning of the text has
that many bytes. -/
theorem after?_eq_some {n : Nat} {text back : List Char} :
    after? n text = some back ↔
      ∃ front, text = front ++ back ∧ size front = n := by
  induction text generalizing n with
  | nil =>
    cases n with
    | zero =>
      simp only [after?, Option.some.injEq]
      constructor
      · rintro rfl
        exact ⟨[], rfl, rfl⟩
      · rintro ⟨front, h, _⟩
        exact ((List.append_eq_nil_iff.1 h.symm).2).symm
    | succ n => simp +contextual [after?]
  | cons c rest ih =>
    have hpos := c.utf8Size_pos
    cases n with
    | zero =>
      simp only [after?, Option.some.injEq]
      constructor
      · rintro rfl
        exact ⟨[], rfl, rfl⟩
      · rintro ⟨front, h, hs⟩
        cases front with
        | nil => exact h
        | cons d tail =>
          have := d.utf8Size_pos
          simp only [size_cons] at hs
          omega
    | succ n =>
      simp only [after?]
      constructor
      · intro h
        split at h
        next hle =>
          obtain ⟨front, rfl, hs⟩ := ih.1 h
          exact ⟨c :: front, rfl, by simp only [size_cons]; omega⟩
        next => simp at h
      · rintro ⟨front, h, hs⟩
        cases front with
        | nil => simp at hs
        | cons d tail =>
          simp only [List.cons_append, List.cons.injEq] at h
          obtain ⟨rfl, rfl⟩ := h
          simp only [size_cons] at hs
          rw [if_pos (by omega)]
          exact ih.2 ⟨tail, rfl, by omega⟩

/-- The part of a text between two byte offsets, if both are borders
between characters and the first is not the greater. -/
def slice? (start stop : Nat) (text : List Char) : Option (List Char) :=
  if start ≤ stop then do
    let back ← after? start text
    let _ ← after? (stop - start) back
    return takeBytes (stop - start) back
  else none

/-- A slice is what stands behind a beginning that ends at its start, up
to its stop. -/
theorem slice?_eq_some {start stop : Nat} {text middle : List Char} :
    slice? start stop text = some middle ↔
      ∃ front back, text = front ++ middle ++ back ∧
        size front = start ∧ size (front ++ middle) = stop := by
  unfold slice?
  split
  next hle =>
    simp only [Option.bind_eq_bind, Option.pure_def,
      Option.bind_eq_some_iff, Option.some.injEq, after?_eq_some]
    constructor
    · rintro ⟨tail, ⟨front, rfl, hf⟩, back, ⟨piece, rfl, hp⟩, rfl⟩
      refine ⟨front, back, ?_, hf, ?_⟩
      · rw [← hp, takeBytes_size_append, List.append_assoc]
      · rw [← hp, takeBytes_size_append, size_append]
        omega
    · rintro ⟨front, back, rfl, hf, hs⟩
      have hm : size middle = stop - start := by
        rw [size_append] at hs
        omega
      refine ⟨middle ++ back, ⟨front, List.append_assoc .., hf⟩, back,
        ⟨middle, rfl, hm⟩, ?_⟩
      rw [← hm, takeBytes_size_append]
  next hle =>
    constructor
    · intro h
      cases h
    · rintro ⟨front, back, rfl, hf, hs⟩
      rw [size_append] at hs
      omega

end SwiftStyle.Text
