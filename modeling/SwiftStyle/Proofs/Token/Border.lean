import SwiftStyle.Proofs.Token.Opening

/-!
# Borders between lexemes

A place in a text is given by the text before it and the text behind it.
Either a lexeme **crosses** the place – it begins before it and ends
behind it – or the place is a border between two lexemes, or an end of
the text. `crossing front back` is the kind of the lexeme that crosses
the place between the two texts, and `none` at a border; there is no
third case, since a lexeme without a kind is a single character.

At a border the two texts have nothing to do with each other: the lexemes
of the whole are those of the one and then those of the other
(`lexemes_append`), and what crosses a place behind the border is decided
by the text behind the border alone (`crossing_append`). Whether a place
in front of a firm character is a border is decided by the text up to
that character (`crossing_firm`).

All three are by the same induction (`crossing_induction`): the first lexeme
of the text ends in front of the place, at it or behind it. If it ends behind
it, the place is crossed, and if it ends before or at it, the lexeme drops off
the front. The text behind the place is fixed in this, and what the first
lexeme is may depend on it; where that would hurt, a firm character stands
between the two.
-/

namespace SwiftStyle

open Lexeme

/-- The kind of the lexeme that reaches over so many characters, counted
from the front of the first one. -/
def across : List Lexeme → Nat → Option Token.Kind
  | _, 0 => none
  | [], _ => none
  | lexeme :: rest, n =>
    if n < lexeme.text.length then lexeme.kind
    else across rest (n - lexeme.text.length)

/-- **What crosses the place between two texts**: the kind of the lexeme
that begins in the first and ends in the second. -/
def crossing (front back : List Char) : Option Token.Kind :=
  across (lexemes (front ++ back)) front.length

variable {c : Char} {front back rest : List Char} {lexeme : Lexeme}

theorem lexemes_cons (c : Char) (rest : List Char) :
    lexemes (c :: rest)
      = (takeLexeme c rest).1 :: lexemes (takeLexeme c rest).2 := by
  rw [lexemes]

@[simp] theorem crossing_nil (back : List Char) : crossing [] back = none := by
  unfold crossing across
  rfl

/-- The first lexeme crosses a place if it ends behind it. -/
theorem crossing_inside
    (h : (takeLexeme c (front ++ back)).2.length < back.length) :
    crossing (c :: front) back = (takeLexeme c (front ++ back)).1.kind := by
  have hlen := congrArg List.length (text_takeLexeme_append c (front ++ back))
  simp only [List.length_append, List.length_cons] at hlen
  unfold crossing
  rw [List.cons_append, lexemes_cons, List.length_cons, across,
    if_pos (by omega)]
  exact Nat.succ_ne_zero _

/-- The first lexeme is passed over if it ends in front of a place. -/
theorem crossing_over
    (h : takeLexeme c (front ++ back) = (lexeme, rest ++ back)) :
    crossing (c :: front) back = crossing rest back := by
  have hlen := congrArg List.length (exists_text_append h)
  simp only [List.length_append, List.length_cons] at hlen
  unfold crossing
  rw [List.cons_append, lexemes_cons, h, List.length_cons, across,
    if_neg (by dsimp only; omega)]
  · dsimp only
    congr 1
    omega
  · exact Nat.succ_ne_zero _

/-- **Induction on a text by its lexemes**, in front of another one: the
text is empty, or its first lexeme crosses its end, or what is behind
that lexeme is a text of which the claim is known. -/
theorem crossing_induction (back : List Char)
    {motive : List Char → Prop} (nil : motive [])
    (inside : ∀ c front,
      (takeLexeme c (front ++ back)).2.length < back.length →
        motive (c :: front))
    (beyond : ∀ c front lexeme rest,
      takeLexeme c (front ++ back) = (lexeme, rest ++ back) →
        motive rest → motive (c :: front))
    (front : List Char) : motive front := by
  induction hn : front.length using Nat.strongRecOn generalizing front with
  | ind n ih =>
    subst hn
    cases front with
    | nil => exact nil
    | cons c front =>
      by_cases hlt : (takeLexeme c (front ++ back)).2.length < back.length
      · exact inside c front hlt
      · have happ := text_takeLexeme_append c (front ++ back)
        rw [← List.cons_append] at happ
        obtain ⟨rest, hfront, hrest⟩ :=
          exists_append_of_length_le happ (by omega)
        have hne := text_takeLexeme_ne_nil c (front ++ back)
        refine beyond c front _ rest (Prod.ext rfl hrest) (ih _ ?_ rest rfl)
        rw [hfront, List.length_append]
        have := List.length_pos_iff.2 hne
        omega

theorem openingOf_of_kind_none (h : (takeLexeme c rest).1.kind = none) :
    openingOf c rest = .other := by
  rw [takeLexeme_eq] at h
  cases ho : openingOf c rest with
  | other => rfl
  | _ => rw [ho] at h; cases h

/-- A lexeme without a kind is a single character. -/
theorem takeLexeme_of_kind_none (h : (takeLexeme c rest).1.kind = none) :
    takeLexeme c rest = (⟨none, [c]⟩, rest) := by
  rw [takeLexeme_eq, openingOf_of_kind_none h]
  rfl

/-! ## Independence of the two sides

What is behind a border may be exchanged, and so may what is in front of it,
but each of the two is divided by itself only as long as the border stays one.
-/

/-- **Behind a border the text before it does not matter.** -/
theorem crossing_append (middle : List Char)
    (h : crossing front (middle ++ back) = none) :
    crossing (front ++ middle) back = crossing middle back := by
  induction front using crossing_induction (middle ++ back) with
  | nil => rfl
  | inside c front hlt =>
    rw [crossing_inside hlt] at h
    rw [takeLexeme_of_kind_none h, List.length_append, List.length_append]
      at hlt
    omega
  | beyond c front lexeme rest htake ih =>
    rw [crossing_over htake] at h
    rw [← List.append_assoc front, ← List.append_assoc rest] at htake
    rw [List.cons_append, crossing_over htake, ih h]

/-- **At a border the lexemes of a text are those of its two parts.** -/
theorem lexemes_append (h : crossing front back = none) :
    lexemes (front ++ back) = lexemes front ++ lexemes back := by
  induction front using crossing_induction back with
  | nil =>
    rw [List.nil_append, lexemes, List.nil_append]
  | inside c front hlt =>
    rw [crossing_inside hlt] at h
    rw [takeLexeme_of_kind_none h, List.length_append] at hlt
    omega
  | beyond c front lexeme rest htake ih =>
    have hcut := takeLexeme_sameAhead (.cut back) htake
    rw [List.append_nil, List.append_nil] at hcut
    rw [crossing_over htake] at h
    rw [List.cons_append, lexemes_cons, lexemes_cons, htake, hcut, ih h,
      List.cons_append]

/-- **What crosses the place in front of a firm character** does not
depend on the text behind that character. -/
theorem crossing_firm {y : Char} (hy : isFirm y) (front : List Char)
    (back back' : List Char) :
    crossing front (y :: back) = crossing front (y :: back') := by
  induction front using crossing_induction (y :: back) with
  | nil => rw [crossing_nil, crossing_nil]
  | inside c front hlt =>
    by_cases hlt' :
        (takeLexeme c (front ++ y :: back')).2.length < (y :: back').length
    · rw [crossing_inside hlt, crossing_inside hlt']
      exact kind_takeLexeme_firm hy c front back back'
    · -- a lexeme that ends before the character would do so in both texts
      have happ := text_takeLexeme_append c (front ++ y :: back')
      rw [← List.cons_append] at happ
      obtain ⟨rest, -, hrest⟩ :=
        exists_append_of_length_le happ (by omega)
      have htake := takeLexeme_sameAhead (.firm hy back' back)
        (Prod.ext rfl hrest)
      rw [htake, List.length_append] at hlt
      omega
  | beyond c front lexeme rest htake ih =>
    rw [crossing_over htake, ih,
      crossing_over (takeLexeme_sameAhead (.firm hy back back') htake)]

/-! ## The lexeme that crosses

A place that is crossed is led back to the border in front of it, where the
lexeme begins that crosses it. -/

/-- A lexeme that begins at a border crosses the places before its end. -/
theorem crossing_from {before after : List Char}
    (h : crossing before (c :: (after ++ back)) = none)
    (hlt : (takeLexeme c (after ++ back)).2.length < back.length) :
    crossing (before ++ c :: after) back
      = (takeLexeme c (after ++ back)).1.kind := by
  rw [crossing_append (c :: after) h, crossing_inside hlt]

/-- What crosses a place is a lexeme that begins at a border. -/
theorem exists_of_crossing {kind : Token.Kind}
    (h : crossing front back = some kind) :
    ∃ before c after, front = before ++ c :: after ∧
      crossing before (c :: (after ++ back)) = none ∧
        (takeLexeme c (after ++ back)).1.kind = some kind ∧
          (takeLexeme c (after ++ back)).2.length < back.length := by
  induction front using crossing_induction back with
  | nil =>
    rw [crossing_nil] at h
    cases h
  | inside c front hlt =>
    rw [crossing_inside hlt] at h
    exact ⟨[], c, front, rfl, crossing_nil _, h, hlt⟩
  | beyond c front lexeme rest htake ih =>
    rw [crossing_over htake] at h
    obtain ⟨before, d, after, rfl, hnone, hkind, hlt⟩ := ih h
    have htext := exists_text_append htake
    have hne := text_takeLexeme_ne_nil c (front ++ back)
    rw [htake] at hne
    obtain ⟨e, more, hmore⟩ := List.exists_cons_of_ne_nil hne
    rw [hmore, List.cons_append] at htext
    obtain ⟨rfl, rfl⟩ := List.cons.inj htext
    refine ⟨c :: (more ++ before), d, after, by simp, ?_, hkind, hlt⟩
    have hover : takeLexeme c (more ++ before ++ d :: (after ++ back))
        = (lexeme, before ++ d :: (after ++ back)) := by
      simpa using htake
    rw [crossing_over hover, hnone]

end SwiftStyle
