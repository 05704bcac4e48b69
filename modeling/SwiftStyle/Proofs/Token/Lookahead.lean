import Mathlib.Data.List.TakeWhile
import Mathlib.Tactic.ByContra
import SwiftStyle.Token.Lexeme

/-!
# How far a lexeme looks ahead

A lexeme is taken from the front of a text, and where it ends may depend
on text behind its end: a name ends at the first character that does not
continue it, a point ends a number unless a digit follows, a number sign
starts a string if further ones and a quotation mark follow.

Not much of that text matters. `SameAhead back back'` says that nothing
stands in the second text, or that both begin with one character that is
**firm**: it neither goes on with a name or a number nor leads to a
quotation mark. The first case cuts a text at the end of a piece, the
second lets the text behind a firm character change.

A scanner that takes the same piece in front of texts that look the same
looks no farther than that (`LooksLittle`). All scanners of comments,
names and numbers are such; strings and whole lexemes follow in modules
of their own.

`LooksLittle` goes from the one text to the other and not back, because the
second may be empty where the first is not. It is enough: it is used where a
text is known to be cut, or changed behind a firm character, and then the
lexemes in front of the change are to be found again.

A scanner is handed the text as a list and knows no place in it. That a piece
ends in front of `back` is said by what is left, a text with `back` at its
end.
-/

namespace SwiftStyle

/-- What is said of the characters of a list is decided member by member,
and not by going through all characters that there are. -/
instance (priority := high) decidableForallMem {p : Char → Prop}
    [DecidablePred p] (text : List Char) : Decidable (∀ c ∈ text, p c) :=
  List.decidableBAll p text

namespace Lexeme

/-- **Whether a character is firm**: what stands behind it does not
decide where a lexeme before it ends. -/
def isFirm (c : Char) : Bool :=
  !Text.continuesName c && c != '#' && c != '"' && c != '.'

/-- **What lexemes in front see as the same**: no text, or a text with
the same firm first character. -/
inductive SameAhead : List Char → List Char → Prop where
  /-- The text is cut off. -/
  | cut (back : List Char) : SameAhead back []
  /-- The text is another one behind its first character. -/
  | firm {y : Char} (h : isFirm y) (back back' : List Char) :
    SameAhead (y :: back) (y :: back')

variable {back back' : List Char}

theorem not_continuesName_of_isFirm {c : Char} (h : isFirm c) :
    Text.continuesName c = false := by
  simp only [isFirm, Bool.and_eq_true, Bool.not_eq_true'] at h
  exact h.1.1.1

theorem ne_of_isFirm {c : Char} (h : isFirm c) :
    c ≠ '#' ∧ c ≠ '"' ∧ c ≠ '.' := by
  simp only [isFirm, Bool.and_eq_true, bne_iff_ne] at h
  exact ⟨h.1.1.2, h.1.2, h.2⟩

theorem SameAhead.eq_nil (h : SameAhead [] back') : back' = [] := by
  cases h
  rfl

theorem SameAhead.head (h : SameAhead back back') {y : Char}
    {rest : List Char} (hy : back' = y :: rest) :
    isFirm y ∧ ∃ rest', back = y :: rest' := by
  cases h with
  | cut => cases hy
  | firm hf b b' =>
    obtain ⟨rfl, -⟩ := List.cons.inj hy
    exact ⟨hf, b, rfl⟩

theorem SameAhead.head?_append (h : SameAhead back back')
    (front : List Char) {y : Char}
    (hy : (front ++ back').head? = some y) :
    (front ++ back).head? = some y := by
  cases front with
  | cons c front => exact hy
  | nil =>
    cases hb : back' with
    | nil =>
      rw [hb] at hy
      cases hy
    | cons z rest =>
      obtain ⟨-, rest', hrest⟩ := h.head hb
      rw [List.nil_append, hb] at hy
      rw [List.nil_append, hrest]
      exact hy

theorem exists_append_of_length_le {front rest front' : List Char}
    (h : front ++ rest = front' ++ back) (hle : back.length ≤ rest.length) :
    ∃ middle, front' = front ++ middle ∧ rest = middle ++ back := by
  rcases List.append_eq_append_iff.1 h with
    ⟨middle, hfront, hrest⟩ | ⟨middle, hfront, hback⟩
  · exact ⟨middle, hfront, hrest⟩
  · have hnil : middle = [] := by
      rw [hback, List.length_append] at hle
      exact List.length_eq_zero_iff.1 (by omega)
    rw [hnil, List.append_nil] at hfront
    rw [hnil, List.nil_append] at hback
    exact ⟨[], by rw [hfront, List.append_nil], hback.symm⟩

theorem after_eq_iff {first piece rest : List Char} {cut : Cut} :
    cut.after first = (piece, rest)
      ↔ ∃ p, piece = first ++ p ∧ cut = (p, rest) := by
  constructor
  · rintro h
    obtain ⟨rfl, rfl⟩ := Prod.mk.inj h
    exact ⟨cut.1, rfl, rfl⟩
  · rintro ⟨p, rfl, rfl⟩
    rfl

theorem le_length_of_cut {scan : List Char → Cut}
    (happ : ∀ text, (scan text).1 ++ (scan text).2 = text)
    {text piece rest : List Char} (h : scan text = (piece, rest ++ back)) :
    back.length ≤ text.length := by
  have := congrArg List.length (happ text)
  rw [h, List.length_append, List.length_append] at this
  omega

theorem exists_head {front : List Char} {c : Char}
    (h : (front ++ back).head? = some c)
    (hle : back.length ≤ (front ++ back).tail.length) :
    ∃ front', front = c :: front' := by
  cases front with
  | nil =>
    cases back with
    | nil => cases h
    | cons y back => exact absurd hle (Nat.not_succ_le_self _)
  | cons d front =>
    obtain rfl : d = c := Option.some.inj h
    exact ⟨front, rfl⟩

/-- **A scanner looks no farther than a firm character**: a piece that it
takes in front of a text is also the piece it takes in front of another
that looks the same. -/
def LooksLittle (scan : List Char → Cut) : Prop :=
  ∀ {back back' front piece rest : List Char}, SameAhead back back' →
    scan (front ++ back) = (piece, rest ++ back) →
    scan (front ++ back') = (piece, rest ++ back')

theorem LooksLittle.eq {scan : List Char → Cut} (hscan : LooksLittle scan)
    {front rest : List Char} (hs : SameAhead back back')
    (h : (scan (front ++ back)).2 = rest ++ back) :
    scan (front ++ back') = ((scan (front ++ back)).1, rest ++ back') :=
  hscan hs (Prod.ext rfl h)

/-! ## Runs

A run of characters of a class is the simplest scanner, and the others come
down to it: where it stops is decided by the first character that is not of
the class. -/

theorem takeRun_cons (p : Char → Bool) (c : Char) (rest : List Char) :
    takeRun p (c :: rest)
      = if p c then Cut.after [c] (takeRun p rest) else ([], c :: rest) := by
  unfold takeRun
  rw [List.takeWhile_cons, List.dropWhile_cons]
  split <;> rfl

/-- A piece and the text behind it make up the text, so no text is left
only if none was there. -/
theorem eq_nil_of_cut {scan : List Char → Cut}
    (happ : ∀ text, (scan text).1 ++ (scan text).2 = text)
    {text piece rest : List Char} (h : scan text = (piece, rest ++ text)) :
    piece = [] ∧ rest = [] := by
  have hnil := happ text
  rw [h, ← List.append_assoc, List.append_left_eq_self] at hnil
  exact List.append_eq_nil_iff.1 hnil

theorem takeRun_looksLittle (p : Char → Bool) :
    LooksLittle (takeRun p) := by
  intro back back' front piece rest hs h
  induction front generalizing piece with
  | nil =>
    obtain ⟨rfl, rfl⟩ := eq_nil_of_cut (append_takeRun p) h
    cases hs with
    | cut => rfl
    | firm hf b b' =>
      rename_i y
      have hy : p y = false := by
        by_contra hp
        rw [List.nil_append, takeRun_cons, if_pos (by simpa using hp)] at h
        cases h
      rw [List.nil_append, takeRun_cons, if_neg (by simp [hy])]
  | cons c front ih =>
    rw [List.cons_append, takeRun_cons] at h ⊢
    by_cases hp : p c
    · rw [if_pos hp] at h ⊢
      obtain ⟨rfl, hrest⟩ := Prod.mk.inj h
      rw [ih (Prod.ext rfl hrest)]
      rfl
    · rw [if_neg hp] at h ⊢
      obtain ⟨rfl, hrest⟩ := Prod.mk.inj h
      rw [← List.cons_append] at hrest ⊢
      rw [List.append_cancel_right hrest]

/-- A run ends before a character that does not belong to it. -/
theorem takeRun_stops {p : Char → Bool} {y : Char} (hy : p y = false)
    (front back : List Char) :
    ∃ piece rest,
      takeRun p (front ++ y :: back) = (piece, rest ++ y :: back) := by
  induction front with
  | nil => exact ⟨[], [], by rw [List.nil_append, takeRun_cons]; simp [hy]⟩
  | cons c front ih =>
    rw [List.cons_append, takeRun_cons]
    split
    · obtain ⟨piece, rest, h⟩ := ih
      exact ⟨c :: piece, rest, by rw [h]; rfl⟩
    · exact ⟨[], c :: front, rfl⟩

/-- A run goes on behind characters that belong to it. -/
theorem takeRun_append {p : Char → Bool} {front : List Char}
    (h : ∀ c ∈ front, p c) (back : List Char) :
    takeRun p (front ++ back) = (takeRun p back).after front := by
  unfold takeRun Cut.after
  rw [List.takeWhile_append_of_pos h, List.dropWhile_append_of_pos h]

/-- A run that goes on behind a front has taken all of it. -/
theorem forall_mem_of_takeRun_lt {p : Char → Bool} {front : List Char}
    (h : (takeRun p (front ++ back)).2.length < back.length) :
    ∀ c ∈ front, p c := by
  unfold takeRun at h
  rw [List.dropWhile_append] at h
  split at h
  next hnil => exact List.dropWhile_eq_nil_iff.1 (List.isEmpty_iff.1 hnil)
  next =>
    rw [List.length_append] at h
    omega

/-- A run takes the character behind it if that belongs to it. -/
theorem takeRun_snd_ne {p : Char → Bool} {y : Char} (hy : p y)
    (rest : List Char) :
    (takeRun p (y :: back)).2 ≠ rest ++ y :: back := by
  intro h
  rw [takeRun_cons, if_pos hy] at h
  have hlen := congrArg List.length (append_takeRun p back)
  have hrest : (takeRun p back).2 = rest ++ y :: back := h
  rw [hrest, List.length_append, List.length_append, List.length_cons]
    at hlen
  omega

/-! ## Comments

A line comment is a run. A block comment looks at two characters at a time,
and the second of them may be the first one behind the text that is fixed; a
firm character is none of a mark. -/

/-- What a block comment does at a character, by the one after it. -/
theorem takeBlock_cons (depth : Nat) (c : Char) (rest : List Char) :
    takeBlock depth (c :: rest)
      = if c = '/' ∧ rest.head? = some '*' then
          Cut.after ['/', '*'] (takeBlock (depth + 1) rest.tail)
        else if c = '*' ∧ rest.head? = some '/' then
          match depth with
          | 0 => (['*', '/'], rest.tail)
          | depth + 1 => Cut.after ['*', '/'] (takeBlock depth rest.tail)
        else Cut.after [c] (takeBlock depth rest) := by
  cases rest with
  | nil => simp [takeBlock]
  | cons d rest =>
    by_cases hopen : c = '/' ∧ d = '*'
    · obtain ⟨rfl, rfl⟩ := hopen
      rfl
    · by_cases hclose : c = '*' ∧ d = '/'
      · obtain ⟨rfl, rfl⟩ := hclose
        cases depth <;> rfl
      · rw [if_neg (by simpa using hopen), if_neg (by simpa using hclose)]
        rw [takeBlock] <;> simp_all

theorem takeBlock_looksLittle (depth : Nat) :
    LooksLittle (takeBlock depth) := by
  intro back back' front piece rest hs h
  induction hn : front.length using Nat.strongRecOn
    generalizing front depth piece with
  | ind n ih =>
    cases front with
    | nil =>
      obtain ⟨rfl, rfl⟩ := eq_nil_of_cut (append_takeBlock depth) h
      cases back with
      | nil =>
        rw [hs.eq_nil]
        exact h
      | cons y back =>
        -- a comment does not end in front of a character
        rw [List.nil_append, takeBlock_cons] at h
        split at h
        · cases (after_eq_iff.1 h).choose_spec.1
        · split at h
          · cases depth with
            | zero => cases h
            | succ depth => cases (after_eq_iff.1 h).choose_spec.1
          · cases (after_eq_iff.1 h).choose_spec.1
    | cons c front =>
      rw [List.length_cons] at hn
      rw [List.cons_append, takeBlock_cons] at h ⊢
      -- a mark of two characters lies in the front with both of them
      split at h
      next hopen =>
        obtain ⟨p, rfl, hp⟩ := after_eq_iff.1 h
        obtain ⟨front, rfl⟩ := exists_head hopen.2
          (le_length_of_cut (append_takeBlock _) hp)
        rw [if_pos ⟨hopen.1, rfl⟩]
        exact after_eq_iff.2
          ⟨p, rfl, ih _ (by simp at hn; omega) _ hp rfl⟩
      next hopen =>
        rw [if_neg fun ho => hopen ⟨ho.1, hs.head?_append front ho.2⟩]
        split at h
        next hclose =>
          cases depth with
          | zero =>
            obtain ⟨rfl, hrest⟩ := Prod.mk.inj h
            obtain ⟨front, rfl⟩ := exists_head hclose.2 (by
              rw [hrest, List.length_append]
              omega)
            rw [if_pos ⟨hclose.1, rfl⟩]
            exact Prod.ext rfl
              (congrArg (· ++ back') (List.append_cancel_right hrest))
          | succ depth =>
            obtain ⟨p, rfl, hp⟩ := after_eq_iff.1 h
            obtain ⟨front, rfl⟩ := exists_head hclose.2
              (le_length_of_cut (append_takeBlock _) hp)
            rw [if_pos ⟨hclose.1, rfl⟩]
            exact after_eq_iff.2
              ⟨p, rfl, ih _ (by simp at hn; omega) _ hp rfl⟩
        next hclose =>
          rw [if_neg fun hc => hclose ⟨hc.1, hs.head?_append front hc.2⟩]
          obtain ⟨p, rfl, hp⟩ := after_eq_iff.1 h
          exact after_eq_iff.2 ⟨p, rfl, ih _ (by omega) _ hp rfl⟩

/-! ## Names and numbers

A number looks at one character behind a point, which belongs to it only if a
digit follows. -/

theorem takeQuotedName_looksLittle : LooksLittle takeQuotedName := by
  intro back back' front piece rest hs h
  unfold takeQuotedName at h ⊢
  generalize hr : takeRun (fun c => c != '\x60' && c != '\n')
    (front ++ back) = run at h
  obtain ⟨name, after⟩ := run
  dsimp only at h
  split at h
  next tail =>
    -- the partner of the backquote
    obtain ⟨rfl, rfl⟩ := Prod.mk.inj h
    rw [← List.cons_append] at hr
    rw [takeRun_looksLittle _ hs hr]
    rfl
  next hne =>
    obtain ⟨rfl, rfl⟩ := Prod.mk.inj h
    rw [takeRun_looksLittle _ hs hr]
    dsimp only
    split
    next tail heq =>
      have hhead := hs.head?_append rest (y := '\x60') (by rw [heq]; rfl)
      obtain ⟨tail', htail⟩ := List.head?_eq_some_iff.1 hhead
      exact absurd htail (hne tail')
    next => rfl

/-- Whether a number goes on with a character, by the one after it. -/
def continuesNumber (c : Char) (rest : List Char) : Bool :=
  if c = '.' then rest.head?.any Char.isDigit
  else c.isAlphanum || c == '_'

theorem takeNumber_cons (c : Char) (rest : List Char) :
    takeNumber (c :: rest)
      = if continuesNumber c rest then Cut.after [c] (takeNumber rest)
        else ([], c :: rest) := by
  unfold continuesNumber
  cases rest with
  | nil =>
    by_cases hc : c = '.'
    · subst hc
      rfl
    · rw [takeNumber, if_neg hc]
      exact fun d rest h => absurd h hc
  | cons d rest =>
    by_cases hc : c = '.'
    · subst hc
      rfl
    · rw [takeNumber, if_neg hc]
      exact fun d rest h => absurd h hc

theorem continuesNumber_eq_false {y : Char} (h : isFirm y)
    (rest : List Char) : continuesNumber y rest = false := by
  have hname := not_continuesName_of_isFirm h
  unfold continuesNumber
  rw [if_neg (ne_of_isFirm h).2.2, Bool.or_eq_false_iff]
  constructor
  · by_contra hc
    rw [Text.continuesName_of_isAlphanum (by simpa using hc)] at hname
    cases hname
  · simp only [Text.continuesName, Bool.or_eq_false_iff] at hname
    exact hname.1.1

theorem continuesNumber_of_isDigit {d : Char} (h : d.isDigit)
    (rest : List Char) : continuesNumber d rest := by
  unfold continuesNumber
  split
  next hd =>
    rw [hd] at h
    cases h
  next => simp [Char.isAlphanum, h]

/-- No number goes on because of a change of the text behind. -/
theorem continuesNumber_sameAhead {c : Char} {front : List Char}
    (hs : SameAhead back back')
    (h : continuesNumber c (front ++ back') = true) :
    continuesNumber c (front ++ back) = true := by
  unfold continuesNumber at h ⊢
  split at h
  next hc =>
    obtain ⟨y, hy, hd⟩ := (Option.any_eq_true ..).1 h
    rw [if_pos hc, hs.head?_append front hy]
    exact hd
  next hc =>
    rw [if_neg hc]
    exact h

/-- A number that goes on in front of a text in which it does not end
goes on whatever that text is. -/
theorem continuesNumber_of_takeNumber {c : Char}
    {front piece rest : List Char}
    (h : takeNumber (front ++ back) = (piece, rest ++ back))
    (hgoes : continuesNumber c (front ++ back)) (back' : List Char) :
    continuesNumber c (front ++ back') := by
  unfold continuesNumber at hgoes ⊢
  split at hgoes
  next hc =>
    rw [if_pos hc]
    obtain ⟨d, hd, hdigit⟩ := (Option.any_eq_true ..).1 hgoes
    cases front with
    | nil =>
      obtain ⟨rfl, rfl⟩ := eq_nil_of_cut append_takeNumber h
      obtain ⟨tail, rfl⟩ := List.head?_eq_some_iff.1 hd
      rw [List.nil_append, takeNumber_cons,
        if_pos (continuesNumber_of_isDigit hdigit tail)] at h
      cases (after_eq_iff.1 h).choose_spec.1
    | cons b front =>
      exact (Option.any_eq_true ..).2 ⟨d, hd, hdigit⟩
  next hc =>
    rw [if_neg hc]
    exact hgoes

theorem takeNumber_stops {y : Char} (hy : isFirm y)
    (front back : List Char) :
    ∃ piece rest, takeNumber (front ++ y :: back)
      = (piece, rest ++ y :: back) := by
  induction front with
  | nil =>
    refine ⟨[], [], ?_⟩
    rw [List.nil_append, takeNumber_cons, continuesNumber_eq_false hy,
      if_neg (by decide)]
  | cons c front ih =>
    rw [List.cons_append, takeNumber_cons]
    split
    · obtain ⟨piece, rest, h⟩ := ih
      exact ⟨c :: piece, rest, by rw [h]; rfl⟩
    · exact ⟨[], c :: front, rfl⟩

theorem takeNumber_looksLittle : LooksLittle takeNumber := by
  intro back back' front piece rest hs h
  induction front generalizing piece with
  | nil =>
    obtain ⟨rfl, rfl⟩ := eq_nil_of_cut append_takeNumber h
    cases hs with
    | cut => rfl
    | firm hf b b' =>
      rw [List.nil_append, takeNumber_cons,
        continuesNumber_eq_false hf, if_neg (by decide)]
  | cons c front ih =>
    rw [List.cons_append, takeNumber_cons] at h ⊢
    split at h
    next hgoes =>
      obtain ⟨p, rfl, hp⟩ := after_eq_iff.1 h
      rw [if_pos (continuesNumber_of_takeNumber hp hgoes back')]
      exact after_eq_iff.2 ⟨p, rfl, ih hp⟩
    next hgoes =>
      rw [if_neg fun hg => hgoes (continuesNumber_sameAhead hs hg)]
      obtain ⟨rfl, hrest⟩ := Prod.mk.inj h
      rw [← List.cons_append] at hrest
      rw [← List.append_cancel_right hrest]
      rfl

end Lexeme
end SwiftStyle
