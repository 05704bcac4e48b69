import SwiftStyle.Proofs.Text.Classes
import SwiftStyle.Proofs.Token.Border

/-!
# Text that opens nothing

A character is **plain** if no string, comment, attribute or name between
backquotes begins with it and no number goes on with it but as a letter
or digit: text of plain characters is made of names, numbers and single
characters. It is **inert** if it is moreover not part of a name, so that
it is a lexeme of its own.

Plain text that ends with an inert character is transparent: behind a
border, what crosses a place behind such a text is what crosses it
without the text (`crossing_plain`), and no string or comment is in it
(`literals_plain`). Inside a name between backquotes all text without a
backquote and a line feed is transparent (`crossing_quoted`).

These are the texts that the rules replace and write, in front of which
nothing may change. The last lemma, `crossing_cases`, is for the text before
them: where a piece begins with a firm character, and is not at a border, it
is in a string, a comment or a name between backquotes, and in no other token.
-/

namespace SwiftStyle

open Lexeme

/-- **Whether a character opens nothing** but a name or a number. -/
def isPlain (c : Char) : Bool :=
  c != '#' && c != '"' && c != '/' && c != '\x60' && c != '@' && c != '.'

/-- **Whether a character is a lexeme of its own** wherever it does not
belong to one that has opened before it. -/
def isInert (c : Char) : Bool :=
  isPlain c && !Text.continuesName c

/-- Whether a lexeme is a string or a comment. -/
def Lexeme.isLiteral (lexeme : Lexeme) : Bool :=
  lexeme.kind.any Token.Kind.isLiteralText

variable {c : Char} {front back rest : List Char}

theorem isPlain_of_isInert (h : isInert c) : isPlain c :=
  ((Bool.and_eq_true ..).mp h).1

theorem isPlain_of_class {p : Char → Bool} (h : p c)
    (hp : ∀ d ∈ ['#', '"', '/', '\x60', '@', '.'], p d = false) :
    isPlain c := by
  have hne : ∀ d ∈ ['#', '"', '/', '\x60', '@', '.'], c ≠ d := by
    rintro d hd rfl
    rw [hp c hd] at h
    cases h
  simp only [isPlain, Bool.and_eq_true, bne_iff_ne]
  exact ⟨⟨⟨⟨⟨hne _ (by simp), hne _ (by simp)⟩, hne _ (by simp)⟩,
    hne _ (by simp)⟩, hne _ (by simp)⟩, hne _ (by simp)⟩

theorem isPlain_of_isWord (h : Text.isWord c) : isPlain c :=
  isPlain_of_class h (by decide)

theorem isInert_of_isBlank (h : Text.isBlank c) : isInert c := by
  unfold isInert
  rw [isPlain_of_class h (by decide), Text.continuesName_of_isBlank h]
  rfl

theorem isFirm_of_isInert (h : isInert c) : isFirm c := by
  simp only [isInert, isPlain, isFirm, Bool.and_eq_true] at h ⊢
  exact ⟨⟨⟨h.2, h.1.1.1.1.1.1⟩, h.1.1.1.1.1.2⟩, h.1.2⟩

theorem not_startsString_of_isPlain (h : isPlain c) (rest : List Char) :
    startsString (c :: rest) = false := by
  simp only [isPlain, Bool.and_eq_true, bne_iff_ne] at h
  rw [startsString_cons, if_neg h.1.1.1.1.1, beq_eq_false_iff_ne]
  exact h.1.1.1.1.2

theorem openingOf_plain (h : isPlain c) (rest : List Char) :
    openingOf c rest
      = if c.isDigit then .number
        else if Text.startsName c then .name else .other := by
  have hs := not_startsString_of_isPlain h rest
  simp only [isPlain, Bool.and_eq_true, bne_iff_ne] at h
  unfold openingOf
  rw [if_neg (by simp [h]), if_neg (by simp [h]), if_neg (by simp [hs]),
    if_neg h.1.1.2, if_neg (by simp [h])]

/-- An inert character is a lexeme without a kind. -/
theorem takeLexeme_inert (h : isInert c) (rest : List Char) :
    takeLexeme c rest = (⟨none, [c]⟩, rest) := by
  have hname : Text.continuesName c = false := by
    simpa using ((Bool.and_eq_true ..).mp h).2
  rw [takeLexeme_eq, openingOf_plain (isPlain_of_isInert h), if_neg, if_neg]
  · rfl
  · intro hs
    rw [Text.continuesName_of_startsName hs] at hname
    cases hname
  · intro hd
    rw [Text.continuesName_of_isAlphanum (by simp [Char.isAlphanum, hd])]
      at hname
    cases hname

/-- **Inert text is transparent.** -/
theorem crossing_inert (h : ∀ c ∈ front, isInert c) (more back : List Char) :
    crossing (front ++ more) back = crossing more back := by
  induction front with
  | nil => rfl
  | cons c front ih =>
    obtain ⟨hc, hfront⟩ := List.forall_mem_cons.1 h
    rw [List.cons_append, crossing_over (takeLexeme_inert hc _), ih hfront]

theorem takeLexeme_name (hc : isPlain c) (hd : c.isDigit = false)
    (hs : Text.startsName c) (rest : List Char) :
    let run := takeRun Text.continuesName rest
    takeLexeme c rest = (⟨some (if Token.isReserved (c :: run.1) then .keyword
      else .identifier), c :: run.1⟩, run.2) := by
  rw [takeLexeme_eq, openingOf_plain hc, if_neg (by simp [hd]), if_pos hs]
  rfl

/-- No string and no comment begins with a plain character. -/
theorem not_isLiteral_takeLexeme (hc : isPlain c) (rest : List Char) :
    (takeLexeme c rest).1.isLiteral = false := by
  rw [takeLexeme_eq, openingOf_plain hc]
  split
  · rfl
  split
  · unfold Opening.take Lexeme.isLiteral
    dsimp only
    split <;> rfl
  · rfl

/-- A lexeme that begins with a plain character ends in front of an inert
one, and is neither a string nor a comment. -/
theorem takeLexeme_plain {z : Char} (hc : isPlain c) (hz : isInert z)
    (front back : List Char) :
    ∃ lexeme rest, takeLexeme c (front ++ z :: back)
        = (lexeme, rest ++ z :: back) ∧ lexeme.isLiteral = false := by
  have hname := not_continuesName_of_isFirm (isFirm_of_isInert hz)
  have hliteral := not_isLiteral_takeLexeme hc (front ++ z :: back)
  suffices h : ∃ lexeme rest, takeLexeme c (front ++ z :: back)
      = (lexeme, rest ++ z :: back) by
    obtain ⟨lexeme, rest, h⟩ := h
    rw [h] at hliteral
    exact ⟨lexeme, rest, h, hliteral⟩
  rw [takeLexeme_eq, openingOf_plain hc]
  split
  · obtain ⟨piece, rest, h⟩ :=
      takeNumber_stops (isFirm_of_isInert hz) front back
    exact ⟨_, rest, by unfold Opening.take; rw [h]⟩
  split
  · obtain ⟨piece, rest, h⟩ := takeRun_stops hname front back
    exact ⟨_, rest, by unfold Opening.take; rw [h]⟩
  · exact ⟨⟨none, [c]⟩, front, rfl⟩

/-- **Induction on plain text by its lexemes**, in front of an inert
character and whatever is behind it. -/
theorem plain_induction {z : Char} (hz : isInert z)
    {motive : List Char → Prop} (nil : motive [])
    (cons : ∀ c front lexeme rest,
      (∀ back, takeLexeme c (front ++ z :: back)
        = (lexeme, rest ++ z :: back)) →
      lexeme.isLiteral = false → motive rest → motive (c :: front))
    {front : List Char} (h : ∀ c ∈ front, isPlain c) : motive front := by
  induction hn : front.length using Nat.strongRecOn generalizing front with
  | ind n ih =>
    subst hn
    cases front with
    | nil => exact nil
    | cons c front =>
      obtain ⟨lexeme, rest, htake, hkind⟩ :=
        takeLexeme_plain (h c List.mem_cons_self) hz front []
      have htext := exists_text_append htake
      have hne := text_takeLexeme_ne_nil c (front ++ [z])
      rw [htake] at hne
      dsimp only at hne
      -- the lexeme was taken in front of nothing, and is the same elsewhere
      refine cons c front lexeme rest (fun back => ?_) hkind (ih _ ?_ ?_ rfl)
      · exact takeLexeme_sameAhead (.firm (isFirm_of_isInert hz) _ back) htake
      · rw [htext, List.length_append]
        have := List.length_pos_iff.2 hne
        omega
      · intro a ha
        exact h a (htext ▸ List.mem_append_right _ ha)

/-- **Plain text that ends with an inert character is transparent.** -/
theorem crossing_plain {z : Char} (h : ∀ c ∈ front, isPlain c)
    (hz : isInert z) (more back : List Char) :
    crossing (front ++ z :: more) back = crossing more back := by
  refine plain_induction (motive := fun front =>
    crossing (front ++ z :: more) back = crossing more back) hz ?_ ?_ h
  · exact crossing_over (takeLexeme_inert hz (more ++ back))
  · intro c front lexeme rest htake _ ih
    have hover : takeLexeme c (front ++ z :: more ++ back)
        = (lexeme, rest ++ z :: more ++ back) := by
      rw [List.append_assoc, List.append_assoc]
      exact htake (more ++ back)
    rw [List.cons_append, crossing_over hover, ih]

theorem isLiteral_plain {z : Char} (h : ∀ c ∈ front, isPlain c)
    (hz : isInert z) :
    ∀ lexeme ∈ lexemes (front ++ [z]), lexeme.isLiteral = false := by
  refine plain_induction (motive := fun front =>
    ∀ lexeme ∈ lexemes (front ++ [z]), lexeme.isLiteral = false) hz ?_ ?_ h
  · intro lexeme hl
    rw [List.nil_append, lexemes_cons, takeLexeme_inert hz, lexemes,
      List.mem_singleton] at hl
    rw [hl]
    rfl
  · intro c front lexeme rest htake hkind ih
    rw [List.cons_append, lexemes_cons, htake]
    exact List.forall_mem_cons.2 ⟨hkind, ih⟩

/-- **No string and no comment begins in plain text**: if none crosses
the front of it, none crosses a place in it. -/
theorem crossing_code {middle : List Char} (hm : ∀ c ∈ middle, isPlain c)
    (h : (crossing front (middle ++ back)).any Token.Kind.isLiteralText
      = false) :
    (crossing (front ++ middle) back).any Token.Kind.isLiteralText
      = false := by
  cases hcross : crossing (front ++ middle) back with
  | none => rfl
  | some kind =>
    obtain ⟨before, c, after, heq, hnone, hkind, hlt⟩ :=
      exists_of_crossing hcross
    have hplain : isPlain c → Option.any Token.Kind.isLiteralText
        (some kind) = false := fun hc =>
      hkind ▸ not_isLiteral_takeLexeme hc (after ++ back)
    rcases List.append_eq_append_iff.1 heq with ⟨m, -, rfl⟩ | ⟨m, rfl, hafter⟩
    · exact hplain (hm c (by simp))
    cases m with
    | nil =>
      obtain rfl : c :: after = middle := hafter
      exact hplain (hm c List.mem_cons_self)
    | cons d m =>
      obtain ⟨rfl, rfl⟩ := List.cons.inj hafter
      rw [List.append_eq, List.append_assoc] at hnone hkind hlt
      rw [crossing_from hnone, hkind] at h
      · exact h
      · rw [List.length_append]
        omega

/-! ## Names between backquotes

A name between backquotes is the one token that is neither a literal nor made
of characters of one class. It ends with the next backquote or in front of the
next line feed, whichever comes first. -/

/-- Whether a character may stand inside a name between backquotes. -/
def isQuotable (c : Char) : Bool :=
  c != '\x60' && c != '\n'

theorem isQuotable_of_isPlain (h : isPlain c) (hc : c ≠ '\n') :
    isQuotable c := by
  simp only [isPlain, Bool.and_eq_true] at h
  exact (Bool.and_eq_true ..).mpr ⟨h.1.1.2, bne_iff_ne.2 hc⟩

theorem takeLexeme_backquote (rest : List Char) :
    takeLexeme '\x60' rest
      = (⟨some .identifier, '\x60' :: (takeQuotedName rest).1⟩,
          (takeQuotedName rest).2) := by
  unfold takeLexeme
  rfl

theorem takeQuotedName_eq (text : List Char) :
    takeQuotedName text
      = if (takeRun isQuotable text).2.head? = some '\x60' then
          ((takeRun isQuotable text).1 ++ ['\x60'],
            (takeRun isQuotable text).2.tail)
        else takeRun isQuotable text := by
  have hrun : takeRun (fun c => c != '\x60' && c != '\n') text
      = takeRun isQuotable text := rfl
  unfold takeQuotedName
  rw [hrun]
  generalize takeRun isQuotable text = run
  obtain ⟨name, rest⟩ := run
  dsimp only
  split
  next after => rfl
  next hne =>
    rw [if_neg]
    intro hhead
    obtain ⟨after, ha⟩ := List.head?_eq_some_iff.1 hhead
    exact hne after ha

theorem takeQuotedName_append {name : List Char}
    (h : ∀ c ∈ name, isQuotable c) (back : List Char) :
    takeQuotedName (name ++ back) = (takeQuotedName back).after name := by
  rw [takeQuotedName_eq, takeQuotedName_eq, takeRun_append h]
  unfold Cut.after
  dsimp only
  split
  · rw [List.append_assoc]
  · rfl

/-- **Inside a name between backquotes text is transparent.** -/
theorem crossing_quoted {name : List Char} (h : ∀ c ∈ name, isQuotable c)
    (front back : List Char) :
    crossing ('\x60' :: (name ++ front)) back
      = crossing ('\x60' :: front) back := by
  have htake := takeLexeme_backquote (front ++ back)
  have htake' := takeLexeme_backquote (name ++ front ++ back)
  rw [List.append_assoc, takeQuotedName_append h] at htake'
  rw [← List.append_assoc] at htake'
  have happ := append_takeQuotedName (front ++ back)
  by_cases hlt : (takeQuotedName (front ++ back)).2.length < back.length
  · rw [crossing_inside (by rw [htake']; exact hlt),
      crossing_inside (by rw [htake]; exact hlt), htake, htake']
  · obtain ⟨rest, -, hrest⟩ :=
      exists_append_of_length_le happ (by omega)
    unfold Cut.after at htake'
    dsimp only at htake'
    rw [hrest] at htake htake'
    rw [crossing_over htake, crossing_over htake']

theorem takeQuotedName_ends {y : Char} (hy : isQuotable y = false)
    (back : List Char) :
    takeQuotedName (y :: back)
      = if y = '\x60' then (['\x60'], back) else ([], y :: back) := by
  have hrun : takeRun isQuotable (y :: back) = ([], y :: back) := by
    rw [takeRun_cons, if_neg (by simp [hy])]
  rw [takeQuotedName_eq, hrun]
  simp

/-- A name between backquotes that has no partner ends before a line
feed. -/
theorem takeLexeme_unclosed {name : List Char}
    (h : ∀ c ∈ name, isQuotable c) (back : List Char) :
    takeLexeme '\x60' (name ++ '\n' :: back)
      = (⟨some .identifier, '\x60' :: name⟩, '\n' :: back) := by
  rw [takeLexeme_backquote, takeQuotedName_append h,
    takeQuotedName_ends (by decide), if_neg (by decide)]
  unfold Cut.after
  rw [List.append_nil]

theorem crossing_unclosed {name : List Char}
    (h : ∀ c ∈ name, isQuotable c) (back : List Char) :
    crossing ('\x60' :: name) ('\n' :: back) = none := by
  have htake : takeLexeme '\x60' (name ++ '\n' :: back)
      = (⟨some .identifier, '\x60' :: name⟩, [] ++ '\n' :: back) :=
    takeLexeme_unclosed h back
  rw [crossing_over htake, crossing_nil]

/-- A name between backquotes that crosses a place has not ended in front
of it. -/
theorem isQuotable_of_lt {y : Char}
    (h : (takeQuotedName (front ++ y :: back)).2.length
      < (y :: back).length) :
    (∀ c ∈ front, isQuotable c) ∧ y ≠ '\n' := by
  induction front with
  | nil =>
    refine ⟨by simp, ?_⟩
    rintro rfl
    rw [List.nil_append, takeQuotedName_ends (by decide),
      if_neg (by decide)] at h
    exact Nat.lt_irrefl _ h
  | cons c front ih =>
    rw [List.cons_append] at h
    cases hc : isQuotable c with
    | true =>
      rw [← List.singleton_append,
        takeQuotedName_append (List.forall_mem_singleton.2 hc)] at h
      obtain ⟨hfront, hy⟩ := ih h
      exact ⟨List.forall_mem_cons.2 ⟨hc, hfront⟩, hy⟩
    | false =>
      rw [takeQuotedName_ends hc] at h
      split at h
      · rw [List.length_append] at h
        omega
      · rw [List.length_cons, List.length_append] at h
        omega

/-- **What may cross a firm character**: a string, a comment or a name
between backquotes, which then began on the same line. -/
theorem crossing_cases {y : Char} (hy : isFirm y) {kind : Token.Kind}
    (h : crossing front (y :: back) = some kind) :
    kind.isLiteralText ∨ kind = .identifier ∧ ∃ front' name,
      front = front' ++ '\x60' :: name ∧ (∀ c ∈ name, isQuotable c) ∧
        y ≠ '\n' ∧ crossing front' ('\x60' :: (name ++ y :: back)) = none := by
  obtain ⟨before, c, after, rfl, hnone, hkind, hlt⟩ := exists_of_crossing h
  have hfits := fits_openingOf c (after ++ y :: back)
  have hname := not_continuesName_of_isFirm hy
  rw [takeLexeme_eq] at hkind hlt
  cases ho : openingOf c (after ++ y :: back) with
  | lineComment =>
    rw [ho] at hkind
    cases hkind
    exact .inl rfl
  | blockComment =>
    rw [ho] at hkind
    cases hkind
    exact .inl rfl
  | string =>
    rw [ho] at hkind
    cases hkind
    exact .inl rfl
  | quotedName =>
    rw [ho] at hkind hlt hfits
    cases hkind
    obtain rfl : c = '\x60' := hfits
    obtain ⟨hq, hne⟩ := isQuotable_of_lt hlt
    exact .inr ⟨rfl, before, after, rfl, hq, hne, hnone⟩
  | atName =>
    -- from here on: names, numbers and marks end before a firm character
    obtain ⟨piece, rest, hrun⟩ := takeRun_stops hname after back
    rw [ho] at hlt
    unfold Opening.take at hlt
    rw [hrun, List.length_append] at hlt
    omega
  | number =>
    obtain ⟨piece, rest, hrun⟩ := takeNumber_stops hy after back
    rw [ho] at hlt
    unfold Opening.take at hlt
    rw [hrun, List.length_append] at hlt
    omega
  | name =>
    obtain ⟨piece, rest, hrun⟩ := takeRun_stops hname after back
    rw [ho] at hlt
    unfold Opening.take at hlt
    rw [hrun, List.length_append] at hlt
    omega
  | other =>
    rw [ho] at hlt
    unfold Opening.take at hlt
    rw [List.length_append] at hlt
    omega

end SwiftStyle
