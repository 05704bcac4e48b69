import SwiftStyle.Proofs.Token.StringLookahead

/-!
# How far a lexeme looks ahead

A lexeme is taken in two steps: its first character and the text behind
decide what begins there (`openingOf`), and the scanner for this takes
the rest of it (`Opening.take`). Neither step looks farther than a firm
character.

`takeLexeme_sameAhead` says this of a lexeme that ends in front of the
text that changes, and `kind_takeLexeme_firm` of the kind of one that
does not.

What begins is decided by one character more in most cases and by any number
of them for a string, where number signs may stand before the quotation mark.
In front of a firm character all of them are seen, since neither a number sign
nor a quotation mark is firm. The cases are named (`Opening`), so that the
proofs split on what begins and not on the branches of the program.
-/

namespace SwiftStyle.Lexeme

variable {back back' : List Char}

/-- **What begins at a character**, by the text behind it. -/
inductive Opening where
  /-- A comment to the end of the line. -/
  | lineComment
  /-- A block comment. -/
  | blockComment
  /-- A string. -/
  | string
  /-- A name between backquotes. -/
  | quotedName
  /-- An attribute. -/
  | atName
  /-- A number. -/
  | number
  /-- A name or a reserved word. -/
  | name
  /-- No token. -/
  | other

/-- What a lexeme begins as. -/
def openingOf (c : Char) (rest : List Char) : Opening :=
  if c = '/' && rest.head? = some '/' then .lineComment
  else if c = '/' && rest.head? = some '*' then .blockComment
  else if startsString (c :: rest) then .string
  else if c = '\x60' then .quotedName
  else if c = '@' && rest.head?.any Text.startsName then .atName
  else if c.isDigit then .number
  else if Text.startsName c then .name
  else .other

/-- The lexeme of an opening, and the text after it. -/
def Opening.take (c : Char) (rest : List Char) :
    Opening → Lexeme × List Char
  | .lineComment =>
    let (body, after) := takeRun (· != '\n') rest
    (⟨some .comment, c :: body⟩, after)
  | .blockComment =>
    let (body, after) := takeBlock 0 rest.tail
    (⟨some .comment, c :: '*' :: body⟩, after)
  | .string =>
    let d := delimiter (c :: rest)
    let (body, after) :=
      takeString d ((c :: rest).drop d.opening.length)
    (⟨some .string, d.opening ++ body⟩, after)
  | .quotedName =>
    let (body, after) := takeQuotedName rest
    (⟨some .identifier, c :: body⟩, after)
  | .atName =>
    let (body, after) := takeRun Text.continuesName rest
    (⟨some .attribute, c :: body⟩, after)
  | .number =>
    let (body, after) := takeNumber rest
    (⟨some .number, c :: body⟩, after)
  | .name =>
    let (body, after) := takeRun Text.continuesName rest
    let kind :=
      if Token.isReserved (c :: body) then .keyword else .identifier
    (⟨some kind, c :: body⟩, after)
  | .other => (⟨none, [c]⟩, rest)

/-- A lexeme is taken as what it begins as. -/
theorem takeLexeme_eq (c : Char) (rest : List Char) :
    takeLexeme c rest = (openingOf c rest).take c rest := by
  unfold takeLexeme openingOf
  split
  · rfl
  split
  · rfl
  split
  · rfl
  split
  · rfl
  split
  · rfl
  split
  · rfl
  split
  · rfl
  · rfl

/-- What a lexeme begins as is decided by the next character and by
whether a string starts. -/
theorem openingOf_congr {c : Char} {rest rest' : List Char}
    (hhead : rest.head? = rest'.head?)
    (hstring : startsString (c :: rest) = startsString (c :: rest')) :
    openingOf c rest = openingOf c rest' := by
  unfold openingOf
  rw [hhead, hstring]

/-- What begins in front of a firm character does not depend on what is
behind it. -/
theorem openingOf_firm {y : Char} (hy : isFirm y) (c : Char)
    (front : List Char) (back back' : List Char) :
    openingOf c (front ++ y :: back) = openingOf c (front ++ y :: back') := by
  refine openingOf_congr ?_ ?_
  · cases front with
    | nil => rfl
    | cons d front => rfl
  · rw [Bool.eq_iff_iff, ← List.cons_append, ← List.cons_append]
    exact ⟨startsString_sameAhead (.firm hy back' back),
      startsString_sameAhead (.firm hy back back')⟩

/-- **A lexeme that crosses a firm character is of the same kind**,
whatever is behind that character. -/
theorem kind_takeLexeme_firm {y : Char} (hy : isFirm y) (c : Char)
    (front : List Char) (back back' : List Char) :
    (takeLexeme c (front ++ y :: back)).1.kind
      = (takeLexeme c (front ++ y :: back')).1.kind := by
  rw [takeLexeme_eq, takeLexeme_eq, openingOf_firm hy c front back back']
  cases openingOf c (front ++ y :: back') with
  | name =>
    have hrun : ∀ back, (takeRun Text.continuesName (front ++ y :: back)).1
        = front.takeWhile Text.continuesName := by
      intro back
      have hname := not_continuesName_of_isFirm hy
      unfold takeRun
      dsimp only
      induction front with
      | nil =>
        rw [List.nil_append, List.takeWhile_cons_of_neg (by simp [hname]),
          List.takeWhile_nil]
      | cons d front ih =>
        rw [List.cons_append, List.takeWhile_cons, List.takeWhile_cons, ih]
    unfold Opening.take
    dsimp only
    rw [hrun back, hrun back']
  | _ => rfl

/-- **What an opening says** of the text it was decided on. -/
def Opening.Fits (c : Char) (rest : List Char) : Opening → Prop
  | .lineComment => rest.head? = some '/'
  | .blockComment => rest.head? = some '*'
  | .string => startsString (c :: rest)
  | .quotedName => c = '\x60'
  | .atName => rest.head?.any Text.startsName
  | .number => c.isDigit
  | .name => Text.startsName c
  | .other => True

theorem fits_openingOf (c : Char) (rest : List Char) :
    (openingOf c rest).Fits c rest := by
  unfold openingOf
  split
  next h => exact (by simpa using h : c = '/' ∧ rest.head? = some '/').2
  split
  next h => exact (by simpa using h : c = '/' ∧ rest.head? = some '*').2
  split
  next h => exact h
  split
  next h => exact h
  split
  next h => exact ((Bool.and_eq_true ..).mp h).2
  split
  next h => exact h
  split
  next h => exact h
  next => trivial

theorem exists_text_append {c : Char} {front rest : List Char}
    {lexeme : Lexeme}
    (h : takeLexeme c (front ++ back) = (lexeme, rest ++ back)) :
    c :: front = lexeme.text ++ rest := by
  have htext := text_takeLexeme_append c (front ++ back)
  rw [h, ← List.append_assoc, ← List.cons_append] at htext
  exact (List.append_cancel_right htext).symm

/-- A string that ends in front of a text has opened in front of it. -/
theorem exists_opening_append {c : Char} {front rest : List Char}
    {lexeme : Lexeme} (ho : openingOf c (front ++ back) = .string)
    (h : takeLexeme c (front ++ back) = (lexeme, rest ++ back)) :
    ∃ more, c :: front
      = (delimiter (c :: front ++ back)).opening ++ more := by
  have htext := exists_text_append h
  rw [takeLexeme_eq, ho] at h
  obtain ⟨rfl, -⟩ := Prod.mk.inj h
  rw [List.append_assoc] at htext
  exact ⟨_, htext⟩

theorem openingOf_of_single {c : Char} {lexeme : Lexeme}
    {rest : List Char} (h : takeLexeme c back = (lexeme, rest ++ back)) :
    openingOf c back ≠ .lineComment ∧ openingOf c back ≠ .blockComment ∧
      openingOf c back ≠ .atName := by
  have htext : [c] = lexeme.text ++ rest := exists_text_append h
  have hfits := fits_openingOf c back
  rw [takeLexeme_eq] at h
  refine ⟨fun ho => ?_, fun ho => ?_, fun ho => ?_⟩
  · rw [ho] at h hfits
    obtain ⟨tail, rfl⟩ := List.head?_eq_some_iff.1 hfits
    obtain ⟨-, hrest⟩ := Prod.mk.inj h
    exact takeRun_snd_ne (y := '/') (p := (· != '\n')) (by decide) rest
      hrest
  · rw [ho] at h
    obtain ⟨rfl, -⟩ := Prod.mk.inj h
    cases htext
  · rw [ho] at h hfits
    obtain ⟨y, hy, hstarts⟩ := (Option.any_eq_true ..).1 hfits
    obtain ⟨tail, rfl⟩ := List.head?_eq_some_iff.1 hy
    obtain ⟨-, hrest⟩ := Prod.mk.inj h
    exact takeRun_snd_ne (Text.continuesName_of_startsName hstarts) rest
      hrest

theorem openingOf_of_startsString {c : Char} {rest : List Char}
    (h : startsString (c :: rest)) : openingOf c rest = .string := by
  have hc : c ≠ '/' := by
    rintro rfl
    rw [startsString_cons] at h
    cases h
  unfold openingOf
  rw [if_neg (by simp [hc]), if_neg (by simp [hc]), if_pos h]

/-- Whether a string starts is not changed either. -/
theorem startsString_eq {c : Char} {front rest : List Char}
    {lexeme : Lexeme} (hs : SameAhead back back')
    (h : takeLexeme c (front ++ back) = (lexeme, rest ++ back)) :
    startsString (c :: front ++ back') = startsString (c :: front ++ back) := by
  rw [Bool.eq_iff_iff]
  refine ⟨startsString_sameAhead hs, fun hstarts => ?_⟩
  have ho : openingOf c (front ++ back) = .string :=
    openingOf_of_startsString hstarts
  obtain ⟨more, hmore⟩ := exists_opening_append ho h
  exact (delimiter_sameAhead hs hmore).1

/-- What a lexeme begins as does not depend on the text behind it. -/
theorem openingOf_sameAhead {c : Char} {front rest : List Char}
    {lexeme : Lexeme} (hs : SameAhead back back')
    (h : takeLexeme c (front ++ back) = (lexeme, rest ++ back)) :
    openingOf c (front ++ back') = openingOf c (front ++ back) := by
  have hstring := startsString_eq hs h
  cases hs with
  | firm hy b b' => exact openingOf_firm hy c front b' b
  | cut back =>
    cases front with
    | cons d front => exact openingOf_congr rfl hstring
    | nil =>
      -- one character is all of the lexeme: it opened none that needs two
      rw [List.nil_append] at h
      obtain ⟨hline, hblock, hat⟩ := openingOf_of_single h
      show openingOf c [] = openingOf c back
      unfold openingOf at hline hblock hat ⊢
      rw [show startsString [c] = startsString (c :: back) from hstring]
      by_cases h1 : c = '/' && back.head? = some '/'
      · exact absurd (if_pos h1) hline
      rw [if_neg h1] at hblock hat ⊢
      by_cases h2 : c = '/' && back.head? = some '*'
      · exact absurd (if_pos h2) hblock
      rw [if_neg h2] at hat ⊢
      rw [if_neg (by simp), if_neg (by simp)]
      by_cases h3 : startsString (c :: back)
      · rw [if_pos h3, if_pos h3]
      rw [if_neg h3] at hat ⊢
      rw [if_neg h3]
      by_cases h4 : c = '\x60'
      · rw [if_pos h4, if_pos h4]
      rw [if_neg h4] at hat ⊢
      rw [if_neg h4]
      by_cases h5 : c = '@' && back.head?.any Text.startsName
      · exact absurd (if_pos h5) hat
      rw [if_neg h5, if_neg (by simp)]

/-- **A lexeme does not depend on the text behind it**, but for a firm
character in front of which it ends. -/
theorem takeLexeme_sameAhead {c : Char} {front rest : List Char}
    {lexeme : Lexeme} (hs : SameAhead back back')
    (h : takeLexeme c (front ++ back) = (lexeme, rest ++ back)) :
    takeLexeme c (front ++ back') = (lexeme, rest ++ back') := by
  have hopening := openingOf_sameAhead hs h
  have htext := exists_text_append h
  have hstring := exists_opening_append (h := h)
  rw [takeLexeme_eq] at h ⊢
  rw [hopening]
  -- both texts open the same lexeme, and its scanner looks little ahead
  cases ho : openingOf c (front ++ back) with
  | lineComment =>
    rw [ho] at h
    obtain ⟨rfl, hrest⟩ := Prod.mk.inj h
    unfold Opening.take
    rw [LooksLittle.eq (takeRun_looksLittle _) hs hrest]
    rfl
  | blockComment =>
    rw [ho] at h
    obtain ⟨rfl, hrest⟩ := Prod.mk.inj h
    cases front with
    | nil => cases htext
    | cons d front =>
      unfold Opening.take
      dsimp only [List.cons_append, List.tail_cons] at hrest ⊢
      rw [LooksLittle.eq (takeBlock_looksLittle 0) hs hrest]
  | string =>
    rw [ho] at h
    obtain ⟨more, hmore⟩ := hstring ho
    obtain ⟨-, hd⟩ := delimiter_sameAhead hs hmore
    unfold Opening.take at h ⊢
    dsimp only at h ⊢
    rw [← List.cons_append] at h ⊢
    rw [hd]
    generalize delimiter (c :: front ++ back) = d at hmore h ⊢
    rw [hmore, List.append_assoc, List.drop_left] at h ⊢
    obtain ⟨rfl, hrest⟩ := Prod.mk.inj h
    rw [LooksLittle.eq (takeString_looksLittle d) hs hrest]
  | quotedName =>
    rw [ho] at h
    obtain ⟨rfl, hrest⟩ := Prod.mk.inj h
    unfold Opening.take
    rw [LooksLittle.eq takeQuotedName_looksLittle hs hrest]
    rfl
  | atName =>
    rw [ho] at h
    obtain ⟨rfl, hrest⟩ := Prod.mk.inj h
    unfold Opening.take
    rw [LooksLittle.eq (takeRun_looksLittle _) hs hrest]
    rfl
  | number =>
    rw [ho] at h
    obtain ⟨rfl, hrest⟩ := Prod.mk.inj h
    unfold Opening.take
    rw [LooksLittle.eq takeNumber_looksLittle hs hrest]
  | name =>
    rw [ho] at h
    obtain ⟨rfl, hrest⟩ := Prod.mk.inj h
    unfold Opening.take
    rw [LooksLittle.eq (takeRun_looksLittle _) hs hrest]
    rfl
  | other =>
    rw [ho] at h
    obtain ⟨rfl, hrest⟩ := Prod.mk.inj h
    rw [List.append_cancel_right hrest]
    rfl

end SwiftStyle.Lexeme
