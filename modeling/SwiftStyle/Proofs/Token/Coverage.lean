import SwiftStyle.Proofs.Token.Tokens

/-!
# What no token covers

Characters may lie in no token: blanks, brackets, operators. None of them is
a character at which something begins that has a kind (`Idle`), because
between two tokens every character is looked at on its own, and no scanner
takes along what does not belong to its token without giving it a place in
one.

The other side is that names are taken whole. A keyword spells a reserved
word, and a name without backquotes spells none and goes on as long as it
can, so that no part of a longer name is mistaken for a word of its own
(`loses_no_code`).

A place that no token covers is not crossed, and the lexeme that begins there
has no kind, for otherwise it would be a token. So it opened as nothing, and
each way to open is refused by the character and the text behind it. This is
read off the opening, and what the scanners do does not matter. For the names
it is the other way round: what a name opens with is clear, and that it ends
where no character continues it is what its scanner does.
-/

namespace SwiftStyle

open Lexeme

variable {c : Char} {before after text : List Char} {t : Token}

/-- **A character that begins nothing**, in front of a text. -/
structure Idle (c : Char) (after : List Char) : Prop where
  /-- It is not a low line. -/
  lowLine : c ≠ '_'
  /-- It is not a letter. -/
  letter : Text.isAlphabetic c = false
  /-- It is not a digit. -/
  digit : c.isDigit = false
  /-- It is not a quotation mark. -/
  quote : c ≠ '"'
  /-- It is not a backquote. -/
  backquote : c ≠ '\x60'
  /-- No comment begins with it. -/
  comment : c = '/' → after.head? ≠ some '/' ∧ after.head? ≠ some '*'
  /-- It is no number sign of a row in front of a quotation mark. -/
  sign : ∀ n back, c :: after ≠ List.replicate n '#' ++ '"' :: back
  /-- It is not the at sign of an attribute. -/
  atSign : c = '@' → after.head?.any Text.startsName = false

theorem idle_of_opening (h : openingOf c after = .other) : Idle c after := by
  -- every test of the dispatch has failed
  simp only [openingOf, ite_eq_iff, reduceCtorEq, and_false, and_true,
    false_or] at h
  obtain ⟨hline, hblock, hstring, hbackquote, hat, hdigit, hname⟩ := h
  simp only [Text.startsName, Bool.or_eq_true, beq_iff_eq, not_or] at hname
  have hsign : ∀ n back, c :: after ≠ List.replicate n '#' ++ '"' :: back :=
    fun n back heq => hstring (heq ▸ startsString_hashes n back)
  exact {
    lowLine := hname.1
    letter := by simpa using hname.2
    digit := by simpa using hdigit
    quote := fun hc => hsign 0 after (by rw [hc]; rfl)
    backquote := hbackquote
    comment := fun hc =>
      ⟨by simpa [hc] using hline, by simpa [hc] using hblock⟩
    sign := hsign
    atSign := fun hc => by simpa [hc] using hat }

/-- **What lies in no token begins nothing.** -/
theorem idle_of_uncovered (htext : text = before ++ c :: after)
    (h : ∀ t ∈ tokenize text,
      ¬ (t.span.start ≤ Text.size before ∧ Text.size before < t.span.stop)) :
    Idle c after := by
  subst htext
  have hborder : crossing before (c :: after) = none := by
    refine crossing_eq_none 0 fun t ht hspan => h t ht ?_
    omega
  cases hkind : (takeLexeme c after).1.kind with
  | none => exact idle_of_opening (openingOf_of_kind_none hkind)
  | some kind =>
    have hpos := Text.size_pos (text_takeLexeme_ne_nil c after)
    refine absurd ?_ (h _ (mem_tokenize_of_border hborder hkind))
    dsimp only
    omega

theorem head?_takeRun (p : Char → Bool) (rest : List Char) :
    (takeRun p rest).2.head?.any p = false := by
  have hhead := List.head?_dropWhile_not p rest
  unfold takeRun
  dsimp only
  cases h : (rest.dropWhile p).head? with
  | none => rfl
  | some d =>
    rw [h] at hhead
    simpa using hhead

/-- **A token that takes its word whole**, in front of a text. -/
structure Token.TakesWhole (t : Token) (piece after : List Char) : Prop where
  /-- A keyword spells a reserved word. -/
  keyword : t.kind = .keyword → Token.isReserved piece
  /-- A name spells none, unless it is in backquotes. -/
  name : t.kind = .identifier → piece.head? ≠ some '\x60' →
    Token.isReserved piece = false
  /-- And nothing that continues it stands behind it. -/
  ended : t.kind = .identifier → piece.head? ≠ some '\x60' →
    after.head?.any Text.continuesName = false

/-- The tokens of a text take their words whole. -/
theorem takesWhole_of_mem (h : t ∈ tokenize text) :
    ∃ before piece after, t.Spells text before piece after ∧
      t.TakesWhole piece after := by
  obtain ⟨before, c, rest, -, hkind, hspells⟩ := exists_spells h
  refine ⟨before, _, _, hspells, ?_⟩
  have hfits := fits_openingOf c rest
  rw [takeLexeme_eq] at hkind ⊢
  obtain ⟨span, kind⟩ := t
  cases ho : openingOf c rest with
  | quotedName =>
    rw [ho] at hkind hfits
    obtain rfl : c = '\x60' := hfits
    cases hkind
    exact ⟨nofun, fun _ hne => absurd rfl hne, fun _ hne => absurd rfl hne⟩
  | name =>
    rw [ho] at hkind
    unfold Opening.take at hkind ⊢
    dsimp only at hkind ⊢
    obtain rfl := Option.some.inj hkind
    cases hreserved :
        Token.isReserved (c :: (takeRun Text.continuesName rest).1) with
    | true => exact ⟨fun _ => hreserved, nofun, nofun⟩
    | false => exact ⟨nofun, fun _ _ => hreserved, fun _ _ => head?_takeRun ..⟩
  | _ =>
    rw [ho] at hkind
    cases hkind <;> exact ⟨nofun, nofun, nofun⟩

/-- **The tokens of a text lose no code.** What they leave out begins
nothing, and they take their words whole. -/
theorem loses_no_code (text : List Char) :
    (∀ before c after, text = before ++ c :: after →
      (∀ t ∈ tokenize text, ¬ (t.span.start ≤ Text.size before ∧
        Text.size before < t.span.stop)) → Idle c after) ∧
    ∀ t ∈ tokenize text, ∃ before piece after,
      t.Spells text before piece after ∧ t.TakesWhole piece after :=
  ⟨fun _ _ _ htext h => idle_of_uncovered htext h,
    fun _ ht => takesWhole_of_mem ht⟩

/-- A number sign in front of no quotation mark lies in no token, between a
keyword and a name. -/
theorem loses_no_code_sign :
    let text := "if #in1\"".toList
    ((∀ t ∈ tokenize text, ¬ (t.span.start ≤ 3 ∧ 3 < t.span.stop)) ∧
      Idle '#' "in1\"".toList) ∧
    ⟨⟨4, 7⟩, .identifier⟩ ∈ tokenize text ∧ ∃ before piece after,
      Token.Spells ⟨⟨4, 7⟩, .identifier⟩ text before piece after ∧
      Token.TakesWhole ⟨⟨4, 7⟩, .identifier⟩ piece after := by
  intro text
  obtain ⟨hidle, hwhole⟩ := loses_no_code text
  have hbare : ∀ t ∈ tokenize text,
      ¬ (t.span.start ≤ 3 ∧ 3 < t.span.stop) := by decide +kernel
  have hmem : ⟨⟨4, 7⟩, .identifier⟩ ∈ tokenize text := by decide +kernel
  exact ⟨⟨hbare, hidle "if ".toList '#' "in1\"".toList rfl hbare⟩, hmem,
    hwhole _ hmem⟩

end SwiftStyle
