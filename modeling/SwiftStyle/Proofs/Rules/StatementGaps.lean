import SwiftStyle.Proofs.Rules.StatementPosition

/-!
# Every gap that is not in order is reported

The rule looks for a brace, a gap and a keyword, and then asks for the first
token of what it has found. That the answer is the right one has two sides.
What is reported is a **misplaced** keyword (`Misplaced`), because nothing
but a keyword can be the first token behind a brace that lies in no token.
And every misplaced keyword is reported, because a search that passes over
places does so only inside what it has found, and there no brace is
(`exists_violation_iff`).

For gaps of spaces, tabs, carriage returns and line feeds, not to be in
order is simply not to be one space (`isGap_iff`).

The rule reports where the keyword begins, so a violation has to be led back
to a gap and a brace. That the two are determined by the place of the keyword
is `Misplaced.eq_gap`: a gap is white space, so the brace is the last one
before the keyword.
-/

namespace SwiftStyle

open Lexeme

/-- **A stretch that lies in no token**: none shares a byte with it. -/
def SourceFile.IsBare (file : SourceFile) (span : Span) : Prop :=
  ∀ t ∈ file.tokens, ¬ t.overlaps span

instance (file : SourceFile) (span : Span) : Decidable (file.IsBare span) :=
  inferInstanceAs (Decidable (∀ t ∈ file.tokens, ¬ t.overlaps span))

namespace SourceFile

variable {file : SourceFile} {front back : List Char} {c : Char}

/-- **An inert character lies in no token if it begins at a border**, and
only then. -/
theorem isBare_iff (hb : file.tokenizer = .basic) (hc : isInert c)
    (htext : file.text = front ++ c :: back) :
    file.IsBare ⟨Text.size front, Text.size front + c.utf8Size⟩
      ↔ crossing front (c :: back) = none := by
  have hpos := c.utf8Size_pos
  constructor
  · intro hbare
    refine crossing_eq_none 0 fun t ht => ?_
    rw [← htext, ← tokens_of_basic hb] at ht
    have hapart := hbare t ht
    rw [Token.overlaps_iff] at hapart
    dsimp only at hapart
    omega
  · intro hnone t ht
    have hsplit : Lexeme.tokens 0 (lexemes file.text)
        = Lexeme.tokens 0 (lexemes front) ++
          Lexeme.tokens (Text.size front + c.utf8Size) (lexemes back) := by
      have hskip := tokens_inert (List.forall_mem_singleton.2 hc)
        (Text.size front) back
      rw [Text.size_cons, Text.size_nil, Nat.add_zero] at hskip
      rw [htext, lexemes_append hnone, Lexeme.tokens_append, join_lexemes,
        Nat.zero_add]
      exact congrArg _ hskip
    rw [tokens_of_basic hb, hsplit] at ht
    rw [Token.overlaps_iff]
    dsimp only
    -- it is passed over between the tokens before it and those behind it
    rcases List.mem_append.1 ht with ht | ht
    · have := (bounds_of_mem ht).2.2
      omega
    · have := (bounds_of_mem ht).1
      omega

end SourceFile

namespace StatementPosition

variable {file : SourceFile} {front gap word back : List Char} {n : Nat}

/-- **A gap of ordinary white space is in order if it is one space.** -/
theorem isGap_iff (h : ∀ c ∈ gap, c ∈ [' ', '\t', '\r', '\n']) :
    IsGap gap ↔ gap ≠ [' '] := by
  constructor
  · rintro hgap rfl
    exact not_isGap_space hgap
  intro hne
  by_cases hfeed : '\n' ∈ gap
  · refine .inr (.inr (.inr ⟨fun c hc => ?_, hfeed⟩))
    have hall : ∀ c ∈ [' ', '\t', '\r', '\n'], Text.isBlank c := by decide
    exact hall c (h c hc)
  have hinline : ∀ c ∈ gap, isInline c := by
    intro c hc
    have hall : ∀ c ∈ [' ', '\t', '\r', '\n'], c ≠ '\n' → isInline c := by
      decide
    exact hall c (h c hc) fun hf => hfeed (hf ▸ hc)
  match gap with
  | [] => exact .inl rfl
  | [c] =>
    refine .inr (.inr (.inl ⟨c, rfl, ?_⟩))
    have hodd : ∀ c ∈ [' ', '\t', '\r', '\n'], [c] ≠ [' '] → c ≠ '\n' →
        isOdd c := by decide
    have hc : c ∈ [c] := List.mem_singleton_self c
    exact hodd c (h c hc) hne fun hf => hfeed (hf ▸ hc)
  | _ :: _ :: _ => exact .inr (.inl ⟨by simp, hinline⟩)

/-- **A keyword that is misplaced**: it stands, as a token, behind a gap
that is not in order and a brace that begins at a border. -/
structure Misplaced (file : SourceFile) (front gap word back : List Char) :
    Prop where
  /-- This is how the text is divided. -/
  text : file.text = front ++ ('\x7d' :: (gap ++ word) ++ back)
  /-- The gap is not in order. -/
  isGap : IsGap gap
  /-- The keyword is one. -/
  isKeyword : IsKeyword word
  /-- No word goes on behind it. -/
  ended : back.head?.any Text.isWord = false
  /-- It is to be replaced. -/
  keeps : reading.keeps
    (crossing front ('\x7d' :: (gap ++ word) ++ back)) back

namespace Misplaced

theorem reads (h : Misplaced file front gap word back) :
    reading.reads ('\x7d' :: (gap ++ word)) ('\x7d' :: ' ' :: word) back :=
  ⟨gap, word, h.isGap, h.isKeyword, rfl, rfl, h.ended⟩

/-- The text up to the keyword, and from there. -/
theorem text_eq (h : Misplaced file front gap word back) :
    file.text = front ++ '\x7d' :: gap ++ (word ++ back) := by
  rw [h.text]
  simp

theorem offset (h : Misplaced file front gap word back) :
    (description.violationAt file
      (Text.size (front ++ '\x7d' :: gap))).location.offset
        = Text.size (front ++ '\x7d' :: gap) :=
  description.offset_violationAt h.text_eq

/-- The gap is what is between the keyword and the last brace before it. -/
theorem eq_gap {front' gap' rest : List Char}
    (h : Misplaced file front gap word back)
    (htext : file.text = front' ++ '\x7d' :: gap' ++ rest)
    (hsize : Text.size (front' ++ '\x7d' :: gap')
      = Text.size (front ++ '\x7d' :: gap))
    (hbrace : '\x7d' ∉ gap') : gap' = gap := by
  have hmem : '\x7d' ∉ gap := fun hm =>
    absurd (h.isGap.isBlank _ hm) (by decide)
  obtain ⟨heq, -⟩ :=
    Text.split_size_unique hsize (htext.symm.trans h.text_eq)
  exact (Text.split_last_unique hbrace hmem heq).2

/-- It is found by the search. -/
theorem exists_occurrence (h : Misplaced file front gap word back) :
    ∃ o ∈ pattern.occurrences file.text, o.span
      = ⟨Text.size front, Text.size (front ++ '\x7d' :: (gap ++ word))⟩ := by
  rcases performs.found_or_inside lawful h.text h.reads with hfound |
    ⟨o, -, front', head, tail, behind, -, hhead, htail, hsplit, heq, hreads,
      -⟩
  · exact hfound
  · -- the brace would be inside of what is found, and not its beginning
    obtain ⟨c, head, rfl⟩ := List.exists_cons_of_ne_nil hhead
    obtain ⟨d, tail, rfl⟩ := List.exists_cons_of_ne_nil htail
    obtain ⟨rfl, -⟩ := List.cons.inj heq
    refine absurd ?_ (not_mem_tail_of_reads hreads)
    rw [hsplit]
    simp

/-- **A misplaced keyword is corrected.** -/
theorem exists_edit (hb : file.tokenizer = .basic)
    (h : Misplaced file front gap word back) :
    ∃ e ∈ substitution.edits file, e.span
      = ⟨Text.size front, Text.size (front ++ '\x7d' :: (gap ++ word))⟩ := by
  obtain ⟨o, ho, hspan⟩ := h.exists_occurrence
  have hkept : StatementPosition.keeps (file.matchAt o.span) :=
    hspan ▸ (keeps_iff hb h.text h.reads).2 h.keeps
  rw [performs.edits_eq lawful]
  exact ⟨_, List.mem_map_of_mem (List.mem_filter.2 ⟨ho, hkept⟩), hspan⟩

end Misplaced

/-- What is corrected is misplaced. -/
theorem exists_misplaced (hb : file.tokenizer = .basic) {e : Edit}
    (he : e ∈ substitution.edits file) :
    ∃ front gap word back, Misplaced file front gap word back ∧ e.span
      = ⟨Text.size front, Text.size (front ++ '\x7d' :: (gap ++ word))⟩ := by
  obtain ⟨front, piece, back, htext, hreads, hkeeps, hspan⟩ :=
    performs.exists_of_mem_edits lawful hb he
  obtain ⟨gap, word, hgap, hword, rfl, -, hback⟩ := hreads
  exact ⟨front, gap, word, back, ⟨htext, hgap, hword, hback, hkeeps⟩, hspan⟩

/-- **What is reported are the misplaced keywords**, each at its place. -/
theorem exists_violation_iff (hb : file.tokenizer = .basic) :
    (∃ v ∈ validate file, v.location.offset = n)
      ↔ ∃ front gap word back, Misplaced file front gap word back ∧
          n = Text.size (front ++ '\x7d' :: gap) := by
  rw [validate_eq]
  simp only [List.mem_filterMap, List.mem_map]
  constructor
  · rintro ⟨v, ⟨_, ⟨e, he, rfl⟩, hv⟩, rfl⟩
    obtain ⟨front, gap, word, back, h, hspan⟩ := exists_misplaced hb he
    have hfirst := (violation?_match hb h.isGap h.isKeyword h.text h.ended
      h.keeps).1
    rw [hspan, hfirst] at hv
    obtain rfl := Option.some.inj hv
    exact ⟨front, gap, word, back, h, h.offset⟩
  · rintro ⟨front, gap, word, back, h, rfl⟩
    obtain ⟨e, he, hspan⟩ := h.exists_edit hb
    have hfirst := (violation?_match hb h.isGap h.isKeyword h.text h.ended
      h.keeps).1
    exact ⟨_, ⟨_, ⟨e, he, rfl⟩, hspan ▸ hfirst⟩, h.offset⟩

/-- **No name goes on behind a keyword that is a token.** -/
theorem IsKeyword.continuesName_of_mem (h : IsKeyword word)
    (hb : file.tokenizer = .basic)
    (htext : file.text = front ++ (word ++ back))
    (hback : back.head?.any Text.isWord = false)
    (ht : ⟨⟨Text.size front, Text.size front + Text.size word⟩, .keyword⟩
      ∈ file.tokens) : back.head?.any Text.continuesName = false := by
  rw [SourceFile.tokens_of_basic hb] at ht
  obtain ⟨before, c, after, hbefore, -, hkind, hspan⟩ :=
    exists_of_mem_tokens ht
  obtain ⟨hstart, -⟩ := Span.mk.inj hspan
  rw [Nat.zero_add] at hstart
  obtain ⟨rfl, hrest⟩ :=
    Text.split_size_unique hstart (htext.symm.trans hbefore)
  -- the token is the lexeme that begins with the keyword
  obtain ⟨d, more, rfl, htake⟩ := h.takeLexeme back
  obtain ⟨rfl, rfl⟩ := List.cons.inj hrest
  rw [List.append_eq, htake, h.isReserved hback] at hkind
  cases hname : back.head?.any Text.continuesName with
  | false => rfl
  | true => rw [hname] at hkind; exact nomatch hkind

/-- **The rule is exact on gaps of ordinary white space.** Behind a brace
that lies in no token, a keyword that is a token is reported unless one space
is between the two; and nothing else is reported than keywords behind white
space and such a brace. -/
theorem reports_gaps (file : SourceFile) (hb : file.tokenizer = .basic) :
    (∀ front gap word back,
      file.text = front ++ '\x7d' :: (gap ++ (word ++ back)) →
      (∀ c ∈ gap, c ∈ [' ', '\t', '\r', '\n']) → IsKeyword word →
      back.head?.any Text.isWord = false →
      file.IsBare ⟨Text.size front, Text.size front + 1⟩ →
      ⟨⟨Text.size (front ++ '\x7d' :: gap),
        Text.size (front ++ '\x7d' :: gap) + Text.size word⟩, .keyword⟩
          ∈ file.tokens →
      ((∃ v ∈ validate file,
          v.location.offset = Text.size (front ++ '\x7d' :: gap))
        ↔ gap ≠ [' '])) ∧
    ∀ v ∈ validate file, ∃ front gap word back,
      file.text = front ++ '\x7d' :: (gap ++ (word ++ back)) ∧
      (∀ c ∈ gap, Text.isBlank c) ∧ IsKeyword word ∧
      file.IsBare ⟨Text.size front, Text.size front + 1⟩ ∧
      v.location.offset = Text.size (front ++ '\x7d' :: gap) ∧
      ⟨⟨v.location.offset, v.location.offset + Text.size word⟩, .keyword⟩
        ∈ file.tokens := by
  constructor
  · intro front gap word back htext hgap hword hback hbare hkeyword
    have hwhole : file.text = front ++ ('\x7d' :: (gap ++ word) ++ back) := by
      simp [htext]
    have hbehind : file.text = front ++ '\x7d' :: gap ++ (word ++ back) := by
      simp [htext]
    rw [exists_violation_iff hb, ← isGap_iff hgap]
    constructor
    · rintro ⟨_, _, _, _, h, hsize⟩
      have hbrace : '\x7d' ∉ gap := fun hm => absurd (hgap _ hm) (by decide)
      exact h.eq_gap hbehind hsize hbrace ▸ h.isGap
    · intro hmisplaced
      have hborder := (file.isBare_iff hb (by decide) htext).1 hbare
      have hname := hword.continuesName_of_mem hb hbehind hback hkeyword
      exact ⟨front, gap, word, back, ⟨hwhole, hmisplaced, hword, hback,
        by simpa using hborder, hname⟩, rfl⟩
  · intro v hv
    obtain ⟨front, gap, word, back, h, hoffset⟩ :=
      (exists_violation_iff hb).1 ⟨v, hv, rfl⟩
    have htext : file.text = front ++ '\x7d' :: (gap ++ (word ++ back)) := by
      simp [h.text]
    refine ⟨front, gap, word, back, htext, h.isGap.isBlank, h.isKeyword, ?_,
      hoffset, ?_⟩
    · exact (file.isBare_iff hb (by decide) htext).2 (by simpa using h.keeps.1)
    · rw [hoffset]
      exact (violation?_match hb h.isGap h.isKeyword h.text h.ended h.keeps).2

/-- A keyword behind one space, one behind a tab and a line feed, and one in
a comment: the second is reported. -/
theorem reports_gaps_once :
    let file := SourceFile.ofContents "\x7d else \x7b\x7d\t\nelse // \x7dcatch"
    (¬ ∃ v ∈ validate file, v.location.offset = 2) ∧
    (∃ v ∈ validate file, v.location.offset = 11) ∧
    ∀ v ∈ validate file, v.location.offset = 11 := by
  intro file
  obtain ⟨hexact, -⟩ := reports_gaps file rfl
  have hinorder := hexact [] [' '] ['e', 'l', 's', 'e']
    " \x7b\x7d\t\nelse // \x7dcatch".toList (by decide +kernel) (by decide)
    (.inl rfl) (by decide +kernel) (by decide +kernel) (by decide +kernel)
  have hmisplaced := hexact "\x7d else \x7b".toList ['\t', '\n']
    ['e', 'l', 's', 'e'] " // \x7dcatch".toList (by decide +kernel)
    (by decide) (.inl rfl) (by decide +kernel) (by decide +kernel)
    (by decide +kernel)
  exact ⟨fun h => hinorder.1 h rfl, hmisplaced.2 (by decide),
    by decide +kernel⟩

end StatementPosition
end SwiftStyle
