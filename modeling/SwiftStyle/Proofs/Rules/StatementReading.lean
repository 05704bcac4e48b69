import SwiftStyle.Proofs.Pattern.Ends
import SwiftStyle.Proofs.Source.Sweep
import SwiftStyle.Proofs.Text.Split
import SwiftStyle.Rules.StatementPosition

/-!
# What is read as a badly placed keyword

The pattern of the rule takes a closing brace, a **gap** – white space
that is not one space – and a keyword (`takes_pattern`). Read this way
the corrections are lawful: in what is written, a brace, one space and
the keyword, nothing is read again (`lawful`). A brace is at the front of
all that is read and nowhere else in it, which is why the corrections
spare all other readings (`spares`).

A gap is not in order if it is empty, if it is two or more spaces, tabs and
carriage returns, if it is one tab or carriage return, or if it is white space
with a line feed in it. The pattern has one branch for each, and they
are not exclusive; no branch takes a single space.

That no word goes on behind the keyword is asked of the text behind the match,
by the word edge at the end of the pattern. The same question is asked once
more of the tokens, because a character may be in names and not in words. Then
the token is a longer name, and the match is not kept (`reading`).
-/

namespace SwiftStyle.StatementPosition

/-- **A gap that is not in order**: white space between a brace and a
keyword, if any, that is not one space. -/
def IsGap (gap : List Char) : Prop :=
  gap = [] ∨ (2 ≤ gap.length ∧ ∀ c ∈ gap, isInline c) ∨
    (∃ c, gap = [c] ∧ isOdd c) ∨ ((∀ c ∈ gap, Text.isBlank c) ∧ '\n' ∈ gap)

/-- **The keywords** whose position is asked about. -/
def IsKeyword (word : List Char) : Prop :=
  word = ['e', 'l', 's', 'e'] ∨ word = ['c', 'a', 't', 'c', 'h']

/-- **What is read**: a brace, a gap and a keyword that is not the
beginning of a longer word. -/
def reading : Reading where
  reads piece written back := ∃ gap word, IsGap gap ∧ IsKeyword word ∧
    piece = '\x7d' :: (gap ++ word) ∧ written = '\x7d' :: ' ' :: word ∧
      back.head?.any Text.isWord = false
  keeps kind back :=
    kind = none ∧ back.head?.any Text.continuesName = false

variable {c : Cursor} {piece written rest back gap word : List Char}
  {taken : List Pattern.Capture}

theorem isBlank_of_isInline {a : Char} (h : isInline a) :
    Text.isBlank a := by
  simp only [isInline, Bool.or_eq_true, beq_iff_eq] at h
  rcases h with (rfl | rfl) | rfl <;> decide

theorem isBlank_of_isOdd {a : Char} (h : isOdd a) : Text.isBlank a := by
  simp only [isOdd, Bool.or_eq_true, beq_iff_eq] at h
  rcases h with rfl | rfl <;> decide

theorem IsGap.isBlank (h : IsGap gap) : ∀ a ∈ gap, Text.isBlank a := by
  rcases h with rfl | ⟨-, h⟩ | ⟨a, rfl, h⟩ | ⟨h, -⟩
  · simp
  · exact fun a ha => isBlank_of_isInline (h a ha)
  · exact List.forall_mem_singleton.2 (isBlank_of_isOdd h)
  · exact h

theorem IsGap.isWord_before (h : IsGap gap) (c : Cursor)
    (rest : List Char) :
    (c.pass ('\x7d' :: gap) rest).before.any Text.isWord = false := by
  have hword : ∀ a ∈ '\x7d' :: gap, Text.isWord a = false :=
    List.forall_mem_cons.2 ⟨by decide,
      fun a ha => Text.isWord_of_isBlank (h.isBlank a ha)⟩
  unfold Cursor.pass
  rw [List.getLast?_eq_some_getLast (List.cons_ne_nil _ _)]
  exact hword _ (List.getLast_mem _)

theorem not_isGap_space : ¬ IsGap [' '] := by
  rintro (h | ⟨h, -⟩ | ⟨a, h, ha⟩ | ⟨-, h⟩)
  · cases h
  · exact absurd h (by decide)
  · obtain rfl : ' ' = a := (List.cons.inj h).1
    cases ha
  · exact absurd h (by decide)

/-- What the pattern of a gap takes. -/
theorem takes_gap :
    (Pattern.optional StatementPosition.gap).Takes c piece rest taken
      ↔ taken = [] ∧ IsGap piece ∧ c.rest = piece ++ rest := by
  unfold Pattern.optional StatementPosition.gap
  simp only [Pattern.oneOf, Pattern.inOrder, Pattern.blanks,
    Pattern.takes_either, Pattern.takes_seq, Pattern.takes_one,
    Pattern.takes_oneOrMore, Pattern.takes_many, Pattern.takes_char,
    Pattern.takes_empty]
  -- the branches, in their order: inline, odd, with a line feed, nothing
  constructor
  · rintro ((⟨_, more, _, _, rfl, rfl, ⟨rfl, a, rfl, ha, hrest⟩, rfl, hne,
      hmore, -⟩ | ⟨rfl, a, rfl, ha, hrest⟩ | ⟨first, _, _, _, rfl, rfl,
      ⟨rfl, hfirst, hrest⟩, _, second, _, _, rfl, rfl, ⟨rfl, rfl, -⟩, rfl,
      hsecond, -⟩) | ⟨rfl, rfl, hrest⟩)
    · refine ⟨rfl, .inr (.inl ⟨?_, List.forall_mem_cons.2 ⟨ha, hmore⟩⟩),
        hrest⟩
      have := List.length_pos_iff.2 hne
      rw [List.length_append, List.length_singleton]
      omega
    · exact ⟨rfl, .inr (.inr (.inl ⟨a, rfl, ha⟩)), hrest⟩
    · refine ⟨rfl, .inr (.inr (.inr ⟨?_, by simp⟩)), ?_⟩
      · intro a ha
        rcases List.mem_append.1 ha with ha | ha
        · exact hfirst a ha
        rcases List.mem_cons.1 ha with rfl | ha
        · decide
        · exact hsecond a ha
      · rw [hrest]
        simp only [List.append_assoc]
    · exact ⟨rfl, .inl rfl, hrest⟩
  · rintro ⟨rfl, rfl | ⟨hlen, hall⟩ | ⟨a, rfl, ha⟩ | ⟨hall, hfeed⟩, hrest⟩
    · exact .inr ⟨rfl, rfl, hrest⟩
    · obtain ⟨a, more, rfl⟩ := List.exists_cons_of_length_pos
        (Nat.lt_of_lt_of_le Nat.zero_lt_two hlen)
      obtain ⟨ha, hmore⟩ := List.forall_mem_cons.1 hall
      have hne : more ≠ [] := by
        rintro rfl
        exact absurd hlen (Nat.lt_irrefl 1)
      exact .inl (.inl ⟨[a], more, [], [], rfl, rfl,
        ⟨rfl, a, rfl, ha, hrest⟩, rfl, hne, hmore, rfl⟩)
    · exact .inl (.inr (.inl ⟨rfl, a, rfl, ha, hrest⟩))
    · obtain ⟨first, second, rfl⟩ := List.append_of_mem hfeed
      obtain ⟨hfirst, hsecond⟩ := List.forall_mem_append.1 hall
      rw [List.append_assoc] at hrest
      exact .inl (.inr (.inr ⟨first, '\n' :: second, [], [], rfl, rfl,
        ⟨rfl, hfirst, hrest⟩, ['\n'], second, [], [], rfl, rfl,
        ⟨rfl, rfl, rfl⟩, rfl, (List.forall_mem_cons.1 hsecond).2, rfl⟩))

theorem IsKeyword.exists_getLast? (h : IsKeyword word) :
    ∃ a, Text.isWord a ∧ word.getLast? = some a := by
  rcases h with rfl | rfl
  · exact ⟨'e', by decide, rfl⟩
  · exact ⟨'h', by decide, rfl⟩

theorem IsKeyword.exists_cons (h : IsKeyword word) :
    ∃ a more, Text.isWord a ∧ word = a :: more := by
  rcases h with rfl | rfl
  · exact ⟨'e', _, by decide, rfl⟩
  · exact ⟨'c', _, by decide, rfl⟩

theorem takes_keyword :
    (Pattern.oneOf (.text "else") [.text "catch"]).Takes c piece rest taken
      ↔ taken = [] ∧ IsKeyword piece ∧ c.rest = piece ++ rest := by
  simp only [Pattern.oneOf, Pattern.takes_either, Pattern.takes_text]
  constructor
  · rintro (⟨rfl, rfl, h⟩ | ⟨rfl, rfl, h⟩)
    · exact ⟨rfl, .inl rfl, h⟩
    · exact ⟨rfl, .inr rfl, h⟩
  · rintro ⟨rfl, rfl | rfl, h⟩
    · exact .inl ⟨rfl, rfl, h⟩
    · exact .inr ⟨rfl, rfl, h⟩

/-- **What the pattern takes.** -/
theorem takes_pattern :
    pattern.Takes c piece rest taken
      ↔ ∃ gap word, IsGap gap ∧ IsKeyword word ∧
          piece = '\x7d' :: (gap ++ word) ∧ c.rest = piece ++ rest ∧
          rest.head?.any Text.isWord = false ∧
          taken = [⟨1, none, c.pass ('\x7d' :: gap) (word ++ rest),
            c.pass piece rest⟩] := by
  unfold pattern
  simp only [Pattern.inOrder, Pattern.takes_seq, Pattern.takes_char,
    takes_gap, Pattern.takes_wordEdge, Pattern.takes_group, takes_keyword]
  constructor
  · rintro ⟨_, _, _, _, rfl, rfl, ⟨rfl, rfl, hrest⟩, gap, _, _, _, rfl, rfl,
      ⟨rfl, hgap, -⟩, _, _, _, _, rfl, rfl, ⟨rfl, rfl, -, -⟩, word, _, _,
      _, rfl, rfl, ⟨_, rfl, rfl, hword, -⟩, rfl, rfl, -, hedge⟩
    simp only [List.nil_append, List.append_nil, List.append_assoc,
      List.cons_append, Cursor.pass_pass, Cursor.pass_pass_nil]
      at hrest hedge ⊢
    obtain ⟨a, ha, hlast⟩ := hword.exists_getLast?
    rw [← List.cons_append, c.before_pass_append rest hlast,
      Text.isWordEdge_of_word (a := some a) ha, Bool.not_eq_true'] at hedge
    exact ⟨gap, word, hgap, hword, rfl, hrest, hedge, rfl⟩
  · rintro ⟨gap, word, hgap, hword, rfl, hrest, hback, rfl⟩
    obtain ⟨a, ha, hlast⟩ := hword.exists_getLast?
    refine ⟨['\x7d'], gap ++ word, [], _, rfl, rfl, ⟨rfl, rfl, hrest⟩,
      gap, word, [], _, rfl, rfl, ⟨rfl, hgap, List.append_assoc ..⟩,
      [], word, [], _, rfl, rfl, ⟨rfl, rfl, rfl, ?_⟩,
      word, [], [⟨1, none, c.pass ('\x7d' :: gap) (word ++ rest),
        c.pass ('\x7d' :: (gap ++ word)) rest⟩], [],
      (List.append_nil _).symm, rfl, ⟨[], ?_, rfl, hword, rfl⟩,
      rfl, rfl, rfl, ?_⟩
    · simp only [List.append_assoc, Cursor.pass_pass, List.singleton_append]
      rw [Text.isWordEdge_of_not (hgap.isWord_before c (word ++ rest))]
      obtain ⟨b, more, hb, rfl⟩ := hword.exists_cons
      exact hb
    · simp only [List.append_assoc, Cursor.pass_pass, List.nil_append,
        Cursor.pass_pass_nil, List.cons_append]
    · simp only [List.append_assoc, Cursor.pass_pass, List.singleton_append,
        List.nil_append, Cursor.pass_pass_nil]
      rw [c.before_pass_append rest hlast,
        Text.isWordEdge_of_word (a := some a) ha, hback]
      rfl

/-! ## The laws of the reading

All of them come from the brace: it is firm, it is the first character of what
is read and of what is written, and neither white space nor a keyword has one.
-/

/-- A keyword and the text behind it do not begin with white space. -/
theorem IsKeyword.head?_append (h : IsKeyword word) (back : List Char) :
    (word ++ back).head?.any Text.isBlank = false := by
  rcases h with rfl | rfl <;> rfl

/-- A text begins with one keyword at most. -/
theorem IsKeyword.unique {word' back' : List Char} (h : IsKeyword word)
    (h' : IsKeyword word') (heq : word ++ back = word' ++ back') :
    word = word' := by
  rcases h with rfl | rfl <;> rcases h' with rfl | rfl
  · rfl
  · cases heq
  · cases heq
  · rfl

theorem not_mem_of_reads (hgap : IsGap gap) (hword : IsKeyword word) :
    '\x7d' ∉ gap ++ word := by
  intro h
  rcases List.mem_append.1 h with h | h
  · exact absurd (hgap.isBlank _ h) (by decide)
  · rcases hword with rfl | rfl <;> exact absurd h (by decide)

/-- A piece that is read has no brace behind its first character. -/
theorem not_mem_tail_of_reads {written : List Char}
    (h : reading.reads piece written back) : '\x7d' ∉ piece.tail := by
  obtain ⟨gap, word, hgap, hword, rfl, -, -⟩ := h
  exact not_mem_of_reads hgap hword

/-- Nothing is read in a text without a brace. -/
theorem passes_of_not_mem {text : List Char} (h : '\x7d' ∉ text) :
    reading.Passes text := by
  intro next
  induction text with
  | nil => exact trivial
  | cons c text ih =>
    refine ⟨?_, ih fun hm => h (List.mem_cons_of_mem c hm)⟩
    rintro _ _ _ ⟨gap, word, -, -, rfl, -⟩ heq
    exact h ((List.cons.inj heq).1 ▸ List.mem_cons_self)

theorem lawful : reading.Lawful where
  head := by
    rintro piece written back ⟨gap, word, -, -, rfl, rfl, -⟩
    exact ⟨'\x7d', gap ++ word, ' ' :: word, rfl, rfl, by decide⟩
  congr := by
    rintro piece written back back' ⟨gap, word, hgap, hword, rfl, rfl, h⟩ hb
    exact ⟨gap, word, hgap, hword, rfl, rfl, hb ▸ h⟩
  keeps_congr := by
    rintro kind back back' ⟨hkind, h⟩ hb
    exact ⟨hkind, hb ▸ h⟩
  unique := by
    rintro _ _ back _ _ back' ⟨gap, word, hgap, hword, rfl, rfl, -⟩
      ⟨gap', word', hgap', hword', rfl, rfl, -⟩ heq
    have htail := (List.cons.inj heq).2
    rw [List.append_eq, List.append_eq, List.append_assoc,
      List.append_assoc] at htail
    obtain ⟨rfl, hback⟩ := Text.split_unique hgap.isBlank hgap'.isBlank
      (hword.head?_append back) (hword'.head?_append back') htail
    obtain rfl := hword.unique hword' hback
    exact ⟨rfl, rfl⟩
  settled := by
    rintro _ _ back ⟨gap, word, -, hword, rfl, rfl, -⟩
    intro more
    refine ⟨?_, passes_of_not_mem ?_ more⟩
    · -- a brace, one space and a keyword are in order
      rintro _ _ behind ⟨gap', word', hgap', hword', rfl, -, -⟩ heq
      have htail := (List.cons.inj heq).2
      rw [List.append_eq, List.append_assoc] at htail
      obtain ⟨rfl, -⟩ := Text.split_unique (u := [' ']) (by decide)
        hgap'.isBlank (hword.head?_append more)
        (hword'.head?_append behind) htail
      exact not_isGap_space hgap'
    · rcases hword with rfl | rfl <;> decide

/-- The corrections spare every reading whose pieces have no brace but as
their first character. -/
theorem spares {R : Reading} (hR : R.Lawful)
    (hbrace : ∀ {piece written back}, R.reads piece written back →
      '\x7d' ∉ piece.tail) : reading.Spares R := by
  rintro _ _ back front found found' behind behind'
    ⟨gap, word, -, -, rfl, rfl, -⟩ hfound hne heq
  rcases List.append_eq_append_iff.1 heq with ⟨m, rfl, hm⟩ | ⟨m, rfl, rfl⟩
  · cases m with
    | nil =>
      rw [List.append_nil] at hfound ⊢
      exact ⟨'\x7d' :: (gap ++ word) ++ back,
        hR.congr hfound (congrArg List.head? hm).symm, rfl⟩
    | cons c m =>
      obtain ⟨rfl, -⟩ := List.cons.inj hm
      obtain ⟨d, front, rfl⟩ := List.exists_cons_of_ne_nil hne
      exact absurd (by simp) (hbrace hfound)
  · refine ⟨_, hR.congr hfound ?_, (List.append_assoc ..)⟩
    cases m <;> rfl

end SwiftStyle.StatementPosition
