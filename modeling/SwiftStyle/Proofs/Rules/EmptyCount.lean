import SwiftStyle.Proofs.Source.Match
import SwiftStyle.Proofs.Source.Position
import SwiftStyle.Proofs.Pattern.Occurrence
import SwiftStyle.Rules.EmptyCount

/-!
# Which comparisons are reported

The rule looks for the word `count`, a sign of comparison and a zero, and
asks whether the first token of what it finds is a name. In most texts this
name is `count` and the zero is a number, so that a count is compared with
zero (`ComparesWithZero`). Patterns and tokens do not divide a text in the
same way, though, and only the first token is looked at.

* A number may go on behind the zero with a point and a digit. No word goes
  on there, so one half is taken for zero.
* A name may have begun before the word: one between backquotes, or one that
  goes on with a character that is in names and not in words, such as a
  superscript digit.

There is no other exception (`compares_iff`): what is between the word and
the zero lies in no token, so where no name has begun before the word both
are looked at on their own.

The proof follows the tokens from the word on. If no token crosses the
beginning of the word, the word is a name of its own, as what follows is no
character of names; then the comparison is inert, so that the zero begins at a
border; and then the zero is a number of its own unless a fraction goes on
behind it, since the pattern lets no letter and no digit follow. If a token
crosses the beginning of the word, the rule has looked at it, for it is the
first one of the match, and it is a name because the match was kept.
-/

namespace SwiftStyle.EmptyCount

open Lexeme

variable {file : SourceFile} {v : Violation} {c : Cursor}
  {text front between piece rest back : List Char}
  {taken : List Pattern.Capture}

/-! ## What is read

The pattern is taken apart into the word, the comparison and the zero, and
what is known of the two ends: no word character stands before the word, and
none behind the zero. -/

/-- The word that is compared. -/
def count : List Char :=
  ['c', 'o', 'u', 'n', 't']

/-- **The signs of comparison.** -/
def signs : List (List Char) :=
  [['=', '='], ['!', '='], ['<', '='], ['>', '='], ['<'], ['>']]

/-- **What makes a comparison of two words**: a sign, with white space
around it or none. -/
def IsComparison (between : List Char) : Prop :=
  ∃ gap sign gap', between = gap ++ (sign ++ gap') ∧
    (∀ a ∈ gap, Text.isBlank a) ∧ sign ∈ signs ∧
    ∀ a ∈ gap', Text.isBlank a

/-- **A comparison of the word with a zero** in a text. -/
structure Written (text front between back : List Char) : Prop where
  /-- This is how the text is divided. -/
  text_eq : text = front ++ (count ++ (between ++ '0' :: back))
  /-- The word is compared. -/
  compares : IsComparison between

theorem IsComparison.isInert (h : IsComparison between) :
    ∀ a ∈ between, isInert a := by
  obtain ⟨gap, sign, gap', rfl, hgap, hsign, hgap'⟩ := h
  have hsigns : ∀ sign ∈ signs, ∀ a ∈ sign, SwiftStyle.isInert a := by decide
  simp only [List.forall_mem_append]
  exact ⟨fun a ha => isInert_of_isBlank (hgap a ha), hsigns sign hsign,
    fun a ha => isInert_of_isBlank (hgap' a ha)⟩

/-- A comparison ends in one place. -/
theorem Written.unique {between' back' : List Char}
    (h : Written text front between back)
    (h' : Written text front between' back') :
    between = between' ∧ back = back' := by
  have heq := h.text_eq.symm.trans h'.text_eq
  rw [List.append_cancel_left_eq, List.append_cancel_left_eq] at heq
  obtain ⟨rfl, hzero⟩ := Text.split_unique h.compares.isInert
    h'.compares.isInert rfl rfl heq
  exact ⟨rfl, (List.cons.inj hzero).2⟩

theorem takes_comparison :
    comparison.Takes c piece rest taken
      ↔ taken = [] ∧ piece ∈ signs ∧ c.rest = piece ++ rest := by
  unfold comparison signs
  simp only [Pattern.oneOf, Pattern.takes_either, Pattern.takes_text,
    List.mem_cons, List.not_mem_nil, or_false]
  -- every branch takes its sign, in the same order
  have hbranch : ∀ sign : List Char,
      (taken = [] ∧ piece = sign ∧ c.rest = piece ++ rest)
        ↔ piece = sign ∧ taken = [] ∧ c.rest = piece ++ rest :=
    fun _ => and_left_comm
  simp only [hbranch, ← or_and_right]
  exact and_left_comm

/-- What the pattern takes behind the word: a comparison and a zero, which
no word character stands behind. -/
theorem of_takes_behind
    (h : (Pattern.inOrder [.blanks, comparison, .blanks, .char '0',
      .wordEdge]).Takes c piece rest taken) :
    ∃ between, IsComparison between ∧ piece = between ++ ['0'] ∧
      rest.head?.any Text.isWord = false := by
  simp only [Pattern.inOrder, Pattern.blanks, Pattern.takes_seq,
    Pattern.takes_wordEdge, Pattern.takes_many, takes_comparison,
    Pattern.takes_char] at h
  obtain ⟨gap, _, _, _, rfl, -, ⟨-, hgap, -⟩, sign, _, _, _, rfl, -,
    ⟨-, hsign, -⟩, gap', _, _, _, rfl, -, ⟨-, hgap', -⟩, _, _, _, _, rfl, -,
    ⟨-, rfl, -⟩, -, rfl, -, hends⟩ := h
  have hzero : (some '0').any Text.isWord = true := by decide
  have hedge : Text.isWordEdge (some '0') rest.head? = true := hends
  rw [Text.isWordEdge_of_word hzero, Bool.not_eq_true'] at hedge
  exact ⟨gap ++ (sign ++ gap'), ⟨gap, sign, gap', rfl, hgap, hsign, hgap'⟩,
    by simp, hedge⟩

/-- **What the pattern takes**: the word, which no word character stands
before, a comparison, and a zero, which none stands behind. -/
theorem of_takes (h : pattern.Takes c piece rest taken) :
    ∃ between, IsComparison between ∧
      piece = count ++ (between ++ ['0']) ∧
      c.before.any Text.isWord = false ∧
      rest.head?.any Text.isWord = false := by
  obtain ⟨_, _, _, _, rfl, -, hedge, h⟩ := Pattern.takes_seq.1 h
  obtain ⟨_, _, _, _, rfl, -, hword, h⟩ := Pattern.takes_seq.1 h
  obtain ⟨between, hcompares, rfl, hends⟩ := of_takes_behind h
  obtain ⟨-, rfl, -⟩ := Pattern.takes_text.1 hword
  obtain ⟨-, rfl, -, hedge⟩ := Pattern.takes_wordEdge.1 hedge
  refine ⟨between, hcompares, rfl, ?_, hends⟩
  have hc : (some 'c').any Text.isWord = true := by decide
  have hbegins : Text.isWordEdge c.before (some 'c') = true := hedge
  rwa [Text.isWordEdge_comm, Text.isWordEdge_of_word hc,
    Bool.not_eq_true'] at hbegins

theorem not_takes_nil (c : Cursor) (rest : List Char)
    (taken : List Pattern.Capture) : ¬ pattern.Takes c [] rest taken := by
  intro h
  obtain ⟨between, -, hpiece, -⟩ := of_takes h
  cases hpiece

/-! ## The tokens of a comparison

Offsets are sizes of texts, so the two tokens that the definition speaks of
are given by the text in front of the word and by the text in front of the
zero. -/

theorem IsComparison.ne_nil (h : IsComparison between) : between ≠ [] := by
  obtain ⟨gap, sign, gap', rfl, -, hsign, -⟩ := h
  have hsigns : ∀ sign ∈ signs, sign ≠ [] := by decide
  simp [hsigns sign hsign]

theorem takeLexeme_count (h : IsComparison between) (back : List Char) :
    takeLexeme 'c' (['o', 'u', 'n', 't'] ++ (between ++ back))
      = (⟨some .identifier, count⟩, between ++ back) := by
  obtain ⟨a, more, rfl⟩ := List.exists_cons_of_ne_nil h.ne_nil
  have ha : Text.continuesName a = false :=
    not_continuesName_of_isFirm
      (isFirm_of_isInert (h.isInert a List.mem_cons_self))
  have hrun : takeRun Text.continuesName
      (['o', 'u', 'n', 't'] ++ (a :: more ++ back))
        = (['o', 'u', 'n', 't'], a :: more ++ back) := by
    rw [takeRun_append (by decide), List.cons_append, takeRun_cons,
      if_neg (by simp [ha])]
    rfl
  rw [takeLexeme_name (by decide) (by decide) (by decide), hrun]
  rfl

/-- The zero is a number, with what goes on behind it. -/
theorem takeLexeme_zero (back : List Char) :
    takeLexeme '0' back
      = (⟨some .number, '0' :: (takeNumber back).1⟩,
          (takeNumber back).2) := by
  rw [takeLexeme_eq, openingOf_plain (by decide), if_pos (by decide)]
  rfl

/-- **Whether a number goes on as a fraction**: a point follows and then a
digit. -/
def isFraction (back : List Char) : Bool :=
  back.head? == some '.' && back.tail.head?.any Char.isDigit

/-- Where no word goes on behind a zero, a number goes on as a fraction
only. -/
theorem takeNumber_eq_nil_iff (h : back.head?.any Text.isWord = false) :
    (takeNumber back).1 = [] ↔ isFraction back = false := by
  cases back with
  | nil => exact iff_of_true rfl rfl
  | cons a back =>
    have hword : Text.isWord a = false := h
    have halnum : a.isAlphanum = false := by
      by_contra ha
      rw [Text.isWord_of_isAlphanum (by simpa using ha)] at hword
      cases hword
    have hlow : (a == '_') = false := by
      rw [beq_eq_false_iff_ne]
      rintro rfl
      exact absurd hword (by decide)
    have hgoes : continuesNumber a back = isFraction (a :: back) := by
      unfold continuesNumber isFraction
      split
      next hpoint => simp [hpoint]
      next hpoint => simp [halnum, hlow, beq_eq_false_iff_ne.2 hpoint]
    rw [takeNumber_cons, hgoes]
    cases isFraction (a :: back) with
    | true =>
      rw [if_pos rfl]
      exact iff_of_false (List.cons_ne_nil a (takeNumber back).1) (by decide)
    | false => exact iff_of_true rfl rfl

/-- The name that the word is, behind a text. -/
def nameAt (front : List Char) : Token :=
  ⟨⟨Text.size front, Text.size front + Text.size count⟩, .identifier⟩

/-- The number that the zero is, behind a text. -/
def zeroAt (front : List Char) : Token :=
  ⟨⟨Text.size front, Text.size front + Text.size ['0']⟩, .number⟩

/-- **A count is compared with zero at an offset**: the word stands there
and the zero behind the comparison, and each of them is a token. -/
def ComparesWithZero (file : SourceFile) (offset : Nat) : Prop :=
  ∃ front between back, Written file.text front between back ∧
    Text.size front = offset ∧ nameAt front ∈ file.tokens ∧
    zeroAt (front ++ (count ++ between)) ∈ file.tokens

namespace Written

theorem nameAt_mem_iff (h : Written file.text front between back)
    (hb : file.tokenizer = .basic) :
    nameAt front ∈ file.tokens
      ↔ crossing front (count ++ (between ++ '0' :: back)) = none := by
  have htext : file.text
      = front ++ 'c' :: (['o', 'u', 'n', 't'] ++ (between ++ '0' :: back)) :=
    h.text_eq
  unfold nameAt
  rw [SourceFile.mem_tokens_iff hb htext, takeLexeme_count h.compares]
  exact and_iff_left ⟨rfl, rfl⟩

/-- Then the zero begins at a border too. -/
theorem crossing_zero (h : Written file.text front between back)
    (hnone : crossing front (count ++ (between ++ '0' :: back)) = none) :
    crossing (front ++ (count ++ between)) ('0' :: back) = none := by
  have hcount : crossing (count ++ between) ('0' :: back)
      = crossing between ('0' :: back) := by
    have htake := takeLexeme_count h.compares ('0' :: back)
    rw [← List.append_assoc] at htake
    exact crossing_over htake
  have hinert := crossing_inert h.compares.isInert [] ('0' :: back)
  rw [List.append_nil, crossing_nil] at hinert
  rw [← List.append_assoc] at hnone
  rw [crossing_append _ hnone, hcount, hinert]

/-- And it is a number if that does not go on as a fraction. -/
theorem zeroAt_mem_iff (h : Written file.text front between back)
    (hb : file.tokenizer = .basic)
    (hnone : crossing front (count ++ (between ++ '0' :: back)) = none)
    (hends : back.head?.any Text.isWord = false) :
    zeroAt (front ++ (count ++ between)) ∈ file.tokens
      ↔ isFraction back = false := by
  have htext : file.text = front ++ (count ++ between) ++ '0' :: back := by
    rw [h.text_eq]
    simp
  unfold zeroAt
  rw [SourceFile.mem_tokens_iff hb htext, takeLexeme_zero,
    ← takeNumber_eq_nil_iff hends]
  constructor
  · rintro ⟨-, -, hsize⟩
    rw [Text.size_cons, Text.size_cons, Text.size_nil] at hsize
    exact Text.size_eq_zero (by omega)
  · intro hnil
    rw [hnil]
    exact ⟨h.crossing_zero hnone, rfl, rfl⟩

/-- **When a count is compared with zero** at the place of the word. -/
theorem comparesWithZero_iff (h : Written file.text front between back)
    (hb : file.tokenizer = .basic)
    (hends : back.head?.any Text.isWord = false) :
    ComparesWithZero file (Text.size front)
      ↔ crossing front (count ++ (between ++ '0' :: back)) = none ∧
        isFraction back = false := by
  constructor
  · rintro ⟨front', between', back', h', hsize, hname, hzero⟩
    obtain ⟨rfl, -⟩ :=
      Text.split_size_unique hsize (h'.text_eq.symm.trans h.text_eq)
    obtain ⟨rfl, rfl⟩ := h'.unique h
    have hnone := (h.nameAt_mem_iff hb).1 hname
    exact ⟨hnone, (h.zeroAt_mem_iff hb hnone hends).1 hzero⟩
  · rintro ⟨hnone, hfraction⟩
    exact ⟨front, between, back, h, rfl, (h.nameAt_mem_iff hb).2 hnone,
      (h.zeroAt_mem_iff hb hnone hends).2 hfraction⟩

end Written

/-! ## What is reported

A report is led back to the text it was made for, and the two exceptions are
then read off the tokens at the beginning of the word and at the zero. -/

/-- **What is reported begins with the word**, as the pattern takes it, and
the first token of it is a name. -/
theorem exists_written (h : v ∈ validate file) :
    ∃ front between back, Written file.text front between back ∧
      front.getLast?.any Text.isWord = false ∧
      back.head?.any Text.isWord = false ∧
      v = description.violationAt file (Text.size front) ∧
      keeps (file.matchAt ⟨Text.size front,
        Text.size (front ++ (count ++ (between ++ ['0'])))⟩) := by
  unfold validate SourceFile.matchesOf at h
  obtain ⟨m, hm, rfl⟩ := List.mem_map.1 h
  obtain ⟨hm, hkeeps⟩ := List.mem_filter.1 hm
  obtain ⟨o, ho, rfl⟩ := List.mem_map.1 hm
  obtain ⟨front, piece, back, taken, htext, htakes, rfl⟩ :=
    Pattern.exists_takes_of_mem not_takes_nil ho
  obtain ⟨between, hcompares, rfl, hbegins, hends⟩ := of_takes htakes
  exact ⟨front, between, back, ⟨by rw [htext]; simp, hcompares⟩, hbegins,
    hends, rfl, hkeeps⟩

/-- **A token that begins with a backquote.** -/
def IsQuoted (text : List Char) (t : Token) : Prop :=
  ∃ before piece after, t.Spells text before piece after ∧
    piece.head? = some '\x60'

/-- **Whether an edge of words may split a name**: a text ends with a
character that is in names and not in words. -/
def splitsName (front : List Char) : Bool :=
  front.getLast?.any fun c => Text.continuesName c && !Text.isWord c

/-- **Which names go over a place** that is not inside a word: those between
backquotes, and those that an edge of words splits. -/
theorem isQuoted_or_splitsName {t : Token} (ht : t ∈ tokenize (front ++ back))
    (hkind : t.kind = .identifier) (hstart : t.span.start < Text.size front)
    (hstop : Text.size front < t.span.stop)
    (hword : front.getLast?.any Text.isWord = false) :
    IsQuoted (front ++ back) t ∨ splitsName front := by
  obtain ⟨before, c, after, rfl, hlexeme, hlt, -, hspells⟩ :=
    exists_of_straddling ht hstart hstop
  have hfits := fits_openingOf c (after ++ back)
  rw [takeLexeme_eq] at hlexeme hlt hspells
  rw [hkind] at hlexeme
  cases ho : openingOf c (after ++ back) with
  | quotedName =>
    rw [ho] at hfits hspells
    obtain rfl : c = '\x60' := hfits
    exact .inl ⟨_, _, _, hspells, rfl⟩
  | name =>
    -- the run of the name reaches the place, so it has its last character
    rw [ho] at hlt hfits
    have hname : ∀ a ∈ c :: after, Text.continuesName a :=
      List.forall_mem_cons.2 ⟨Text.continuesName_of_startsName hfits,
        forall_mem_of_takeRun_lt hlt⟩
    have hne : c :: after ≠ [] := List.cons_ne_nil c after
    unfold splitsName
    rw [List.getLast?_append_of_ne_nil _ hne,
      List.getLast?_eq_some_getLast hne] at hword ⊢
    have hlast := hname _ (List.getLast_mem hne)
    refine .inr ?_
    rw [Option.any_some] at hword ⊢
    rw [hlast, hword]
    rfl
  | _ =>
    rw [ho] at hlexeme
    cases hlexeme

/-- A token that goes over the beginning of what is found is its first one,
and so it is a name. -/
theorem kind_of_straddling {t : Token} {stop : Nat}
    (hb : file.tokenizer = .basic) (htext : file.text = front ++ back)
    (hkeeps : keeps (file.matchAt ⟨Text.size front, stop⟩))
    (hlt : Text.size front < stop) (ht : t ∈ tokenize (front ++ back))
    (hstart : t.span.start < Text.size front)
    (hstop : Text.size front < t.span.stop) : t.kind = .identifier := by
  obtain ⟨_, _, _, _, _, _, hcross, _⟩ := exists_of_straddling ht hstart hstop
  obtain ⟨first, more, htokens, hkind⟩ :=
    SourceFile.tokensIn_of_crossing hb htext hcross stop hlt
  unfold keeps SourceMatch.startsWith SourceFile.matchAt at hkeeps
  rw [htokens] at hkeeps
  exact hkind.symm.trans (beq_iff_eq.1 hkeeps)

/-- **What is reported is a count that is compared with zero**, unless a
name began before the word or the number goes on as a fraction. Such a name
is one between backquotes, or one that the edge of the word splits. -/
theorem compares_iff (hb : file.tokenizer = .basic) (hv : v ∈ validate file) :
    ∃ front between back, Written file.text front between back ∧
      v.location.offset = Text.size front ∧
      (ComparesWithZero file v.location.offset
        ↔ (∀ t ∈ file.tokens, ¬ (t.span.start < Text.size front ∧
            Text.size front < t.span.stop)) ∧ isFraction back = false) ∧
      ∀ t ∈ file.tokens, t.span.start < Text.size front →
        Text.size front < t.span.stop →
          t.kind = .identifier ∧ (IsQuoted file.text t ∨ splitsName front) := by
  obtain ⟨front, between, back, h, hbegins, hends, rfl, hkeeps⟩ :=
    exists_written hv
  have hoffset := description.offset_violationAt h.text_eq
  have hpos : 0 < Text.size (count ++ (between ++ ['0'])) :=
    Text.size_pos (List.cons_ne_nil 'c' _)
  refine ⟨front, between, back, h, hoffset, ?_, fun t ht hstart hstop => ?_⟩
  · rw [hoffset, h.comparesWithZero_iff hb hends,
      SourceFile.crossing_eq_none_iff hb h.text_eq]
  rw [SourceFile.tokens_of_basic hb, h.text_eq] at ht
  have hname := kind_of_straddling hb h.text_eq hkeeps
    (by rw [Text.size_append]; omega) ht hstart hstop
  rw [h.text_eq]
  exact ⟨hname, isQuoted_or_splitsName ht hname hstart hstop hbegins⟩

/-- A comparison that is reported, of a count with zero. -/
theorem compares_iff_unequal :
    let file := SourceFile.ofContents "items.count != 0"
    description.violationAt file 6 ∈ validate file ∧
      ComparesWithZero file 6 := by
  intro file
  have hwritten : Written file.text "items.".toList " != ".toList [] :=
    ⟨by decide +kernel, [' '], ['!', '='], [' '], by decide, by decide,
      by decide, by decide⟩
  have hv : description.violationAt file 6 ∈ validate file := by
    decide +kernel
  obtain ⟨front, between, back, h, hoffset, hiff, -⟩ := compares_iff rfl hv
  -- there is one way only to divide the text at this offset
  obtain ⟨rfl, -⟩ := Text.split_size_unique hoffset.symm
    (h.text_eq.symm.trans hwritten.text_eq)
  obtain ⟨-, rfl⟩ := h.unique hwritten
  exact ⟨hv, hiff.2 ⟨by decide +kernel, rfl⟩⟩

/-- **Comparisons that are reported and compare no count with zero**: one
with a half, one inside a name between backquotes, and one whose word is the
end of a name with a superscript digit. -/
theorem reports_other_comparisons :
    let half := SourceFile.ofContents "count > 0.5"
    let quoted := SourceFile.ofContents "\x60a count == 0\x60"
    let square := SourceFile.ofContents "a²count == 0"
    (∃ v ∈ validate half, ¬ ComparesWithZero half v.location.offset) ∧
    (∃ v ∈ validate quoted, ¬ ComparesWithZero quoted v.location.offset) ∧
    ∃ v ∈ validate square, ¬ ComparesWithZero square v.location.offset := by
  intro half quoted square
  have hequal : IsComparison " == ".toList :=
    ⟨[' '], ['=', '='], [' '], by decide, by decide, by decide, by decide⟩
  have hhalf : Written half.text [] " > ".toList ".5".toList :=
    ⟨by decide +kernel, [' '], ['>'], [' '], by decide, by decide,
      by decide, by decide⟩
  have hquoted : Written quoted.text "\x60a ".toList " == ".toList ['\x60'] :=
    ⟨by decide +kernel, hequal⟩
  have hsquare : Written square.text "a²".toList " == ".toList [] :=
    ⟨by decide +kernel, hequal⟩
  refine ⟨⟨description.violationAt half 0, by decide +kernel, fun h => ?_⟩,
    ⟨description.violationAt quoted 3, by decide +kernel, fun h => ?_⟩,
    ⟨description.violationAt square 3, by decide +kernel, fun h => ?_⟩⟩
  · have hfraction := ((hhalf.comparesWithZero_iff rfl (by decide)).1 h).2
    exact absurd hfraction (by decide)
  · have hborder := ((hquoted.comparesWithZero_iff rfl (by decide)).1 h).1
    exact absurd hborder (by decide +kernel)
  · have hborder := ((hsquare.comparesWithZero_iff rfl (by decide)).1 h).1
    exact absurd hborder (by decide +kernel)

end SwiftStyle.EmptyCount
