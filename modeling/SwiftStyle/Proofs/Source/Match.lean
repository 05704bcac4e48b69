import SwiftStyle.Proofs.Token.Tokens
import SwiftStyle.Source.Match

/-!
# The tokens of a stretch

The tokens of a stretch of a file are found by their offsets. With the
lexical classifier they are what the lexemes of the text say: the first
token of a stretch that begins inside a token is that token, and the
tokens of a stretch that begins at a border are the first tokens of the
text behind the border (`tokensIn_of_crossing`, `tokensIn_of_border`).

The words of a file are those of its text (`SourceFile.words_eq`).

A place of a text is a border between tokens, or it is crossed by one, and
`crossing` says of which kind that is. It is a property of the text before
the place and of the text behind it, and mentions no file and no offset; the
lemmas here say what it means for the tokens that a file holds, in both
directions. The proofs about rules are about `crossing` as far as they can be.
-/

namespace SwiftStyle

open Lexeme

variable {front back : List Char}

theorem Token.overlaps_iff {t : Token} {span : Span} :
    t.overlaps span
      ↔ t.span.start < span.stop ∧ span.start < t.span.stop := by
  unfold Token.overlaps Span.overlaps
  rw [Bool.and_eq_true, decide_eq_true_eq, decide_eq_true_eq]

namespace SourceFile

variable {file : SourceFile} {middle : List Char}

theorem tokens_of_basic (hb : file.tokenizer = .basic) :
    file.tokens = Lexeme.tokens 0 (lexemes file.text) := by
  rw [file.tokens_eq, hb, file.text_eq]
  rfl

theorem mem_of_mem_tokensIn {t : Token} {span : Span}
    (h : t ∈ file.tokensIn span) : t ∈ file.tokens :=
  (List.dropWhile_sublist _).mem ((List.takeWhile_sublist _).mem h)

/-- A lexeme that begins at a border is a token if it has a kind. -/
theorem mem_tokens_of_border (hb : file.tokenizer = .basic) {c : Char}
    {rest : List Char} {kind : Token.Kind}
    (htext : file.text = front ++ c :: rest)
    (h : crossing front (c :: rest) = none)
    (hkind : (takeLexeme c rest).1.kind = some kind) :
    ⟨⟨Text.size front,
      Text.size front + Text.size (takeLexeme c rest).1.text⟩, kind⟩
        ∈ file.tokens := by
  rw [tokens_of_basic hb, htext]
  exact mem_tokenize_of_border h hkind

/-- Which token begins at a place. -/
theorem mem_tokens_iff (hb : file.tokenizer = .basic) {c : Char}
    {rest : List Char} {kind : Token.Kind} {stop : Nat}
    (htext : file.text = front ++ c :: rest) :
    ⟨⟨Text.size front, stop⟩, kind⟩ ∈ file.tokens
      ↔ crossing front (c :: rest) = none ∧
        (takeLexeme c rest).1.kind = some kind ∧
        stop = Text.size front + Text.size (takeLexeme c rest).1.text := by
  rw [tokens_of_basic hb, htext]
  exact mem_tokenize_iff

/-- **A border is a place that no token goes over.** -/
theorem crossing_eq_none_iff (hb : file.tokenizer = .basic)
    (htext : file.text = front ++ back) :
    crossing front back = none
      ↔ ∀ t ∈ file.tokens, ¬ (t.span.start < Text.size front ∧
          Text.size front < t.span.stop) := by
  rw [tokens_of_basic hb, htext]
  constructor
  · rintro hnone t ht ⟨hstart, hstop⟩
    obtain ⟨before, c, after, -, -, -, hcross, -⟩ :=
      exists_of_straddling ht hstart hstop
    rw [hnone] at hcross
    cases hcross
  · intro h
    refine crossing_eq_none 0 fun t ht => ?_
    rw [Nat.zero_add]
    exact h t ht

/-- **The first token of a stretch that begins inside a token** is that
token. -/
theorem tokensIn_of_crossing (hb : file.tokenizer = .basic)
    {kind : Token.Kind} (htext : file.text = front ++ back)
    (h : crossing front back = some kind) (stop : Nat)
    (hstop : Text.size front < stop) :
    ∃ t rest, file.tokensIn ⟨Text.size front, stop⟩ = t :: rest ∧
      t.kind = kind := by
  obtain ⟨t, rest, hdrop, hkind, hstart, hend⟩ :=
    dropWhile_tokens_of_crossing 0 h
  rw [Nat.zero_add] at hdrop hstart hend
  unfold tokensIn
  rw [tokens_of_basic hb, htext, hdrop, List.takeWhile_cons_of_pos]
  · exact ⟨t, _, rfl, hkind⟩
  · exact Token.overlaps_iff.2 ⟨Nat.lt_trans hstart hstop, hend⟩

/-- **The tokens of a stretch that begins at a border** are the first
ones of the text behind the border. -/
theorem tokensIn_of_border (hb : file.tokenizer = .basic)
    (htext : file.text = front ++ back) (h : crossing front back = none)
    (stop : Nat) :
    file.tokensIn ⟨Text.size front, stop⟩
      = (Lexeme.tokens (Text.size front) (lexemes back)).takeWhile
          fun t => t.overlaps ⟨Text.size front, stop⟩ := by
  have hdrop := dropWhile_tokens_of_border 0 h
  rw [Nat.zero_add] at hdrop
  unfold tokensIn
  rw [tokens_of_basic hb, htext, hdrop]

/-- **The words of a file**: the kinds and the texts of its tokens. -/
def words (file : SourceFile) : List (Token.Kind × List Char) :=
  file.tokens.filterMap fun t =>
    (Text.slice? t.span.start t.span.stop file.text).map (t.kind, ·)

end SourceFile

/-- **The words of a file are the lexemes that have a kind.** -/
theorem SourceFile.words_eq (file : SourceFile)
    (hb : file.tokenizer = .basic) :
    file.words = SwiftStyle.words file.text := by
  have h := filterMap_tokens [] (lexemes file.text)
  rw [join_lexemes] at h
  unfold SourceFile.words
  rw [tokens_of_basic hb]
  exact h

end SwiftStyle
