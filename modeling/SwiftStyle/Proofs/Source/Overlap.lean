import SwiftStyle.Proofs.Source.Match
import SwiftStyle.Rules.StatementPosition

/-!
# The tokens that share a byte with a stretch

The tokens of a stretch of a file are looked for at two places only: the
tokens that end at or before the stretch are passed over, and those behind
them are taken as long as they overlap it. With tokens in their **order**
(`Token.Orderly`) these are exactly the tokens that overlap the stretch,
whatever the stretch is: empty, reversed, or past the end of the text. The
order also parts the tokens at the place where the search begins, so that
it may be found by halving.

A file never shows the tokens of another text. What its text and its
classifier are is told by the changes that it went through
(`SourceFile.Reached`), and a save that fails is a change too: it leaves
the file with the contents that could not be saved.

Both halves of the search are one lemma about lists: where a question is
answered by yes and then by no, to take or to drop while it is yes is to
filter. For the first question, whether a token ends at or before the stretch,
the order of the ends is enough. The second, whether it overlaps the stretch,
is of this sort only among the tokens that the first has left, since a token
that ends before the stretch does not overlap it either.
-/

namespace SwiftStyle

/-- Where a question is answered by yes and then by no, the first part of
a list is all of it that is answered by yes. -/
theorem takeWhile_eq_filter {α : Type} {p : α → Bool} {l : List α}
    (h : l.Pairwise fun a b => p b → p a) :
    l.takeWhile p = l.filter p := by
  induction h with
  | nil => rfl
  | @cons a l ha _ ih =>
    by_cases hp : p a
    · rw [List.takeWhile_cons_of_pos hp, List.filter_cons_of_pos hp, ih]
    · rw [List.takeWhile_cons_of_neg hp, List.filter_cons_of_neg hp, eq_comm,
        List.filter_eq_nil_iff]
      exact fun b hb hpb => hp (ha b hb hpb)

/-- And the rest of the list is all of it that is answered by no. -/
theorem dropWhile_eq_filter {α : Type} {p : α → Bool} {l : List α}
    (h : l.Pairwise fun a b => p b → p a) :
    l.dropWhile p = l.filter fun a => !p a := by
  induction h with
  | nil => rfl
  | @cons a l ha _ ih =>
    by_cases hp : p a
    · rw [List.dropWhile_cons_of_pos hp, ih, List.filter_cons_of_neg]
      simpa using hp
    · rw [List.dropWhile_cons_of_neg hp, eq_comm, List.filter_eq_self]
      refine List.forall_mem_cons.2 ⟨by simpa using hp, fun b hb => ?_⟩
      simpa using fun hpb => hp (ha b hb hpb)

/-- **Tokens in their order**: none ends before it begins, and each ends
where the next begins, or before. Empty tokens are allowed, and nothing is
said about the text. -/
structure Token.Orderly (tokens : List Token) : Prop where
  /-- Each token ends where the next begins, or before. -/
  ordered : tokens.Pairwise fun t u => t.span.stop ≤ u.span.start
  /-- No token ends before it begins. -/
  forward : ∀ t ∈ tokens, t.span.start ≤ t.span.stop

/-- A tokenizer that answers with tokens in their order. -/
def Tokenizer.Orderly (t : Tokenizer) : Prop :=
  ∀ text, Token.Orderly (t.tokenize text)

/-- Tokens that classify a text are in their order. -/
theorem Tokenizer.Lawful.orderly {t : Tokenizer} (h : t.Lawful) :
    t.Orderly := fun text =>
  ⟨(h text).ordered, fun u hu => Nat.le_of_lt ((h text).nonempty u hu)⟩

namespace Token.Orderly

variable {tokens : List Token}

/-- What stands behind a token in the order. -/
theorem pairwise (h : Orderly tokens) :
    tokens.Pairwise fun t u =>
      t.span.start ≤ t.span.stop ∧ t.span.stop ≤ u.span.start ∧
        u.span.start ≤ u.span.stop :=
  h.ordered.imp_of_mem fun ht hu htu =>
    ⟨h.forward _ ht, htu, h.forward _ hu⟩

/-- The tokens that end at or before an offset stand before those that do
not. -/
theorem parted (h : Orderly tokens) (offset : Nat) :
    tokens.Pairwise fun t u =>
      decide (u.span.stop ≤ offset) → decide (t.span.stop ≤ offset) := by
  refine h.pairwise.imp fun ⟨_, htu, hu⟩ hpassed => ?_
  rw [decide_eq_true_eq] at hpassed ⊢
  omega

/-- Of the tokens that end behind the begin of a stretch, those that
overlap it stand before those that do not. -/
theorem overlapping (h : Orderly tokens) {span : Span}
    (hlater : ∀ t ∈ tokens, span.start < t.span.stop) :
    tokens.Pairwise fun t u => u.overlaps span → t.overlaps span := by
  refine h.pairwise.imp_of_mem fun ht _ ⟨hforward, htu, _⟩ hu => ?_
  have := hlater _ ht
  rw [overlaps_iff] at hu ⊢
  omega

theorem filter (h : Orderly tokens) (p : Token → Bool) :
    Orderly (tokens.filter p) :=
  ⟨h.ordered.filter p, fun t ht => h.forward t (List.mem_filter.1 ht).1⟩

/-- **The tokens that overlap a stretch** are found by passing over those
before it. -/
theorem takeWhile_dropWhile (h : Orderly tokens) (span : Span) :
    (tokens.dropWhile fun t => decide (t.span.stop ≤ span.start)).takeWhile
        (·.overlaps span)
      = tokens.filter (·.overlaps span) := by
  have hlater : ∀ t ∈ tokens.filter
      (fun t => !decide (t.span.stop ≤ span.start)),
      span.start < t.span.stop := by
    intro t ht
    simpa using (List.mem_filter.1 ht).2
  -- both scans are filters, and the second implies the first
  rw [dropWhile_eq_filter (h.parted span.start),
    takeWhile_eq_filter ((h.filter _).overlapping hlater), List.filter_filter]
  refine List.filter_congr fun t _ => ?_
  rw [Bool.and_eq_left_iff_imp, overlaps_iff]
  rintro ⟨-, hbehind⟩
  simpa using hbehind

end Token.Orderly

namespace SourceFile

/-- **The files that there are**, each with the tokenizer and the contents
that it was given last. Every tokenizer keeps the order of tokens. -/
inductive Reached : Tokenizer → String → SourceFile → Prop
  /-- A file begins in memory, with the lexical classifier. -/
  | ofContents (contents : String) :
      Reached .basic contents (.ofContents contents)
  /-- It is given a path. -/
  | withPath {tokenizer contents file} (path : Path)
      (h : Reached tokenizer contents file) :
      Reached tokenizer contents (file.withPath path)
  /-- It is given another tokenizer. -/
  | withTokenizer {tokenizer contents file} {other : Tokenizer}
      (hother : other.Orderly) (h : Reached tokenizer contents file) :
      Reached other contents (file.withTokenizer other)
  /-- It is given other contents. -/
  | setContents {tokenizer contents file} (later : String)
      (h : Reached tokenizer contents file) :
      Reached tokenizer later (file.setContents later)
  /-- It is given other contents that are saved, or not. -/
  | write {tokenizer contents file} (disk : Disk) (later : String)
      (h : Reached tokenizer contents file) :
      Reached tokenizer later (file.write disk later).1

namespace Reached

variable {file : SourceFile} {tokenizer : Tokenizer} {contents : String}

theorem given (h : Reached tokenizer contents file) :
    file.tokenizer = tokenizer ∧ file.contents = contents := by
  induction h with
  | ofContents contents => exact ⟨rfl, rfl⟩
  | withPath path h ih => exact ih
  | withTokenizer hother h ih => exact ⟨rfl, ih.2⟩
  | setContents later h ih => exact ⟨ih.1, rfl⟩
  | write disk later h ih =>
    rw [write_fst]
    exact ⟨ih.1, rfl⟩

theorem orderly (h : Reached tokenizer contents file) :
    tokenizer.Orderly := by
  induction h with
  | ofContents contents => exact Tokenizer.lawful_basic.orderly
  | withPath path h ih => exact ih
  | withTokenizer hother h ih => exact hother
  | setContents later h ih => exact ih
  | write disk later h ih => exact ih

/-- The tokens of a file are those of the contents that it was given
last. -/
theorem tokens_eq (h : Reached tokenizer contents file) :
    file.tokens = tokenizer.tokenize contents := by
  rw [file.tokens_eq, h.given.1, h.given.2]

/-- The tokens of a stretch are all that overlap it. -/
theorem tokensIn_eq (h : Reached tokenizer contents file) (span : Span) :
    file.tokensIn span
      = (tokenizer.tokenize contents).filter (·.overlaps span) := by
  unfold tokensIn
  rw [h.tokens_eq]
  exact (h.orderly contents).takeWhile_dropWhile span

/-- **The tokens of a stretch and of a match are those that overlap it.**
Of every stretch, the search by halving has a place to find: the tokens
before it end at or before the stretch, those behind it do not, and there
the answer begins. -/
theorem overlaps_exactly (h : Reached tokenizer contents file) :
    (∀ span : Span,
      file.tokensIn span
        = (tokenizer.tokenize contents).filter (·.overlaps span) ∧
      ∃ passed later, file.tokens = passed ++ later ∧
        (∀ t ∈ passed, t.span.stop ≤ span.start) ∧
        (∀ t ∈ later, span.start < t.span.stop) ∧
        file.tokensIn span = later.takeWhile (·.overlaps span)) ∧
    ∀ pattern, ∀ m ∈ file.matchesOf pattern,
      m.tokens
        = (tokenizer.tokenize contents).filter (·.overlaps m.span) := by
  refine ⟨fun span => ⟨h.tokensIn_eq span, ?_⟩, fun pattern m hm => ?_⟩
  · have hparted := (h.tokens_eq ▸ h.orderly contents).parted span.start
    refine ⟨_, _, List.takeWhile_append_dropWhile.symm, fun t ht => ?_,
      fun t ht => ?_, rfl⟩
    · rw [takeWhile_eq_filter hparted] at ht
      exact of_decide_eq_true (List.mem_filter.1 ht).2
    · rw [dropWhile_eq_filter hparted] at ht
      simpa using (List.mem_filter.1 ht).2
  · obtain ⟨o, -, rfl⟩ := List.mem_map.1 hm
    exact h.tokensIn_eq o.span

end Reached

/-- After a save that failed: a reversed stretch inside a token overlaps
it, an empty one at its edge does not, and a match has its keyword. -/
theorem overlaps_exactly_unsaved :
    let disk : Disk := ⟨default, default, 0, fun _ => none⟩
    let file := (((ofContents "/*").setContents "\"").withPath
      ⟨"/gone/a"⟩).withTokenizer Tokenizer.basic
    let result := file.write disk "a bcde \x7d\n else"
    result.2.1.isOk = false ∧
    result.1.tokensIn ⟨5, 3⟩ = [⟨⟨2, 6⟩, .identifier⟩] ∧
    result.1.tokensIn ⟨2, 2⟩ = [] ∧
    ∃ m ∈ result.1.matchesOf StatementPosition.pattern,
      m.span = ⟨7, 14⟩ ∧ m.tokens = [⟨⟨10, 14⟩, .keyword⟩] := by
  intro disk file result
  have h : Reached .basic "a bcde \x7d\n else" result.1 :=
    .write disk _ (.withTokenizer Tokenizer.lawful_basic.orderly
      (.withPath _ (.setContents _ (.ofContents _))))
  obtain ⟨hspans, hmatches⟩ := h.overlaps_exactly
  have hm : result.1.matchAt ⟨7, 14⟩
      ∈ result.1.matchesOf StatementPosition.pattern := by decide +kernel
  refine ⟨by decide +kernel, (hspans _).1.trans (by decide +kernel),
    (hspans _).1.trans (by decide +kernel), _, hm, rfl, ?_⟩
  exact (hmatches _ _ hm).trans (by decide +kernel)

end SourceFile
end SwiftStyle
