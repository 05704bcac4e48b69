import SwiftStyle.Proofs.Rules.CollectionShorthand
import SwiftStyle.Proofs.Rules.StatementPosition
import SwiftStyle.Proofs.Source.Overlap

/-!
# Strings and comments are left alone

A match is judged by its first token alone. For the built-in corrections
this is enough to keep them out of every string and every comment, because
they are **readings of code** (`Reading.OfCode`): none of the characters
that they read begins a string or a comment, so one that shares a byte with
a match has begun before the match, and is its first token.

An edit changes nothing outside of its match. So the text of a string or a
comment stands in the corrected text as it is, between what becomes of the
text before it and what becomes of the text behind it
(`Substitution.rewriteFrom_append`).

The two halves are independent of each other. The first is about one match
and the tokens: where a token crosses the beginning of the match, the decision
to keep the match has looked at its kind; where none does, the tokens that
begin inside the match begin at characters that are read, and none of those
opens a literal. The second is about all edits and no token: it holds of any
stretch of text that no edit shares a byte with.
-/

namespace SwiftStyle

open Lexeme

variable {R : Reading} {s : Substitution} {file : SourceFile}
  {front piece written rest : List Char}

/-! ## Readings of code

What may share a byte with a piece has begun in it or before it. Inside the
piece no literal begins, by its characters, and one that began before it
crosses its first place, which is what the reading is asked about. -/

/-- **A reading of code**: no string and no comment begins in what it
reads, and nothing is replaced that begins in one. -/
structure Reading.OfCode (R : Reading) : Prop where
  /-- What is read opens nothing but names and numbers. -/
  plain : ∀ {piece written back}, R.reads piece written back →
    ∀ c ∈ piece, isPlain c
  /-- What is replaced does not begin in a string or a comment. -/
  outside : ∀ {kind back}, R.keeps kind back →
    kind.any Token.Kind.isLiteralText = false

/-- **What is replaced shares no byte with a string or a comment.** -/
theorem Reading.OfCode.apart (hR : R.OfCode)
    (hreads : R.reads piece written rest)
    (hkeeps : R.keeps (crossing front (piece ++ rest)) rest) {t : Token}
    (ht : t ∈ tokens 0 (lexemes (front ++ (piece ++ rest))))
    (hliteral : t.kind.isLiteralText) :
    t.span.stop ≤ Text.size front ∨
      Text.size (front ++ piece) ≤ t.span.start := by
  obtain ⟨before, c, after, htext, hnone, hkind, hspan⟩ :=
    exists_of_mem_tokens ht
  rw [hspan, Nat.zero_add, Nat.zero_add]
  dsimp only
  have hopens : ¬ isPlain c := by
    intro hc
    have h := not_isLiteral_takeLexeme hc after
    unfold isLiteral at h
    rw [hkind, Option.any_some, hliteral] at h
    cases h
  rcases List.append_eq_append_iff.1 htext with
    ⟨m, rfl, hm⟩ | ⟨m, rfl, hm⟩
  · -- the token begins behind the front: then behind the piece
    right
    rcases List.append_eq_append_iff.1 hm with ⟨k, rfl, -⟩ | ⟨k, rfl, hk⟩
    · simp only [Text.size_append]
      omega
    · cases k with
      | nil => rw [List.append_nil]
      | cons d k =>
        obtain ⟨rfl, -⟩ := List.cons.inj hk
        exact absurd (hR.plain hreads c (by simp)) hopens
  cases m with
  | nil =>
    -- the token would begin with the piece
    rw [List.append_nil]
    cases piece with
    | nil => exact .inr (Nat.le_of_eq (by rw [List.append_nil]))
    | cons d p =>
      obtain ⟨rfl, -⟩ := List.cons.inj hm
      exact absurd (hR.plain hreads c List.mem_cons_self) hopens
  | cons d m =>
    -- the token begins before the piece: then it ends there too
    left
    obtain ⟨rfl, rfl⟩ := List.cons.inj hm
    have hends : (piece ++ rest).length
        ≤ (takeLexeme c (m ++ (piece ++ rest))).2.length := by
      by_contra hlt
      have h := hR.outside hkeeps
      rw [crossing_from hnone (Nat.lt_of_not_le hlt)] at h
      exact absurd (hkind ▸ h) (by rw [Option.any_some, hliteral]; decide)
    have happ := text_takeLexeme_append c (m ++ (piece ++ rest))
    rw [← List.cons_append] at happ
    obtain ⟨k, hk, -⟩ := exists_append_of_length_le happ hends
    rw [hk]
    simp only [List.append_eq, Text.size_append]
    omega

theorem StatementPosition.ofCode : reading.OfCode where
  plain := by
    rintro _ _ _ ⟨gap, word, hgap, hword, rfl, -, -⟩
    rw [← List.cons_append]
    refine List.forall_mem_append.2
      ⟨fun c hc => isPlain_of_isInert (hgap.isInert c hc), ?_⟩
    rcases hword with rfl | rfl <;> decide
  outside := by
    rintro _ _ ⟨rfl, -⟩
    rfl

/-- What is read in long forms is code. -/
theorem CollectionShorthand.Form.ofCode (form : Form) :
    form.reading.OfCode where
  plain := by
    rintro _ _ _ ⟨lead, body, short, hlead, h, rfl, -⟩
    exact isPlain_piece hlead h
  outside h := h

/-! ## The text between two edits

Occurrences are separate, so a stretch that none of them touches parts them
into those before it and those behind it. The pass over the text is cut at the
same place. -/

theorem Occurrence.Separate.filter {text : List Char}
    {found : List Occurrence} (h : Separate text found)
    (p : Occurrence → Bool) : Separate text (found.filter p) :=
  ⟨h.ascending.filter p, h.disjoint.filter p,
    fun o ho => h.bounded o (List.mem_of_mem_filter ho)⟩

theorem Occurrence.Separate.forward {text : List Char}
    {found : List Occurrence} (h : Separate text found) {o : Occurrence}
    (ho : o ∈ found) : o.span.start ≤ o.span.stop := by
  obtain ⟨before, after, -, hstart, hstop⟩ :=
    Text.slice?_eq_some.1 (h.bounded o ho)
  rw [← hstart, ← hstop, Text.size_append]
  exact Nat.le_add_right ..

/-- A stretch that no occurrence shares a byte with parts them. -/
theorem Occurrence.Separate.exists_parts {text : List Char}
    {found : List Occurrence} (h : Separate text found) (span : Span)
    (hapart : ∀ o ∈ found,
      o.span.stop ≤ span.start ∨ span.stop ≤ o.span.start) :
    ∃ early late, found = early ++ late ∧
      (∀ o ∈ early, o.span.stop ≤ span.start) ∧
        ∀ o ∈ late, span.stop ≤ o.span.start := by
  have hparted : found.Pairwise fun o p =>
      decide (p.span.stop ≤ span.start) →
        decide (o.span.stop ≤ span.start) := by
    refine h.disjoint.imp_of_mem fun _ hp hop hbefore => ?_
    have := h.forward hp
    rw [decide_eq_true_eq] at hbefore ⊢
    omega
  refine ⟨found.takeWhile fun o => decide (o.span.stop ≤ span.start), _,
    List.takeWhile_append_dropWhile.symm, fun o ho => ?_, fun o ho => ?_⟩
  · rw [takeWhile_eq_filter hparted] at ho
    exact of_decide_eq_true (List.mem_filter.1 ho).2
  · rw [dropWhile_eq_filter hparted] at ho
    obtain ⟨ho, hbehind⟩ := List.mem_filter.1 ho
    exact (hapart o ho).resolve_left (by simpa using hbehind)

namespace Substitution

variable {before middle behind gap : List Char} {o : Occurrence}
  {early late : List Occurrence}

/-- What a pass over a text does at the next occurrence. -/
theorem rewriteFrom_cons (hstart : Text.size (before ++ gap) = o.span.start)
    (hstop : Text.size (before ++ gap ++ o.text) = o.span.stop)
    (late : List Occurrence) (rest : List Char) :
    s.rewriteFrom file (Text.size before) (o :: late)
        (gap ++ (o.text ++ rest))
      = gap ++ (s.written file o ++
          s.rewriteFrom file (Text.size (before ++ gap ++ o.text)) late
            rest) := by
  have hgap : o.span.start - Text.size before = Text.size gap := by
    rw [← hstart, Text.size_append, Nat.add_sub_cancel_left]
  have hpiece : o.span.stop - Text.size before
      = Text.size (gap ++ o.text) := by
    rw [← hstop, List.append_assoc, Text.size_append,
      Nat.add_sub_cancel_left]
  have hdrop : Text.dropBytes (Text.size (gap ++ o.text))
      (gap ++ (o.text ++ rest)) = rest := by
    rw [← List.append_assoc, Text.dropBytes_size_append]
  rw [rewriteFrom, hgap, hpiece, hdrop, Text.takeBytes_size_append, hstop]

/-- A pass over a text copies what stands before the first occurrence. -/
theorem rewriteFrom_behind
    (h : Occurrence.Separate (before ++ middle ++ behind) late)
    (hlate : ∀ o ∈ late, Text.size (before ++ middle) ≤ o.span.start) :
    s.rewriteFrom file (Text.size before) late (middle ++ behind)
      = middle ++
          s.rewriteFrom file (Text.size (before ++ middle)) late behind := by
  cases late with
  | nil => rfl
  | cons o late =>
    obtain ⟨gap, rest, rfl, hstart, hstop⟩ :=
      exists_gap h (hlate o List.mem_cons_self)
    rw [rewriteFrom_cons hstart hstop, ← List.append_assoc middle]
    rw [List.append_assoc before] at hstart hstop
    rw [rewriteFrom_cons hstart hstop]
    simp only [List.append_assoc]

/-- **What stands between the occurrences is copied**: a pass over a text
leaves it between what it makes of the text before it and of the text
behind it. -/
theorem rewriteFrom_append
    (h : Occurrence.Separate (before ++ (front ++ (middle ++ behind)))
      (early ++ late))
    (hbefore : ∀ o ∈ early, Text.size before ≤ o.span.start)
    (hearly : ∀ o ∈ early, o.span.stop ≤ Text.size (before ++ front))
    (hlate : ∀ o ∈ late,
      Text.size (before ++ front ++ middle) ≤ o.span.start) :
    s.rewriteFrom file (Text.size before) (early ++ late)
        (front ++ (middle ++ behind))
      = s.rewriteFrom file (Text.size before) early front ++ (middle ++
          s.rewriteFrom file (Text.size (before ++ front ++ middle)) late
            behind) := by
  induction early generalizing before front with
  | nil =>
    rw [List.append_assoc] at hlate ⊢
    have hassoc : before ++ (front ++ (middle ++ behind))
        = before ++ (front ++ middle) ++ behind := by simp
    rw [hassoc, List.nil_append] at h
    rw [List.nil_append, ← List.append_assoc front,
      rewriteFrom_behind h hlate, List.append_assoc]
    rfl
  | cons o early ih =>
    obtain ⟨gap, rest, hgap, hstart, hstop⟩ :=
      exists_gap h (hbefore o List.mem_cons_self)
    -- the occurrence ends before the middle
    obtain ⟨m, hm, rfl⟩ := Text.exists_append_of_size_le
      (show before ++ gap ++ o.text ++ rest
          = before ++ front ++ (middle ++ behind) by
        simp only [List.append_assoc, hgap])
      (hstop ▸ hearly o List.mem_cons_self)
    obtain rfl : front = gap ++ (o.text ++ m) := by
      simpa using hm
    have hassoc : before ++ (gap ++ (o.text ++ m))
        = before ++ gap ++ o.text ++ m := by simp
    have htext : before ++ (gap ++ (o.text ++ m) ++ (middle ++ behind))
        = before ++ gap ++ o.text ++ (m ++ (middle ++ behind)) := by simp
    rw [hassoc] at hearly hlate ⊢
    rw [htext] at h
    rw [hgap, List.cons_append, rewriteFrom_cons hstart hstop,
      rewriteFrom_cons hstart hstop, ih h.of_cons ?_
        (fun p hp => hearly p (List.mem_cons_of_mem o hp)) hlate]
    · simp only [List.append_assoc]
    · intro p hp
      rw [hstop]
      exact (List.pairwise_cons.1 h.disjoint).1 p (List.mem_append_left _ hp)

namespace Performs

/-- **A match that is kept shares no byte with a string or a comment.** -/
theorem apart_of_keep (hs : s.Performs R) (hR : R.Lawful) (hcode : R.OfCode)
    (hb : file.tokenizer = .basic) {m : SourceMatch}
    (hm : m ∈ file.matchesOf s.pattern) (hkeep : s.keep m) {t : Token}
    (ht : t ∈ file.tokens) (hliteral : t.kind.isLiteralText) :
    t.span.stop ≤ m.span.start ∨ m.span.stop ≤ t.span.start := by
  have hkept : m ∈ (file.matchesOf s.pattern).filter s.keep :=
    List.mem_filter.2 ⟨hm, hkeep⟩
  rw [hs.filter_matchesOf hR] at hkept
  obtain ⟨e, he, rfl⟩ := List.mem_map.1 hkept
  obtain ⟨front, piece, rest, htext, hreads, hkeeps, hspan⟩ :=
    hs.exists_of_mem_edits hR hb he
  rw [file.tokens_of_basic hb, htext] at ht
  show t.span.stop ≤ e.span.start ∨ e.span.stop ≤ t.span.start
  rw [hspan]
  exact hcode.apart hreads hkeeps ht hliteral

end Performs

/-- **A stretch that no edit touches** is copied, between what becomes of
the text before it and of the text behind it. -/
theorem exists_rewriteFrom (htext : file.text = front ++ (middle ++ behind))
    (hapart : ∀ o ∈ s.pattern.occurrences file.text, s.replaces file o →
      o.span.stop ≤ Text.size front ∨
        Text.size (front ++ middle) ≤ o.span.start) :
    ∃ early late,
      (s.pattern.occurrences file.text).filter (s.replaces file)
        = early ++ late ∧
      Edit.applyAll (s.edits file) file.text
        = s.rewriteFrom file 0 early front ++ (middle ++
            s.rewriteFrom file (Text.size (front ++ middle)) late
              behind) := by
  have hseparate := (s.pattern.separate_occurrences file.text).filter
    (s.replaces file)
  obtain ⟨early, late, hparts, hearly, hlate⟩ := hseparate.exists_parts
    ⟨Text.size front, Text.size (front ++ middle)⟩ fun o ho =>
      hapart o (List.mem_filter.1 ho).1 (List.mem_filter.1 ho).2
  refine ⟨early, late, hparts, ?_⟩
  have hedits : s.edits file = s.editsOf file (early ++ late) := by
    unfold edits
    rw [← hparts, editsOf_eq, editsOf_eq, List.filter_filter]
    simp only [Bool.and_self]
  have hempty : Occurrence.Separate ([] ++ (front ++ (middle ++ behind)))
      (early ++ late) := hparts ▸ htext ▸ hseparate
  rw [hedits, htext]
  exact (applyAll_editsOf hempty fun o _ => Nat.zero_le _).trans
    (rewriteFrom_append hempty (fun o _ => Nat.zero_le _) hearly hlate)

end Substitution

/-! ## The built-in corrections

Both halves are put together for a substitution that performs a reading of
code, so nothing here depends on which of the three patterns is meant. -/

/-- The built-in corrections are readings of code. -/
theorem exists_ofCode (hs : s = StatementPosition.substitution ∨
    s ∈ CollectionShorthand.substitutions) :
    ∃ R : Reading, s.Performs R ∧ R.Lawful ∧ R.OfCode := by
  have hform : ∀ form : CollectionShorthand.Form, ∃ R : Reading,
      form.substitution.Performs R ∧ R.Lawful ∧ R.OfCode := fun form =>
    ⟨form.reading, form.performs, form.lawful, form.ofCode⟩
  unfold CollectionShorthand.substitutions at hs
  rw [List.mem_pair] at hs
  rcases hs with rfl | rfl | rfl
  · exact ⟨StatementPosition.reading, StatementPosition.performs,
      StatementPosition.lawful, StatementPosition.ofCode⟩
  · exact hform .array
  · exact hform .dictionary

/-- **The built-in corrections leave strings and comments alone.** A match
that is kept shares no byte with any of them, and in the corrected text
each stands as it is, between what became of the text before it and what
became of the text behind it. -/
theorem corrections_spare_literals (hb : file.tokenizer = .basic)
    (hs : s = StatementPosition.substitution ∨
      s ∈ CollectionShorthand.substitutions)
    (rule : RuleDescription) (disk : Disk) {t : Token}
    (ht : t ∈ file.tokens) (hliteral : t.kind.isLiteralText) :
    (∀ m ∈ file.matchesOf s.pattern, s.keep m →
      t.span.stop ≤ m.span.start ∨ m.span.stop ≤ t.span.start) ∧
    ∃ front word behind early late,
      file.text = front ++ (word ++ behind) ∧
      t.span = ⟨Text.size front, Text.size (front ++ word)⟩ ∧
      (s.pattern.occurrences file.text).filter (s.replaces file)
        = early ++ late ∧
      (s.apply rule file disk).result.contents.toList
        = s.rewriteFrom file 0 early front ++ (word ++
            s.rewriteFrom file t.span.stop late behind) := by
  obtain ⟨R, hperforms, hR, hcode⟩ := exists_ofCode hs
  have hapart : ∀ m ∈ file.matchesOf s.pattern, s.keep m →
      t.span.stop ≤ m.span.start ∨ m.span.stop ≤ t.span.start :=
    fun m hm hkeep => hperforms.apart_of_keep hR hcode hb hm hkeep ht hliteral
  refine ⟨hapart, ?_⟩
  rw [file.tokens_of_basic hb] at ht
  obtain ⟨front, c, after, htext, -, -, hspan⟩ := exists_of_mem_tokens ht
  rw [Nat.zero_add, Nat.zero_add] at hspan
  rw [← text_takeLexeme_append c after] at htext
  obtain ⟨early, late, hparts, happly⟩ := Substitution.exists_rewriteFrom
    (s := s) htext fun o ho hreplaced => by
      have := hapart (file.matchAt o.span) (List.mem_map.2 ⟨o, ho, rfl⟩)
        ((Bool.and_eq_true ..).mp hreplaced).1
      rw [hspan] at this
      exact this.symm
  refine ⟨front, _, _, early, late, htext, hspan, hparts, ?_⟩
  unfold Substitution.apply
  rw [Substitution.result_perform, hspan]
  exact (String.toList_ofList ..).trans happly

/-- A comment that holds a text like the one that is corrected before
it. -/
theorem corrections_spare_comment :
    let file := SourceFile.ofContents "\x7d\n else // \x7d  else"
    let comment : Token := ⟨⟨8, 18⟩, .comment⟩
    let m := file.matchAt ⟨0, 7⟩
    (comment ∈ file.tokens ∧ m ∈ file.matchesOf StatementPosition.pattern ∧
      StatementPosition.keeps m) ∧
    (comment.span.stop ≤ m.span.start ∨ m.span.stop ≤ comment.span.start) ∧
    (StatementPosition.substitution.apply StatementPosition.description file
      ⟨default, default, 0, fun _ => none⟩).result.contents
        = "\x7d else // \x7d  else" := by
  intro file comment m
  have ht : comment ∈ file.tokens := by decide +kernel
  have hm : m ∈ file.matchesOf StatementPosition.pattern := by decide +kernel
  have hkeep : StatementPosition.keeps m := by decide +kernel
  have h := corrections_spare_literals rfl (.inl rfl)
    StatementPosition.description ⟨default, default, 0, fun _ => none⟩ ht rfl
  exact ⟨⟨ht, hm, hkeep⟩, h.1 m hm hkeep, by decide +kernel⟩

end SwiftStyle
