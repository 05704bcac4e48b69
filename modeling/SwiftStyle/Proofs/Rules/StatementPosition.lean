import SwiftStyle.Proofs.Rules.StatementReading
import SwiftStyle.Proofs.Source.Reading

/-!
# The position of statements is corrected once and for all

A match begins with a brace and ends with a keyword, and it is kept if its
first token is a keyword. The brace and the gap lie in no token where the
match begins at a border, so this token is the keyword of the match, or a name
that begins with it (`tokensIn_match`). Where the match does not begin at a
border, what crosses the brace is a string, a comment or a name between
backquotes, and no match is kept. Both together say that the substitution does
what the reading says (`performs`).

A correction takes white space away and puts one space in its place, between a
brace and a keyword that is a token. Neither the brace nor white space goes on
in a token, so the corrections are steady, and no token of the text is changed
by them but its offset (`words_edit`).

The rest follows as for any lawful reading: the
rewritten text has nothing to correct, so the rule reports nothing of it and
does not correct it again; and there are as many corrections as violations,
because every match that is kept is written otherwise than it was
(`corrects_correct`).
-/

namespace SwiftStyle.StatementPosition

variable {file : SourceFile} {front piece rest back gap word : List Char}

theorem IsKeyword.takeLexeme (h : IsKeyword word) (back : List Char) :
    ∃ c more, word = c :: more ∧
      Lexeme.takeLexeme c (more ++ back)
        = (⟨some (if Token.isReserved
              (word ++ (Lexeme.takeRun Text.continuesName back).1)
            then .keyword else .identifier),
            word ++ (Lexeme.takeRun Text.continuesName back).1⟩,
          (Lexeme.takeRun Text.continuesName back).2) := by
  rcases h with rfl | rfl
  · refine ⟨'e', _, rfl, ?_⟩
    rw [takeLexeme_name (by decide) (by decide) (by decide),
      Lexeme.takeRun_append (by decide)]
    rfl
  · refine ⟨'c', _, rfl, ?_⟩
    rw [takeLexeme_name (by decide) (by decide) (by decide),
      Lexeme.takeRun_append (by decide)]
    rfl

/-- The reserved words are made of word characters. -/
theorem isWord_of_isReserved {text : List Char}
    (h : Token.isReserved text) : ∀ c ∈ text, Text.isWord c := by
  obtain ⟨word, hword, heq⟩ := List.any_eq_true.1 h
  have hall : ∀ word ∈ Token.reserved, ∀ c ∈ word.toList, Text.isWord c := by
    decide +kernel
  obtain rfl : word.toList = text := by simpa using heq
  exact hall word hword

/-- A keyword is reserved unless the name goes on behind it. -/
theorem IsKeyword.isReserved (h : IsKeyword word)
    (hback : back.head?.any Text.isWord = false) :
    Token.isReserved (word ++ (Lexeme.takeRun Text.continuesName back).1)
      = !back.head?.any Text.continuesName := by
  cases back with
  | nil => rcases h with rfl | rfl <;> decide
  | cons c back =>
    rw [List.head?_cons, Option.any_some] at hback ⊢
    rw [Lexeme.takeRun_cons]
    cases hc : Text.continuesName c with
    | false =>
      rw [if_neg (by decide), List.append_nil]
      rcases h with rfl | rfl <;> decide
    | true =>
      rw [if_pos rfl, Bool.not_true, ← Bool.not_eq_true]
      intro hres
      rw [isWord_of_isReserved hres c
        (List.mem_append_right _ List.mem_cons_self)] at hback
      cases hback

/-- A brace and a gap are inert. -/
theorem IsGap.isInert (h : IsGap gap) : ∀ c ∈ '\x7d' :: gap, isInert c :=
  List.forall_mem_cons.2 ⟨by decide,
    fun c hc => isInert_of_isBlank (h.isBlank c hc)⟩

/-- **The tokens of a match that begins at a border**: the first is the
keyword, or the name that begins with it. -/
theorem tokensIn_match (hb : file.tokenizer = .basic)
    (hgap : IsGap gap) (hword : IsKeyword word)
    (htext : file.text = front ++ ('\x7d' :: (gap ++ word) ++ rest))
    (hrest : rest.head?.any Text.isWord = false)
    (hnone : crossing front ('\x7d' :: (gap ++ word) ++ rest) = none) :
    ∃ more, file.tokensIn ⟨Text.size front,
        Text.size (front ++ '\x7d' :: (gap ++ word))⟩
      = ⟨⟨Text.size (front ++ '\x7d' :: gap),
            Text.size (front ++ '\x7d' :: gap) + Text.size
              (word ++ (Lexeme.takeRun Text.continuesName rest).1)⟩,
          if rest.head?.any Text.continuesName then .identifier
          else .keyword⟩ :: more := by
  obtain ⟨c, more, rfl, htake⟩ := hword.takeLexeme rest
  rw [hword.isReserved hrest] at htake
  have hpiece : '\x7d' :: (gap ++ c :: more) ++ rest
      = '\x7d' :: gap ++ c :: (more ++ rest) := by simp
  have hsize : Text.size (front ++ '\x7d' :: (gap ++ c :: more))
      = Text.size (front ++ '\x7d' :: gap) + Text.size (c :: more) := by
    rw [← Text.size_append]
    simp
  have hpos := Text.size_pos (List.cons_ne_nil c more)
  rw [file.tokensIn_of_border hb htext hnone, hpiece,
    tokens_inert hgap.isInert, lexemes_cons, htake, Lexeme.tokens_cons,
    ← Text.size_append, hsize]
  unfold Lexeme.token?
  rw [Option.map_some, Option.toList_some, List.singleton_append,
    List.takeWhile_cons_of_pos]
  · refine ⟨_, congrArg (· :: _) (congrArg (Token.mk _) ?_)⟩
    cases rest.head?.any Text.continuesName <;> rfl
  · rw [Token.overlaps_iff]
    dsimp only
    rw [Text.size_append (c :: more), Text.size_append front]
    omega

/-- A match is kept if it begins at a border and its keyword is one. -/
theorem keeps_iff (hb : file.tokenizer = .basic)
    (htext : file.text = front ++ (piece ++ rest)) {written : List Char}
    (hreads : reading.reads piece written rest) :
    keeps (file.matchAt ⟨Text.size front, Text.size (front ++ piece)⟩)
      ↔ reading.keeps (crossing front (piece ++ rest)) rest := by
  obtain ⟨gap, word, hgap, hword, rfl, -, hrest⟩ := hreads
  unfold keeps SourceMatch.startsWith SourceFile.matchAt
  dsimp only
  cases hcross : crossing front ('\x7d' :: (gap ++ word) ++ rest) with
  | none =>
    obtain ⟨more, htokens⟩ :=
      tokensIn_match hb hgap hword htext hrest hcross
    rw [htokens, List.head?_cons, Option.any_some]
    unfold reading
    dsimp only
    cases rest.head?.any Text.continuesName <;> simp
  | some kind =>
    obtain ⟨t, more, htokens, rfl⟩ := file.tokensIn_of_crossing hb htext
      hcross (Text.size (front ++ '\x7d' :: (gap ++ word))) (by
        rw [Text.size_append]
        exact Nat.lt_add_of_pos_right (Text.size_pos (List.cons_ne_nil _ _)))
    rw [htokens, List.head?_cons, Option.any_some]
    -- what crosses a brace is no keyword, and it is the first token
    constructor
    · intro hkind
      rcases crossing_cases (by decide) hcross with hlit | ⟨hid, -⟩
      · rw [beq_iff_eq.1 hkind] at hlit
        cases hlit
      · rw [beq_iff_eq.1 hkind] at hid
        cases hid
    · rintro ⟨h, -⟩
      cases h

/-- The template writes a brace, a space and the keyword. -/
theorem expand_template (o : Occurrence) :
    substitution.template.expand o
      = '\x7d' :: ' ' ::
          ((o.groups.find? fun g => g.number == 1).map (·.text)).getD [] := by
  have hpieces : substitution.template.pieces
      = [.char '\x7d', .char ' ', .numbered 1] := by
    decide +kernel
  unfold Template.expand
  rw [hpieces]
  simp [Template.Piece.expand]

/-- **The substitution performs the reading.** -/
theorem performs : substitution.Performs reading where
  takes := by
    intro c piece rest taken ht span
    obtain ⟨gap, word, hgap, hword, rfl, hrest, hback, rfl⟩ :=
      takes_pattern.1 ht
    refine ⟨gap, word, hgap, hword, rfl, ?_, hback⟩
    rw [expand_template]
    have hgroup : (c.pass ('\x7d' :: gap) (word ++ rest)).textTo
        (c.pass ('\x7d' :: (gap ++ word)) rest) = word := by
      rw [← List.cons_append, ← Cursor.pass_pass]
      exact Cursor.textTo_pass rfl
    exact congrArg (fun w => '\x7d' :: ' ' :: w) hgroup
  exists_takes := by
    rintro c _ _ rest ⟨gap, word, hgap, hword, rfl, -, hback⟩ hrest
    exact ⟨_, takes_pattern.2 ⟨gap, word, hgap, hword, rfl, hrest, hback, rfl⟩⟩
  keep_iff hb htext hreads := keeps_iff hb htext hreads
  changes := by
    rintro _ _ rest ⟨gap, word, hgap, hword, rfl, rfl, -⟩ heq
    have hword : [' '] ++ word = gap ++ word := (List.cons.inj heq).2
    exact not_isGap_space (List.append_cancel_right hword ▸ hgap)

/-- The corrections are steady. -/
theorem steady {written : List Char} (hreads : reading.reads piece written back)
    (hkeeps : reading.keeps (crossing front (piece ++ back)) back) :
    Steady front piece written := by
  obtain ⟨gap, word, hgap, -, rfl, rfl, -⟩ := hreads
  have hbrace : ∀ c ∈ ['\x7d', ' '], isInert c := by decide
  have hnone : crossing front ('\x7d' :: (gap ++ word ++ back)) = none :=
    hkeeps.1
  have hsteady : Steady front ('\x7d' :: gap) ['\x7d', ' '] :=
    .of_border (by decide) hnone
      (crossing_inert hgap.isInert) (crossing_inert hbrace)
  have happ := SameState.append hsteady word
  rw [List.append_assoc, List.append_assoc] at happ
  exact happ

/-- The corrections do not change the words of the text. -/
theorem words_edit {written : List Char}
    (hreads : reading.reads piece written back)
    (hkeeps : reading.keeps (crossing front (piece ++ back)) back)
    (behind : List Char) :
    words (front ++ (piece ++ behind))
      = words (front ++ (written ++ behind)) := by
  obtain ⟨gap, word, hgap, -, rfl, rfl, -⟩ := hreads
  have hborder : ∀ text, crossing front ('\x7d' :: text) = none := fun text =>
    (crossing_firm (by decide) front text _).trans hkeeps.1
  have hsplit : ∀ text, words (front ++ '\x7d' :: text)
      = words front ++ words ('\x7d' :: text) := fun text =>
    words_append (hborder text)
  have hgone : ∀ blanks : List Char, (∀ c ∈ '\x7d' :: blanks, isInert c) →
      words ('\x7d' :: (blanks ++ (word ++ behind))) = words (word ++ behind) :=
    fun _ h => words_inert h _
  rw [List.cons_append, List.cons_append, List.cons_append, List.append_assoc]
  exact (hsplit _).trans ((congrArg _ ((hgone gap hgap.isInert).trans
    (hgone [' '] (by decide)).symm)).trans (hsplit _).symm)

/-- The characters of a text that are not white space. -/
def ink (text : List Char) : List Char :=
  text.filter fun c => !Text.isBlank c

/-- The corrections change white space only. -/
theorem ink_edit {written : List Char}
    (hreads : reading.reads piece written back) (front behind : List Char) :
    ink (front ++ (piece ++ behind)) = ink (front ++ (written ++ behind)) := by
  obtain ⟨gap, word, hgap, -, rfl, rfl, -⟩ := hreads
  have hblank : gap.filter (fun c => !Text.isBlank c) = [] :=
    List.filter_eq_nil_iff.2 fun c hc => by simp [hgap.isBlank c hc]
  have hspace : [' '].filter (fun c => !Text.isBlank c) = [] := by decide
  have hw : '\x7d' :: ' ' :: word = ['\x7d'] ++ ([' '] ++ word) := rfl
  have hp : '\x7d' :: (gap ++ word) = ['\x7d'] ++ (gap ++ word) := rfl
  unfold ink
  rw [hp, hw]
  simp only [List.filter_append, hblank, hspace]

/-- The sweep of a file. -/
theorem sweep_file (hb : file.tokenizer = .basic) :
    Sweep reading Steady [] file.text (substitution.rewritten file).text
      (substitution.edits file).length := by
  rw [Substitution.text_rewritten]
  refine performs.sweep_edits lawful hb fun _ ht hkeeps o _ ho => ?_
  exact steady (ho ▸ performs.takes ht _) hkeeps

/-- **A correction answers a violation**: it is made at a brace, and the
violation is at a keyword behind that brace and white space. -/
def Answers (file : SourceFile) (c : Correction) (v : Violation) : Prop :=
  ∃ front gap word back, file.text = front ++ '\x7d' :: (gap ++ (word ++ back)) ∧
    (∀ a ∈ gap, Text.isBlank a) ∧ IsKeyword word ∧
    c.location.offset = Text.size front ∧
    v.location.offset = Text.size (front ++ '\x7d' :: gap) ∧
    ⟨⟨v.location.offset, v.location.offset + Text.size word⟩, .keyword⟩
      ∈ file.tokens

/-- **What the corrections of a file come to.** -/
structure Corrects (file after : SourceFile)
    (corrections : List Correction) : Prop where
  /-- Each correction answers one violation, in their order. -/
  answers : List.Forall₂ (Answers file) corrections (validate file)
  /-- The tokens have the same kinds and texts. -/
  words : after.words = file.words
  /-- Only white space has changed. -/
  ink : ink after.text = ink file.text
  /-- No violation is left. -/
  clean : validate after = []
  /-- There is nothing more to correct. -/
  settled : ∀ disk, correct after disk = ⟨.ok [], after, disk⟩

/-- What a match that is kept reports. -/
def violation? (file : SourceFile) (m : SourceMatch) : Option Violation :=
  (m.firstOf? .keyword).map fun keyword =>
    description.violationAt file keyword.span.start

/-- **A match that is kept is reported at its keyword**, which is a token. -/
theorem violation?_match (hb : file.tokenizer = .basic) (hgap : IsGap gap)
    (hword : IsKeyword word)
    (htext : file.text = front ++ ('\x7d' :: (gap ++ word) ++ rest))
    (hrest : rest.head?.any Text.isWord = false)
    (hkeeps : reading.keeps
      (crossing front ('\x7d' :: (gap ++ word) ++ rest)) rest) :
    violation? file (file.matchAt ⟨Text.size front,
        Text.size (front ++ '\x7d' :: (gap ++ word))⟩)
      = some (description.violationAt file
          (Text.size (front ++ '\x7d' :: gap))) ∧
      ⟨⟨Text.size (front ++ '\x7d' :: gap),
          Text.size (front ++ '\x7d' :: gap) + Text.size word⟩, .keyword⟩
        ∈ file.tokens := by
  obtain ⟨hnone, hname⟩ := hkeeps
  obtain ⟨more, htokens⟩ :=
    tokensIn_match hb hgap hword htext hrest hnone
  have hrun : (Lexeme.takeRun Text.continuesName rest).1 = [] := by
    cases rest with
    | nil => rfl
    | cons c rest => rw [Lexeme.takeRun_cons, if_neg (by simpa using hname)]
  rw [hname, if_neg Bool.false_ne_true, hrun, List.append_nil] at htokens
  constructor
  · unfold violation? SourceMatch.firstOf? SourceFile.matchAt
    rw [htokens, List.find?_cons_of_pos (by rfl)]
    rfl
  · exact SourceFile.mem_of_mem_tokensIn (htokens ▸ List.mem_cons_self)

/-- Every edit answers the violation at its match. -/
theorem exists_answers (hb : file.tokenizer = .basic) {e : Edit}
    (he : e ∈ substitution.edits file) :
    ∃ v, violation? file (file.matchAt e.span) = some v ∧
      Answers file (Substitution.correctionOf description file e) v := by
  obtain ⟨front, piece, rest, htext, hreads, hkeeps, hspan⟩ :=
    performs.exists_of_mem_edits lawful hb he
  obtain ⟨gap, word, hgap, hword, rfl, -, hrest⟩ := hreads
  obtain ⟨hfirst, hkeyword⟩ :=
    violation?_match hb hgap hword htext hrest hkeeps
  have hplace : file.text = (front ++ '\x7d' :: gap) ++ (word ++ rest) := by
    rw [htext]
    simp
  refine ⟨_, hspan ▸ hfirst, front, gap, word, rest, ?_, hgap.isBlank, hword,
    ?_, ?_, ?_⟩
  · rw [htext]
    simp
  · unfold Substitution.correctionOf
    rw [hspan, SourceFile.locate_size htext]
  · unfold RuleDescription.violationAt
    rw [SourceFile.locate_size hplace]
  · unfold RuleDescription.violationAt
    rw [SourceFile.locate_size hplace]
    exact hkeyword

/-- **The violations are those of the matches that are edited.** -/
theorem validate_eq (file : SourceFile) :
    validate file
      = ((substitution.edits file).map fun e =>
          file.matchAt e.span).filterMap (violation? file) :=
  congrArg (List.filterMap (violation? file))
    (performs.filter_matchesOf lawful file)

/-- **The corrections answer the violations**, one by one. -/
theorem answers (hb : file.tokenizer = .basic) :
    List.Forall₂ (Answers file)
      ((substitution.edits file).map
        (Substitution.correctionOf description file)) (validate file) := by
  rw [validate_eq]
  have h := fun e (he : e ∈ substitution.edits file) =>
    exists_answers hb he
  generalize substitution.edits file = edits at h ⊢
  induction edits with
  | nil => exact .nil
  | cons e edits ih =>
    obtain ⟨⟨v, hv, ha⟩, hedits⟩ := List.forall_mem_cons.1 h
    rw [List.map_cons, List.map_cons, List.filterMap_cons_some hv]
    exact .cons ha (ih hedits)

/-- Without edits there are no violations. -/
theorem validate_of_nil (h : substitution.edits file = []) :
    validate file = [] := by
  rw [validate_eq, h]
  rfl

/-- What the rule does in memory. -/
theorem correct_inMemory (file : SourceFile) (disk : Disk)
    (h : file.path = none) :
    correct file disk
      = ⟨.ok ((substitution.edits file).map
          (Substitution.correctionOf description file)),
          substitution.rewritten file, disk⟩ := by
  unfold correct
  rw [Substitution.applyAll_inMemory description [] disk h]
  unfold Substitution.applyAll Attempt.map
  dsimp only
  rw [Except.map, List.append_nil]

/-- The file that the rule leaves asks for no edits. -/
theorem edits_rewritten (hb : file.tokenizer = .basic) :
    substitution.edits (substitution.rewritten file) = [] :=
  performs.edits_eq_nil lawful hb
    ((sweep_file hb).again lawful (spares lawful not_mem_tail_of_reads))

/-- What the corrections of a file in memory come to. -/
theorem corrects_rewritten (hb : file.tokenizer = .basic)
    (hpath : file.path = none) :
    Corrects file (substitution.rewritten file)
      ((substitution.edits file).map
        (Substitution.correctionOf description file)) where
  answers := answers hb
  words := by
    rw [file.words_eq hb, (substitution.rewritten file).words_eq hb]
    exact ((sweep_file hb).preserves words_edit).symm
  ink := ((sweep_file hb).preserves fun hreads _ => ink_edit hreads _).symm
  clean := validate_of_nil (edits_rewritten hb)
  settled disk := by
    have hagain := correct_inMemory (substitution.rewritten file) disk hpath
    rwa [Substitution.rewritten_of_nil (edits_rewritten hb),
      edits_rewritten hb] at hagain

/-- **The position of statements is corrected once and for all**: each
correction answers a violation, no token and nothing but white space is
changed, and nothing is left to be reported or corrected. -/
theorem corrects_correct (contents : String) (disk : Disk) :
    ∃ corrections after,
      correct (.ofContents contents) disk
        = ⟨.ok corrections, after, disk⟩ ∧
      Corrects (.ofContents contents) after corrections :=
  ⟨_, _, correct_inMemory _ disk rfl, corrects_rewritten rfl rfl⟩

end SwiftStyle.StatementPosition
