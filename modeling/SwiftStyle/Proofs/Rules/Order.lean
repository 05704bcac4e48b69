import SwiftStyle.Linter
import SwiftStyle.Proofs.Rules.CollectionShorthand
import SwiftStyle.Proofs.Rules.StatementPosition

/-!
# The order of the correctable rules

Two of the built-in rules correct a file, and the order in which a linter
runs them does not matter for texts without backquotes. What the one rule
reads and writes has nothing in it that the other one reads: the readings
are apart (`StatementPosition.apart`). So each of the two sweeps of the one
rule may be exchanged with that of the other (`rewritten_comm`), and the
file that is left is settled for both, because each of the rules may be
taken for the last (`corrects_in_any_order`).

In these texts a long form that is corrected begins at a border, so the
strings and comments before and behind it are not joined, cut or uncovered
by its correction (`literals_edit`).

Backquotes are left out because of the names between them. Such a name takes
anything up to the next line feed or backquote, so that a correction inside it
can change where it ends, and with it all tokens behind. Without backquotes no
correction begins inside a token that is not a literal, and those in literals
are not made.

The exchange is one of sweeps, not of files: what is compared is the text that
each order leaves, with the number of replacements that each sweep makes. A
file with the same path, tokenizer and text is the same file
(`SourceFile.eq_of_text`), which takes the result back to files.
-/

namespace SwiftStyle

variable {file : SourceFile} {front piece written back : List Char}

/-! ## Strings and comments

The strings and comments of a text are a list of kinds and texts, without
their offsets: a correction moves what is behind it. -/

/-- **The strings and comments of a text**, in their order. -/
def literals (text : List Char) : List (Token.Kind × List Char) :=
  (words text).filter fun word => word.1.isLiteralText

/-- The strings and comments of a file, in their order. -/
def SourceFile.literals (file : SourceFile) :
    List (Token.Kind × List Char) :=
  file.words.filter fun word => word.1.isLiteralText

/-- At a border the strings and comments are those of the two parts. -/
theorem literals_append (h : crossing front back = none) :
    literals (front ++ back) = literals front ++ literals back := by
  unfold literals
  rw [words_append h, List.filter_append]

/-- Plain text that ends with an inert character has no strings and no
comments, and ends at a border. -/
theorem literals_plain {z : Char} (h : ∀ c ∈ front, isPlain c)
    (hz : isInert z) (back : List Char) :
    literals (front ++ [z] ++ back) = literals back := by
  have hborder : crossing (front ++ [z]) back = none := by
    rw [crossing_plain h hz [] back, crossing_nil]
  have hcode : ∀ word ∈ words (front ++ [z]),
      word.1.isLiteralText = false := by
    intro word hword
    obtain ⟨lexeme, hlexeme, hword⟩ := List.mem_filterMap.1 hword
    obtain ⟨kind, hkind, rfl⟩ := Option.map_eq_some_iff.1 hword
    have h := isLiteral_plain h hz lexeme hlexeme
    unfold Lexeme.isLiteral at h
    rwa [hkind, Option.any_some] at h
  have hnil : literals (front ++ [z]) = [] :=
    List.filter_eq_nil_iff.2 fun word hword =>
      Bool.eq_false_iff.1 (hcode word hword)
  rw [literals_append hborder, hnil, List.nil_append]

namespace CollectionShorthand

variable {form : Form}

/-- Without a backquote before it, what is corrected begins at a border. -/
theorem Form.crossing_eq_none (hreads : form.reading.reads piece written back)
    (hkeeps : form.reading.keeps (crossing front (piece ++ back)) back)
    (hquote : '\x60' ∉ front) : crossing front (piece ++ back) = none := by
  obtain ⟨y, p, w, rfl, -, hy⟩ := form.lawful.head hreads
  cases hcross : crossing front (y :: p ++ back) with
  | none => rfl
  | some kind =>
    rcases crossing_cases hy hcross with hliteral | ⟨-, front', name, rfl, -⟩
    · rw [hcross] at hkeeps
      exact absurd hliteral (Bool.eq_false_iff.1 hkeeps)
    · exact absurd (by simp) hquote

/-- **A correction leaves the strings and comments as they are.** -/
theorem Form.literals_edit (hreads : form.reading.reads piece written back)
    (hkeeps : form.reading.keeps (crossing front (piece ++ back)) back)
    (hquote : '\x60' ∉ front) (behind : List Char) :
    literals (front ++ (piece ++ behind))
      = literals (front ++ (written ++ behind)) := by
  have hnone := crossing_eq_none hreads hkeeps hquote
  obtain ⟨y, p, w, hp, hw, hy⟩ := form.lawful.head hreads
  have hborder : ∀ text, crossing front (y :: text) = none := fun text => by
    rw [hp] at hnone
    exact (crossing_firm hy front text (p ++ back)).trans hnone
  obtain ⟨lead, body, short, hlead, h, hpiece, hwritten⟩ := hreads
  have hlong : piece = lead ++ (form.name ++ '<' :: body) ++ ['>'] := by
    rw [hpiece]
    unfold Form.long
    simp
  have hshort : written = lead ++ ('[' :: short) ++ [']'] := by
    rw [hwritten]
    unfold brackets
    simp
  -- both are plain up to their last bracket, and hold no literal
  have hplain := isPlain_piece hlead h
  have hplain' := isPlain_written hlead h
  rw [← hpiece, hlong] at hplain
  rw [← hwritten, hshort] at hplain'
  calc literals (front ++ (piece ++ behind))
      = literals front ++ literals (piece ++ behind) :=
        literals_append (hp ▸ hborder _)
    _ = literals front ++ literals behind := by
        rw [hlong, literals_plain (List.forall_mem_append.1 hplain).1
          (by decide)]
    _ = literals front ++ literals (written ++ behind) := by
        rw [hshort, literals_plain (List.forall_mem_append.1 hplain').1
          (by decide)]
    _ = literals (front ++ (written ++ behind)) :=
        (literals_append (hw ▸ hborder _)).symm

theorem Form.not_mem_brace (h : form.reading.reads piece written back) :
    '\x7d' ∉ piece ∧ '\x7d' ∉ written := by
  obtain ⟨lead, body, short, hlead, h, rfl, rfl⟩ := h
  have hblank : ∀ c, Text.isBlank c → c ≠ '\x7d' := by
    rintro c hc rfl
    cases hc
  have hword : ∀ c, Text.isWord c → c ≠ '\x7d' := by
    rintro c hc rfl
    cases hc
  exact ⟨fun hm => forall_piece hlead h hblank hword (by decide) _ hm rfl,
    fun hm => forall_written hlead h hblank hword (by decide) _ hm rfl⟩

/-- Nothing is read in a brace, white space and a word that is no name of a
long form, nor in front of what follows. -/
theorem Form.passes_statement {gap word : List Char}
    (hgap : ∀ c ∈ gap, Text.isBlank c)
    (hword : StatementPosition.IsKeyword word) :
    form.reading.Passes ('\x7d' :: (gap ++ word)) := by
  intro next
  have hclosed : ¬ form.Opens (word ++ next) := by
    rcases hword with rfl | rfl
    · exact not_opens_cons (by decide) (by cases form <;> decide)
    · exact not_opens_cons (by decide) (by cases form <;> decide)
  have hmark : ∀ c ∈ word, isLeadChar c = false := by
    rcases hword with rfl | rfl <;> decide
  exact ⟨silent_cons fun h => absurd h (by decide),
    Reading.clear_append.2 ⟨clear_blanks hgap hclosed,
      clear_of_not_isLeadChar hmark⟩⟩

end CollectionShorthand

/-! ## Exchanging two sweeps

What the one rule reads begins with a brace, and nothing that the other reads
or writes has one. What the other reads has a name with an angle bracket
behind it, and a keyword is not such a name. -/

namespace StatementPosition

open CollectionShorthand

/-- **The two rules do not meet**: neither reads anything in what the other
reads and writes. -/
theorem apart (form : Form) : reading.Apart form.reading where
  blind_left h :=
    have hbrace := Form.not_mem_brace h
    ⟨passes_of_not_mem hbrace.1, passes_of_not_mem hbrace.2⟩
  blind_right := by
    rintro _ _ _ ⟨gap, word, hgap, hword, rfl, rfl, -⟩
    have hspace : form.reading.Passes ('\x7d' :: ([' '] ++ word)) :=
      Form.passes_statement (by decide) hword
    exact ⟨Form.passes_statement hgap.isBlank hword, hspace⟩
  spares_left := spares form.lawful fun h hm =>
    (Form.not_mem_brace h).1 (List.mem_of_mem_tail hm)
  spares_right := by
    refine Form.spares lawful ?_ ?_
    · rintro _ _ _ ⟨gap, word, hgap, hword, rfl, -, -⟩ hm
      rw [← List.cons_append] at hm
      rcases List.mem_append.1 hm with hm | hm
      · rcases List.mem_cons.1 hm with hm | hm
        · cases hm
        · exact absurd (hgap.isBlank _ hm) (by decide)
      · rcases hword with rfl | rfl <;> exact absurd hm (by decide)
    · -- what is read ends with a keyword
      rintro _ _ _ _ c ⟨gap, word, -, hword, rfl, -, -⟩ hlast hlead
      obtain ⟨a, ha, hlast'⟩ := hword.exists_getLast?
      rw [← List.cons_append, List.getLast?_append, hlast',
        Option.some_or] at hlast
      obtain rfl := Option.some.inj hlast
      rw [not_isWord_of_isLeadChar hlead] at ha
      cases ha

theorem not_mem_quote_written (h : reading.reads piece written back) :
    ∀ c ∈ written, c ≠ '\x60' := by
  obtain ⟨gap, word, -, hword, -, rfl, -⟩ := h
  rcases hword with rfl | rfl <;> decide

theorem not_mem_quote (hb : file.tokenizer = .basic)
    (hquote : '\x60' ∉ file.text) :
    '\x60' ∉ (substitution.rewritten file).text := fun hm =>
  (sweep_file hb).forall_mem not_mem_quote_written
    (fun _ hc heq => hquote (heq ▸ hc)) _ hm rfl

end StatementPosition

namespace CollectionShorthand

/-- The file that a correction leaves has no backquote if it had none. -/
theorem Form.not_mem_quote (form : Form) (hb : file.tokenizer = .basic)
    (hquote : '\x60' ∉ file.text) :
    '\x60' ∉ (form.substitution.rewritten file).text := by
  have hwritten : ∀ {piece written back : List Char},
      form.reading.reads piece written back → ∀ c ∈ written, c ≠ '\x60' := by
    rintro _ _ _ ⟨lead, body, short, hlead, h, -, rfl⟩ c hc rfl
    exact absurd (isPlain_written hlead h _ hc) (by decide)
  exact fun hm => (form.sweep_unquoted file hb hquote).forall_mem hwritten
    (fun _ hc heq => hquote (heq ▸ hc)) _ hm rfl

/-- The sweep of a file without backquotes is steady. -/
theorem Form.sweep_steady (form : Form) (hb : file.tokenizer = .basic)
    (hquote : '\x60' ∉ file.text) :
    Sweep form.reading Steady [] file.text
      (form.substitution.rewritten file).text
      (form.substitution.edits file).length :=
  (form.sweep_unquoted file hb hquote).mono fun _ _ _ h => h.2

end CollectionShorthand

/-- Two files with the same path, tokenizer and text are the same. -/
theorem SourceFile.eq_of_text {file' : SourceFile}
    (hpath : file.path = file'.path)
    (htokenizer : file.tokenizer = file'.tokenizer)
    (htext : file.text = file'.text) : file = file' := by
  obtain ⟨path, contents, text, tokenizer, tokens, starts, rfl, rfl, rfl⟩ :=
    file
  obtain ⟨path', contents', text', tokenizer', tokens', starts', rfl, rfl,
    rfl⟩ := file'
  obtain rfl : path = path' := hpath
  obtain rfl : tokenizer = tokenizer' := htokenizer
  obtain rfl : contents = contents' := String.toList_inj.1 htext
  rfl

open CollectionShorthand

/-- **The rewriting of statements may be exchanged** with that of a form. -/
theorem rewritten_comm (form : Form) (hb : file.tokenizer = .basic)
    (hquote : '\x60' ∉ file.text) :
    form.substitution.rewritten
        (StatementPosition.substitution.rewritten file)
      = StatementPosition.substitution.rewritten
          (form.substitution.rewritten file) := by
  have hb₁ : (form.substitution.rewritten file).tokenizer = .basic :=
    (Substitution.tokenizer_rewritten _ _).trans hb
  have hb₂ : (StatementPosition.substitution.rewritten file).tokenizer
      = .basic := (Substitution.tokenizer_rewritten _ _).trans hb
  obtain ⟨last, hlast, hlast'⟩ :=
    (StatementPosition.sweep_file hb).diamond StatementPosition.lawful
      form.lawful (StatementPosition.apart form) (form.sweep_steady hb hquote)
  have hstatement := StatementPosition.sweep_file hb₁
  have hform := form.sweep_steady hb₂
    (StatementPosition.not_mem_quote hb hquote)
  refine SourceFile.eq_of_text ?_ ?_ ?_
  · simp only [Substitution.path_rewritten]
  · simp only [Substitution.tokenizer_rewritten]
  · rw [(hform.unique form.lawful hlast').1,
      (hstatement.unique StatementPosition.lawful hlast).1]

/-- **The two rules may be exchanged.** -/
theorem corrected_comm (hb : file.tokenizer = .basic)
    (hquote : '\x60' ∉ file.text) :
    corrected (StatementPosition.substitution.rewritten file)
      = StatementPosition.substitution.rewritten (corrected file) := by
  have hb' : (arraySubstitution.rewritten file).tokenizer = .basic :=
    (Substitution.tokenizer_rewritten _ _).trans hb
  have harray : arraySubstitution.rewritten
      (StatementPosition.substitution.rewritten file)
        = StatementPosition.substitution.rewritten
            (arraySubstitution.rewritten file) :=
    rewritten_comm .array hb hquote
  have hdictionary : dictionarySubstitution.rewritten
      (StatementPosition.substitution.rewritten
        (arraySubstitution.rewritten file))
      = StatementPosition.substitution.rewritten
          (dictionarySubstitution.rewritten
            (arraySubstitution.rewritten file)) :=
    rewritten_comm .dictionary hb' (Form.array.not_mem_quote hb hquote)
  unfold corrected
  rw [harray, hdictionary]

/-- A corrected file without backquotes is settled. -/
theorem settled_of_unquoted (hb : file.tokenizer = .basic)
    (hquote : '\x60' ∉ file.text) : Settled (corrected file) :=
  settled_of_sweeps hb (Form.array.sweep_steady hb hquote)
    (Form.dictionary.sweep_steady
      ((Substitution.tokenizer_rewritten _ _).trans hb)
      (Form.array.not_mem_quote hb hquote))

/-- **Nothing is left for either rule** in a file that both have
corrected. -/
theorem settled_of_both (hb : file.tokenizer = .basic)
    (hquote : '\x60' ∉ file.text) :
    StatementPosition.substitution.edits
        (StatementPosition.substitution.rewritten (corrected file)) = [] ∧
      Settled (StatementPosition.substitution.rewritten (corrected file)) := by
  refine ⟨StatementPosition.edits_rewritten
    ((tokenizer_corrected file).trans hb), ?_⟩
  -- in the other order the collections were corrected last
  rw [← corrected_comm hb hquote]
  exact settled_of_unquoted ((Substitution.tokenizer_rewritten _ _).trans hb)
    (StatementPosition.not_mem_quote hb hquote)

theorem StatementPosition.correct_of_nil
    (h : substitution.edits file = []) (hpath : file.path = none)
    (disk : Disk) : correct file disk = ⟨.ok [], file, disk⟩ := by
  rw [correct_inMemory file disk hpath, h, List.map_nil,
    Substitution.rewritten_of_nil h]

/-! ## Strings and comments of a corrected file

What no single replacement changes is not changed by a sweep, and the list of
strings and comments is such a thing. -/

theorem SourceFile.literals_eq (hb : file.tokenizer = .basic) :
    file.literals = SwiftStyle.literals file.text := by
  unfold SourceFile.literals SwiftStyle.literals
  rw [file.words_eq hb]

theorem StatementPosition.literals_rewritten (hb : file.tokenizer = .basic) :
    literals (substitution.rewritten file).text = literals file.text := by
  have hwords := (sweep_file hb).preserves words_edit
  exact congrArg (List.filter _) hwords.symm

theorem CollectionShorthand.Form.literals_rewritten (form : Form)
    (hb : file.tokenizer = .basic) (hquote : '\x60' ∉ file.text) :
    literals (form.substitution.rewritten file).text = literals file.text :=
  ((form.sweep_unquoted file hb hquote).preserves_of
    fun hreads hkeeps h => literals_edit hreads hkeeps h.1).symm

/-- **Both rules leave strings and comments as they are.** -/
theorem literals_of_both (hb : file.tokenizer = .basic)
    (hquote : '\x60' ∉ file.text) :
    (StatementPosition.substitution.rewritten (corrected file)).literals
      = file.literals := by
  have hb₁ : (arraySubstitution.rewritten file).tokenizer = .basic :=
    (Substitution.tokenizer_rewritten _ _).trans hb
  have hb₂ : (corrected file).tokenizer = .basic :=
    (tokenizer_corrected file).trans hb
  have hstatement : (StatementPosition.substitution.rewritten
      (corrected file)).tokenizer = .basic :=
    (Substitution.tokenizer_rewritten _ _).trans hb₂
  have hdictionary : literals (corrected file).text
      = literals (arraySubstitution.rewritten file).text :=
    Form.dictionary.literals_rewritten hb₁
      (Form.array.not_mem_quote hb hquote)
  have harray : literals (arraySubstitution.rewritten file).text
      = literals file.text := Form.array.literals_rewritten hb hquote
  rw [SourceFile.literals_eq hstatement, SourceFile.literals_eq hb,
    StatementPosition.literals_rewritten hb₂, hdictionary, harray]

/-! ## Two rules in a linter

The rest is about a linter with the two rules: in memory no rule fails, so
each runs in what the other left. -/

namespace Linter

variable {l : Linter} {rule rule' : Rule} {disk : Disk}

/-- Rules that do not fail run one after the other. -/
theorem correctWith_cons {correct : SourceFile → Disk →
      Attempt (List Correction)} {rest : List Rule}
    {corrections : List Correction} {after : SourceFile}
    (hrule : rule.correct? = some correct)
    (h : correct file disk = ⟨.ok corrections, after, disk⟩) :
    correctWith (rule :: rest) file disk
      = { correctWith rest after disk with
          corrections := corrections ++
            (correctWith rest after disk).corrections } := by
  rw [correctWith, hrule]
  dsimp only
  rw [h]

/-- What two rules that do not fail do to a file. -/
theorem correctFile_pair {correct correct' : SourceFile → Disk →
      Attempt (List Correction)}
    {corrections corrections' : List Correction}
    {between after : SourceFile} (hrules : l.rules = [rule, rule'])
    (hrule : rule.correct? = some correct)
    (hrule' : rule'.correct? = some correct')
    (h : correct file disk = ⟨.ok corrections, between, disk⟩)
    (h' : correct' between disk = ⟨.ok corrections', after, disk⟩) :
    l.correctFile file disk
      = ⟨.ok (corrections ++ corrections'), after, disk⟩ := by
  unfold correctFile correctInto
  rw [hrules, correctWith_cons hrule h, correctWith_cons hrule' h',
    correctWith]
  simp only [List.append_nil]

theorem lintFile_eq_nil (h : ∀ rule ∈ l.rules, rule.validate file = []) :
    l.lintFile file = [] :=
  List.flatMap_eq_nil_iff.2 fun rule hrule => by
    rw [h rule hrule, List.map_nil]

end Linter

/-- The two correctable rules report nothing of a settled file. -/
theorem lintFile_of_settled {l : Linter}
    (hrules : ∀ rule ∈ l.rules,
      rule = StatementPosition.rule ∨ rule = CollectionShorthand.rule)
    (hedits : StatementPosition.substitution.edits file = [])
    (hsettled : Settled file) : l.lintFile file = [] := by
  have hstatement : StatementPosition.rule.validate
      = StatementPosition.validate := rfl
  have hcollection : CollectionShorthand.rule.validate
      = CollectionShorthand.validate := rfl
  refine Linter.lintFile_eq_nil fun rule hrule => ?_
  rcases hrules rule hrule with rfl | rfl
  · rw [hstatement]
    exact StatementPosition.validate_of_nil hedits
  · rw [hcollection]
    exact hsettled.validate

/-- **The order of the two correctable rules does not matter** for a text
without backquotes: the file that is left is the same, nothing is reported
of it, it is not corrected again in either order, and its strings and
comments are those of the text. -/
theorem corrects_in_any_order (l l' : Linter)
    (hl : l.rules = [StatementPosition.rule, CollectionShorthand.rule])
    (hl' : l'.rules = [CollectionShorthand.rule, StatementPosition.rule])
    (contents : String) (hquote : '\x60' ∉ contents.toList) (disk : Disk) :
    ∃ corrections corrections' after,
      l.correctFile (.ofContents contents) disk
        = ⟨.ok corrections, after, disk⟩ ∧
      l'.correctFile (.ofContents contents) disk
        = ⟨.ok corrections', after, disk⟩ ∧
      (∀ linter ∈ [l, l'], linter.lintFile after = [] ∧
        ∀ later, linter.correctFile after later = ⟨.ok [], after, later⟩) ∧
      after.literals = (SourceFile.ofContents contents).literals := by
  have hb : (SourceFile.ofContents contents).tokenizer = .basic := rfl
  have hpath : (SourceFile.ofContents contents).path = none := rfl
  obtain ⟨hedits, hsettled⟩ := settled_of_both hb hquote
  have hcomm := corrected_comm hb hquote
  have hliterals := literals_of_both hb hquote
  generalize SourceFile.ofContents contents = file at *
  have hpath' : (StatementPosition.substitution.rewritten
      (corrected file)).path = none := by
    rw [Substitution.path_rewritten, path_corrected, hpath]
  -- the one order ends with the collections, the other with the statements
  have hlast := CollectionShorthand.correct_inMemory
    (StatementPosition.substitution.rewritten file) disk
    ((Substitution.path_rewritten _ _).trans hpath)
  have hlast' := StatementPosition.correct_inMemory (corrected file) disk
    ((path_corrected file).trans hpath)
  rw [hcomm] at hlast
  have hstatement := StatementPosition.correct_of_nil hedits hpath'
  have hcollection := hsettled.correct hpath'
  refine ⟨_, _, _, Linter.correctFile_pair hl rfl rfl
      (StatementPosition.correct_inMemory file disk hpath) hlast,
    Linter.correctFile_pair hl' rfl rfl
      (CollectionShorthand.correct_inMemory file disk hpath) hlast',
    List.forall_mem_cons.2 ⟨⟨lintFile_of_settled ?_ hedits hsettled,
      fun later => ?_⟩, List.forall_mem_singleton.2
        ⟨lintFile_of_settled ?_ hedits hsettled, fun later => ?_⟩⟩,
    hliterals⟩
  · rw [hl]
    simp
  · exact Linter.correctFile_pair hl rfl rfl (hstatement later)
      (hcollection later)
  · rw [hl']
    simp
  · exact Linter.correctFile_pair hl' rfl rfl (hcollection later)
      (hstatement later)

/-- Both orders at a text with something to do for each rule, and with a
string and a comment that look like it. -/
theorem corrects_in_any_order_mixed :
    let rules := [StatementPosition.rule, CollectionShorthand.rule]
    let l : Linter := ⟨⟨"/"⟩, rules, [], default⟩
    let l' : Linter := ⟨⟨"/"⟩, rules.reverse, [], default⟩
    let disk : Disk := ⟨default, default, 0, fun _ => none⟩
    let contents := "\x7d\n else a:Array<\nInt>, \"\x7d  else\" // :Array<>"
    '\x60' ∉ contents.toList ∧
    ∃ corrections corrections' after,
      l.correctFile (.ofContents contents) disk
        = ⟨.ok corrections, after, disk⟩ ∧
      l'.correctFile (.ofContents contents) disk
        = ⟨.ok corrections', after, disk⟩ ∧
      (∀ linter ∈ [l, l'], linter.lintFile after = [] ∧
        ∀ later, linter.correctFile after later = ⟨.ok [], after, later⟩) ∧
      after.literals = (SourceFile.ofContents contents).literals ∧
      after.contents = "\x7d else a:[Int], \"\x7d  else\" // :Array<>" := by
  intro rules l l' disk contents
  have hquote : '\x60' ∉ contents.toList := by decide +kernel
  obtain ⟨corrections, corrections', after, h, h', hsettled, hliterals⟩ :=
    corrects_in_any_order l l' rfl rfl contents hquote disk
  refine ⟨hquote, corrections, corrections', after, h, h', hsettled,
    hliterals, ?_⟩
  rw [← congrArg (fun a => a.file.contents) h]
  decide +kernel

end SwiftStyle
