import SwiftStyle.Proofs.List.Sorted
import SwiftStyle.Proofs.Rules.ShorthandSearch
import SwiftStyle.Proofs.Rules.StatementGaps
import SwiftStyle.Proofs.Source.Lines
import SwiftStyle.Rules.BuiltIn

/-!
# Where the built-in rules find something

Every built-in rule reports from left to right, never two violations at one
offset, and each between characters, with the line and the column of its
offset (`BuiltIn.placed_violations`).

The offsets come from different places. Counts that are compared are
reported where their match begins, and matches begin one behind the other
(`placed_matches`). Keywords are reported where they begin, which is inside
of a match, and matches do not overlap. Lines are reported where they begin.
Of collections the matches of two patterns are merged; they never begin at
one offset, because what stands before a long form ends where the name of
the collection begins, and this can only be one name
(`Form.eq_of_start_eq`).

`Placed` is what a reader of a report relies on, for all rules in one form;
what the rules share is that the location of a violation is made from an
offset in the file (`Violation.StandsAt`). So each rule has two things to
show: its offsets ascend strictly, and each of them is a border of characters.
For a list that is sorted afterwards the first comes down to that no two of
its offsets are equal (`found_distinct`).
-/

namespace SwiftStyle

/-- **Violations that are placed in a file**, from left to right. -/
structure Placed (file : SourceFile) (violations : List Violation) :
    Prop where
  /-- No two of them are at one offset, and the left one comes first. -/
  ascending : violations.Pairwise fun v w =>
    v.location.offset < w.location.offset
  /-- Each is between two characters of the text, or at an end of it. -/
  between : ∀ v ∈ violations, Text.IsBorder file.text v.location.offset
  /-- Its line and its column are those of its offset. -/
  position : ∀ v ∈ violations,
    ⟨v.location.line, v.location.column⟩
      = file.positionAt v.location.offset

/-- **A violation stands at an offset** between characters. -/
structure Violation.StandsAt (file : SourceFile) (offset : Nat)
    (v : Violation) : Prop where
  /-- The offset is between characters. -/
  isBorder : Text.IsBorder file.text offset
  /-- The violation has its location. -/
  location : v.location = file.locate offset

namespace Violation.StandsAt

variable {file : SourceFile} {v : Violation} {n : Nat}

theorem offset (h : v.StandsAt file n) : v.location.offset = n := by
  obtain ⟨front, back, htext, rfl⟩ := Text.isBorder_iff.1 h.isBorder
  rw [h.location, SourceFile.locate_size htext]

theorem position (h : v.StandsAt file n) :
    ⟨v.location.line, v.location.column⟩ = file.positionAt n := by
  obtain ⟨front, back, htext, rfl⟩ := Text.isBorder_iff.1 h.isBorder
  rw [h.location, SourceFile.locate_size htext,
    SourceFile.positionAt_size htext]

end Violation.StandsAt

/-- Violations in ascending order are placed if they all stand
somewhere. -/
theorem placed_of_ascending {file : SourceFile}
    {violations : List Violation}
    (hascending : violations.Pairwise fun v w =>
      v.location.offset < w.location.offset)
    (hstands : ∀ v ∈ violations, ∃ n, v.StandsAt file n) :
    Placed file violations where
  ascending := hascending
  between v hv := by
    obtain ⟨n, h⟩ := hstands v hv
    exact h.offset.symm ▸ h.isBorder
  position v hv := by
    obtain ⟨n, h⟩ := hstands v hv
    exact h.offset.symm ▸ h.position

/-! ## Matches

A search finds separate occurrences, and these begin one behind the other. -/

/-- An occurrence begins between characters. -/
theorem Occurrence.Separate.isBorder {text : List Char}
    {found : List Occurrence} {o : Occurrence} (h : Separate text found)
    (ho : o ∈ found) : Text.IsBorder text o.span.start := by
  obtain ⟨front, back, htext, hstart, -⟩ :=
    Text.slice?_eq_some.1 (h.bounded o ho)
  rw [List.append_assoc] at htext
  exact Text.isBorder_iff.2 ⟨front, _, htext, hstart⟩

section Matches

variable {file : SourceFile} {p : Pattern} {m : SourceMatch}

theorem standsAt_of_mem_matchesOf (d : RuleDescription)
    (hm : m ∈ file.matchesOf p) :
    (d.violationAt file m.span.start).StandsAt file m.span.start := by
  obtain ⟨o, ho, rfl⟩ := List.mem_map.1 hm
  exact ⟨(p.separate_occurrences file.text).isBorder ho, rfl⟩

theorem ascending_matchesOf (file : SourceFile) (p : Pattern) :
    (file.matchesOf p).Pairwise fun m m' => m.span.start < m'.span.start :=
  List.pairwise_map.2 (p.separate_occurrences file.text).ascending

/-- **Matches that are reported where they begin are placed.** -/
theorem placed_matches (d : RuleDescription) (file : SourceFile)
    (p : Pattern) (keeps : SourceMatch → Bool) :
    Placed file (((file.matchesOf p).filter keeps).map fun m =>
      d.violationAt file m.span.start) := by
  have hstands : ∀ m ∈ (file.matchesOf p).filter keeps,
      (d.violationAt file m.span.start).StandsAt file m.span.start :=
    fun m hm => standsAt_of_mem_matchesOf d (List.mem_of_mem_filter hm)
  refine placed_of_ascending (List.pairwise_map.2 ?_) fun v hv => ?_
  · refine ((ascending_matchesOf file p).filter keeps).imp_of_mem ?_
    intro m m' hm hm' hlt
    rw [(hstands m hm).offset, (hstands m' hm').offset]
    exact hlt
  · obtain ⟨m, hm, rfl⟩ := List.mem_map.1 hv
    exact ⟨_, hstands m hm⟩

end Matches

variable {file : SourceFile}

theorem EmptyCount.placed_validate (file : SourceFile) :
    Placed file (validate file) :=
  placed_matches description file pattern keeps

/-! ## Collections

The matches of both patterns are sorted by where they begin, so it is enough
that no two begin at one place. -/

namespace CollectionShorthand

/-- **Two long forms that are found at one offset are of one sort.** -/
theorem Form.eq_of_start_eq {form form' : Form} {o o' : Occurrence}
    (ho : o ∈ form.substitution.pattern.occurrences file.text)
    (ho' : o' ∈ form'.substitution.pattern.occurrences file.text)
    (h : o.span.start = o'.span.start) : form = form' := by
  obtain ⟨front, rest, htext, ⟨lead, body, _, hlead, -, hpiece, -⟩, hspan⟩ :=
    form.performs.exists_of_mem_occurrences form.lawful ho
  obtain ⟨front', rest', htext', ⟨lead', body', _, hlead', -, hpiece', -⟩,
    hspan'⟩ := form'.performs.exists_of_mem_occurrences form'.lawful ho'
  rw [hspan, hspan'] at h
  obtain ⟨-, heq⟩ := Text.split_size_unique h (htext.symm.trans htext')
  rw [hpiece, hpiece'] at heq
  exact Form.eq_of_long hlead hlead' heq

/-- No two of the matches that are found begin at one offset. -/
theorem found_distinct (file : SourceFile) :
    (found file).Pairwise fun m m' => m.span.start ≠ m'.span.start := by
  have hone : ∀ form : Form,
      ((file.matchesOf form.substitution.pattern).filter keeps).Pairwise
        fun m m' => m.span.start ≠ m'.span.start := fun form =>
    ((ascending_matchesOf file _).filter keeps).imp Nat.ne_of_lt
  have hfound : found file
      = (file.matchesOf Form.array.substitution.pattern).filter keeps ++
        (file.matchesOf Form.dictionary.substitution.pattern).filter
          keeps := by
    unfold found substitutions
    rw [List.flatMap_cons, List.flatMap_singleton]
    rfl
  rw [hfound]
  refine List.pairwise_append.2
    ⟨hone .array, hone .dictionary, fun m hm m' hm' h => ?_⟩
  obtain ⟨o, ho, rfl⟩ := List.mem_map.1 (List.mem_of_mem_filter hm)
  obtain ⟨o', ho', rfl⟩ := List.mem_map.1 (List.mem_of_mem_filter hm')
  exact nomatch Form.eq_of_start_eq ho ho' h

theorem placed_validate (file : SourceFile) :
    Placed file (validate file) := by
  have hstands : ∀ m ∈ found file,
      (description.violationAt file m.span.start).StandsAt file
        m.span.start := by
    intro m hm
    obtain ⟨form, o, ho, -, rfl⟩ := mem_found_iff.1 hm
    exact standsAt_of_mem_matchesOf description (List.mem_map_of_mem ho)
  unfold validate
  refine placed_of_ascending ?_ fun v hv => ?_
  · refine pairwise_lt_mergeSort (fun v : Violation => v.location.offset)
      (fun _ _ => decide_eq_true_iff) (List.pairwise_map.2 ?_)
    refine (found_distinct file).imp_of_mem fun hm hm' hne => ?_
    rw [(hstands _ hm).offset, (hstands _ hm').offset]
    exact hne
  · obtain ⟨m, hm, rfl⟩ := List.mem_map.1 (List.mem_mergeSort.1 hv)
    exact ⟨_, hstands m hm⟩

end CollectionShorthand

/-! ## Statements

The keyword is in its match and matches do not overlap, so the keywords stand
in the order of the matches. -/

namespace StatementPosition

/-- The edits of a file do not overlap. -/
theorem disjoint_edits (file : SourceFile) :
    (substitution.edits file).Pairwise fun e e' =>
      e.span.stop ≤ e'.span.start := by
  rw [performs.edits_eq lawful, List.pairwise_map]
  exact (pattern.separate_occurrences file.text).disjoint.filter _

/-- **A keyword is reported inside the match** it belongs to. -/
theorem exists_standsAt (hb : file.tokenizer = .basic) {e : Edit}
    {v : Violation} (he : e ∈ substitution.edits file)
    (hv : violation? file (file.matchAt e.span) = some v) :
    ∃ n, v.StandsAt file n ∧ e.span.start ≤ n ∧ n < e.span.stop := by
  obtain ⟨front, gap, word, back, h, hspan⟩ := exists_misplaced hb he
  have hfirst := (violation?_match hb h.isGap h.isKeyword h.text h.ended
    h.keeps).1
  rw [hspan, hfirst] at hv
  obtain rfl := Option.some.inj hv
  refine ⟨Text.size (front ++ '\x7d' :: gap),
    ⟨Text.isBorder_iff.2 ⟨_, _, h.text_eq, rfl⟩, rfl⟩, ?_, ?_⟩
  · rw [hspan]
    simp only [Text.size_append, Nat.le_add_right]
  · have hword : word ≠ [] := by
      obtain ⟨a, more, -, rfl⟩ := h.isKeyword.exists_cons
      exact List.cons_ne_nil a more
    have := Text.size_pos hword
    rw [hspan]
    simp only [Text.size_append, Text.size_cons]
    omega

/-- The violations of statements are placed. -/
theorem placed_validate (hb : file.tokenizer = .basic) :
    Placed file (validate file) := by
  rw [validate_eq, List.filterMap_map]
  refine placed_of_ascending (List.pairwise_filterMap.2 ?_) fun v hv => ?_
  · refine (disjoint_edits file).imp_of_mem fun he he' hapart v hv w hw => ?_
    obtain ⟨n, hn, -, hstop⟩ := exists_standsAt hb he hv
    obtain ⟨n', hn', hstart, -⟩ := exists_standsAt hb he' hw
    rw [hn.offset, hn'.offset]
    omega
  · obtain ⟨e, he, hv⟩ := List.mem_filterMap.1 hv
    obtain ⟨n, hn, -⟩ := exists_standsAt hb he hv
    exact ⟨n, hn⟩

end StatementPosition

/-! ## Lines -/

theorem LineLength.placed_validate (limits : List (Parameter Nat))
    (file : SourceFile) : Placed file (validate limits file) := by
  have hstands : ∀ line ∈ file.lines, ∀ v,
      violation? limits file line = some v →
        v.StandsAt file line.offset := by
    intro line hline v hv
    obtain ⟨limit, -, rfl⟩ := Option.map_eq_some_iff.1 hv
    exact ⟨SourceFile.isBorder_of_mem_lines hline, rfl⟩
  unfold validate
  refine placed_of_ascending (List.pairwise_filterMap.2 ?_) fun v hv => ?_
  · refine file.ascending_lines.imp_of_mem fun hl hm hlt v hv w hw => ?_
    rw [(hstands _ hl v hv).offset, (hstands _ hm w hw).offset]
    exact hlt
  · obtain ⟨line, hline, hv⟩ := List.mem_filterMap.1 hv
    exact ⟨_, hstands line hline v hv⟩

/-! ## All built-in rules -/

namespace BuiltIn

/-- **A choice of a built-in rule**, with its limits for the length of
lines. -/
inductive Choice where
  /-- The rule on statements. -/
  | statementPosition
  /-- The rule on collections. -/
  | collectionShorthand
  /-- The rule on lines, with any limits. -/
  | lineLength (limits : List (Parameter Nat))
  /-- The rule on counts. -/
  | emptyCount

/-- The rule that is chosen. -/
def Choice.rule : Choice → Rule
  | statementPosition => StatementPosition.rule
  | collectionShorthand => CollectionShorthand.rule
  | lineLength limits => LineLength.family.withParameters limits
  | emptyCount => EmptyCount.rule

/-- **Whatever a built-in rule reports of a file is placed**: from left to
right, at no offset twice, between characters, and with the line and the
column of the offset. -/
theorem placed_violations (choice : Choice) (file : SourceFile)
    (hb : file.tokenizer = .basic) :
    Placed file (choice.rule.validate file) := by
  cases choice with
  | statementPosition => exact StatementPosition.placed_validate hb
  | collectionShorthand => exact CollectionShorthand.placed_validate file
  | lineLength limits => exact LineLength.placed_validate limits file
  | emptyCount => exact EmptyCount.placed_validate file

/-- Collections of both sorts behind white space, a colon and each other's
brackets, in a text with characters of several bytes: of the matches those of
the arrays come first, and the violations are in order. -/
theorem placed_violations_merged :
    let file := SourceFile.ofContents
      "é:Dictionary<k,v>Array<é>\n\u2003 Array<Int>Dictionary<a, b>"
    file.tokenizer = .basic ∧
    Placed file (Choice.collectionShorthand.rule.validate file) ∧
      (CollectionShorthand.found file).map (·.span.start)
        = [17, 27, 2, 41] :=
  ⟨rfl, BuiltIn.placed_violations .collectionShorthand _ rfl,
    by decide +kernel⟩

end BuiltIn
end SwiftStyle
