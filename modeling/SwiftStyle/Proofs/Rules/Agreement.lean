import Mathlib.Data.List.Forall2
import SwiftStyle.Proofs.Rules.CollectionShorthand
import SwiftStyle.Proofs.Rules.StatementPosition
import SwiftStyle.Rules.BuiltIn

/-!
# Lint and correction agree on what is clean

What a rule reports and what it corrects are found by the same patterns, but
not in the same texts: the rule on collections looks for both of its long
forms in the text as it is, and corrects the second in the text that the
correction of the first has left. Still a text is clean for the one exactly
if it is for the other, because a pass that corrects nothing leaves the text
to the next one as it found it.

No correction is undone by another. The rule on statements leaves nothing to
correct, so a text that it corrects is not the one it leaves. The rule on
collections writes one square bracket for each correction and removes none
(`count_rewritten`).

Lint goes through matches and correction through edits, so what is compared
here is when the two lists are empty. An edit is a match that is kept and
written otherwise than it was. For statements every match that is kept is
one, since a gap that is taken is never one space; for collections likewise,
as what is written has brackets that were not read.
-/

namespace SwiftStyle

/-- **A rule agrees with itself on a file**, by what it reports, what it
corrects, and the file that it leaves. -/
structure Agrees (file : SourceFile) (reported : List Violation)
    (corrections : List Correction) (after : SourceFile) : Prop where
  /-- It reports nothing if it corrects nothing, and only then. -/
  clean_iff : reported = [] ↔
    corrections = [] ∧ after.contents = file.contents
  /-- If it corrects something, the contents have changed. -/
  changes : corrections ≠ [] → after.contents ≠ file.contents

variable {file : SourceFile}

theorem SourceFile.text_of_contents {after : SourceFile}
    (h : after.contents = file.contents) : after.text = file.text := by
  rw [after.text_eq, file.text_eq, h]

/-- A substitution that does not change the contents does not change the
file. -/
theorem Substitution.rewritten_of_contents {s : Substitution}
    (h : (s.rewritten file).contents = file.contents) :
    s.rewritten file = file := by
  have htext := SourceFile.text_of_contents h
  rw [text_rewritten] at htext
  unfold rewritten
  rw [htext]
  exact file.setContents_text

/-! ## Statements

A match that is kept is edited, and reported at its keyword, so one list is
empty if the other is. -/

namespace StatementPosition

/-- **Nothing is reported of a file without edits, and of no other.** -/
theorem validate_eq_nil_iff (hb : file.tokenizer = .basic) :
    validate file = [] ↔ substitution.edits file = [] := by
  refine ⟨fun h => ?_, validate_of_nil⟩
  have hanswers := answers hb
  rw [h] at hanswers
  exact List.map_eq_nil_iff.1 (List.forall₂_nil_right_iff.1 hanswers)

/-- **The rule on statements agrees with itself.** -/
theorem agrees (hb : file.tokenizer = .basic) :
    Agrees file (validate file)
      ((substitution.edits file).map
        (Substitution.correctionOf description file))
      (substitution.rewritten file) where
  clean_iff := by
    rw [validate_eq_nil_iff hb, List.map_eq_nil_iff]
    refine ⟨fun h => ⟨h, ?_⟩, And.left⟩
    rw [Substitution.rewritten_of_nil h]
  changes := by
    intro hsome hsame
    have hnil := edits_rewritten hb
    rw [Substitution.rewritten_of_contents hsame] at hnil
    exact hsome (List.map_eq_nil_iff.2 hnil)

end StatementPosition

/-! ## Collections

That two passes have changed a text does not follow from that each of them
has, as the second might undo the first. It is seen by counting square
brackets. -/

namespace CollectionShorthand

variable {form : Form} {piece written back : List Char}

/-- **A file of which nothing is reported is settled**, and so is no
other. -/
theorem validate_eq_nil_iff : validate file = [] ↔ Settled file := by
  refine ⟨fun h form => ?_, Settled.validate⟩
  have hfound : found file = [] := by
    have hlength := congrArg List.length h
    unfold CollectionShorthand.validate at hlength
    rw [List.length_mergeSort, List.length_map] at hlength
    exact List.length_eq_zero_iff.1 hlength
  unfold found at hfound
  rw [List.flatMap_eq_nil_iff] at hfound
  have hkept : (file.matchesOf form.substitution.pattern).filter
      form.substitution.keep = [] := by
    have hkept := hfound _ (mem_substitutions_iff.2 ⟨form, rfl⟩)
    cases form <;> exact hkept
  rw [form.performs.filter_matchesOf form.lawful] at hkept
  exact List.map_eq_nil_iff.1 hkept

theorem Form.count_written (h : form.reading.reads piece written back) :
    written.count '[' = piece.count '[' + 1 := by
  rw [List.count_eq_zero_of_not_mem (not_mem_of_reads h)]
  obtain ⟨lead, body, short, hlead, habbr, -, rfl⟩ := h
  have hlead' : '[' ∉ lead := fun hm =>
    absurd (hlead.isLeadChar _ hm) (by decide)
  have hshort : '[' ∉ short := fun hm =>
    habbr.forall_short (p := (· ≠ '[')) (by rintro c hc rfl; cases hc)
      (by decide) (by decide) '[' hm rfl
  unfold brackets
  rw [List.count_append, List.count_cons_self, List.count_append,
    List.count_eq_zero_of_not_mem hlead', List.count_eq_zero_of_not_mem hshort]
  rfl

/-- **Each correction adds one square bracket to the text.** -/
theorem Form.count_rewritten (form : Form) (hb : file.tokenizer = .basic) :
    (form.substitution.rewritten file).text.count '['
      = file.text.count '[' + (form.substitution.edits file).length := by
  have hsweep := form.performs.sweep_edits (P := fun _ _ _ => True)
    form.lawful hb fun _ _ _ _ _ _ => trivial
  rw [Substitution.text_rewritten]
  exact hsweep.count_eq Form.count_written

theorem count_corrected (hb : file.tokenizer = .basic) :
    (corrected file).text.count '['
      = file.text.count '[' + ((arraySubstitution.edits file).length +
          (dictionarySubstitution.edits
            (arraySubstitution.rewritten file)).length) := by
  have harray : (arraySubstitution.rewritten file).text.count '[' = _ :=
    Form.array.count_rewritten hb
  have hdictionary : (corrected file).text.count '[' = _ :=
    Form.dictionary.count_rewritten
      ((arraySubstitution.tokenizer_rewritten file).trans hb)
  rw [hdictionary, harray, Nat.add_assoc]
  rfl

/-- **A file is settled if neither pass over it makes edits.** The second
pass is then over the file as it is, for the first has left it so. -/
theorem settled_iff :
    Settled file ↔ arraySubstitution.edits file = [] ∧
      dictionarySubstitution.edits (arraySubstitution.rewritten file) = [] := by
  constructor
  · intro h
    have harray : arraySubstitution.edits file = [] := h .array
    rw [Substitution.rewritten_of_nil harray]
    exact ⟨harray, h .dictionary⟩
  · rintro ⟨harray, hdictionary⟩ form
    rw [Substitution.rewritten_of_nil harray] at hdictionary
    cases form with
    | array => exact harray
    | dictionary => exact hdictionary

/-- The rule leaves a settled file as it is. -/
theorem Settled.corrected (h : Settled file) : corrected file = file := by
  have harray : arraySubstitution.edits file = [] := h .array
  unfold CollectionShorthand.corrected
  rw [Substitution.rewritten_of_nil harray]
  exact Substitution.rewritten_of_nil (h .dictionary)

/-- **The rule on collections agrees with itself.** -/
theorem agrees (hb : file.tokenizer = .basic) :
    Agrees file (validate file)
      ((arraySubstitution.edits file).map
            (Substitution.correctionOf description file) ++
          (dictionarySubstitution.edits (arraySubstitution.rewritten file)).map
            (Substitution.correctionOf description
              (arraySubstitution.rewritten file)))
      (corrected file) where
  clean_iff := by
    rw [List.append_eq_nil_iff, List.map_eq_nil_iff, List.map_eq_nil_iff,
      ← settled_iff, validate_eq_nil_iff]
    exact ⟨fun h => ⟨h, congrArg SourceFile.contents h.corrected⟩, And.left⟩
  changes := by
    intro hsome hsame
    have hcount := count_corrected hb
    rw [SourceFile.text_of_contents hsame] at hcount
    refine hsome (List.length_eq_zero_iff.1 ?_)
    rw [List.length_append, List.length_map, List.length_map]
    omega

end CollectionShorthand

/-! ## All built-in rules -/

/-- **Each built-in rule that corrects agrees with itself** on every text in
memory: it reports nothing exactly if it corrects nothing and leaves the
contents as they are, and if it corrects something the contents change. -/
theorem BuiltIn.agrees_allRules (contents : String) (disk : Disk) :
    ∀ r ∈ BuiltIn.allRules, ∀ correct, r.correct? = some correct →
      ∃ corrections after,
        correct (.ofContents contents) disk
          = ⟨.ok corrections, after, disk⟩ ∧
        Agrees (.ofContents contents) (r.validate (.ofContents contents))
          corrections after := by
  intro r hr correct hcorrect
  unfold BuiltIn.allRules BuiltIn.defaultRules at hr
  simp only [List.cons_append, List.nil_append, List.mem_cons,
    List.not_mem_nil, or_false] at hr
  rcases hr with rfl | rfl | rfl | rfl
  · obtain rfl := Option.some.inj hcorrect
    exact ⟨_, _, StatementPosition.correct_inMemory _ disk rfl,
      StatementPosition.agrees rfl⟩
  · obtain rfl := Option.some.inj hcorrect
    exact ⟨_, _, CollectionShorthand.correct_inMemory _ disk rfl,
      CollectionShorthand.agrees rfl⟩
  · exact nomatch hcorrect
  · exact nomatch hcorrect

/-- A text that is clean for the one rule, and that the other corrects in
both of its passes. -/
theorem BuiltIn.agrees_allRules_passes :
    let disk : Disk := ⟨default, default, 0, fun _ => none⟩
    let file := SourceFile.ofContents
      "\x7d else a:Array<Int>, b:Dictionary<Int,Int>"
    StatementPosition.validate file = [] ∧
    ∃ corrections after,
      CollectionShorthand.correct file disk
        = ⟨.ok corrections, after, disk⟩ ∧
      Agrees file (CollectionShorthand.validate file) corrections after ∧
      after.contents = "\x7d else a:[Int], b:[Int: Int]" := by
  intro disk file
  obtain ⟨made, after, hmade, hclean⟩ := BuiltIn.agrees_allRules
    "\x7d else a:Array<Int>, b:Dictionary<Int,Int>" disk
    StatementPosition.rule (by simp [allRules, defaultRules]) _ rfl
  have hnone : made = [] := Except.ok.inj
    ((congrArg Attempt.outcome hmade).symm.trans (by decide +kernel))
  have hsame : after.contents = file.contents :=
    (congrArg (·.file.contents) hmade).symm.trans (by decide +kernel)
  obtain ⟨corrections, after', hcorrect, hagrees⟩ := BuiltIn.agrees_allRules
    "\x7d else a:Array<Int>, b:Dictionary<Int,Int>" disk
    CollectionShorthand.rule (by simp [allRules, defaultRules]) _ rfl
  exact ⟨hclean.clean_iff.2 ⟨hnone, hsame⟩, corrections, after', hcorrect,
    hagrees, (congrArg (·.file.contents) hcorrect).symm.trans
      (by decide +kernel)⟩

end SwiftStyle
