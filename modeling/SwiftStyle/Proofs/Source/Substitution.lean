import SwiftStyle.Proofs.Pattern.Occurrence
import SwiftStyle.Proofs.Source.Position
import SwiftStyle.Source.Substitution

/-!
# A substitution rewrites its text in one pass

A substitution makes its edits from the last to the first, each in the
text that the later ones left. What it comes to is simpler: go through
the text once, from its front to its end, copy what lies between the
occurrences, and write for each occurrence either its expansion or the
text that stands there (`Substitution.rewriteFrom`).

The two agree because an edit changes nothing before the place it begins
at, and the occurrences are separate: what the later edits did lies
behind the end of the edit that is made next (`applyAll_editsOf`). So the
groups an expansion refers to, and the place a correction records, are
those of the text that the substitution started from.

`Substitution.rewrites_apply` states this of the occurrences of a pattern
and of any other list of separate occurrences, whether or not the
corrected text could be saved.

The induction is on the occurrences from the left, with the text in front of
them general: the edits of all later ones have been made when the first is
made, and they lie behind its end, so that the first edit finds the text in
front of its end as it was. That the later edits are those of the rest of the
pass is the hypothesis of the induction, for a longer front.
-/

namespace SwiftStyle

/-- **What an attempt at a substitution computed**, whether or not it was
saved. -/
def Attempt.result (a : Attempt CorrectionResult) : CorrectionResult :=
  match a.outcome with
  | .ok result => result
  | .error e => e.result

/-- **The place of an occurrence** in the text it was found in. -/
def SourceFile.placeOf (file : SourceFile) (o : Occurrence) : Location :=
  let position := Position.behind (Text.takeBytes o.span.start file.text)
  ⟨file.path, o.span.start, position.line, position.column⟩

namespace Substitution

/-- Whether an occurrence is replaced: it is kept, and what it expands to
is another text. -/
def replaces (s : Substitution) (file : SourceFile) (o : Occurrence) :
    Bool :=
  s.keep (file.matchAt o.span) && decide (s.template.expand o ≠ o.text)

/-- What stands in the place of an occurrence afterwards. -/
def written (s : Substitution) (file : SourceFile) (o : Occurrence) :
    List Char :=
  if s.replaces file o then s.template.expand o else o.text

/-- **One pass over a text** that begins at an offset: what lies between
the occurrences is copied, and each of them is written. -/
def rewriteFrom (s : Substitution) (file : SourceFile) :
    (offset : Nat) → List Occurrence → List Char → List Char
  | _, [], text => text
  | offset, o :: found, text =>
    Text.takeBytes (o.span.start - offset) text ++
      (s.written file o ++
        rewriteFrom s file o.span.stop found
          (Text.dropBytes (o.span.stop - offset) text))

/-- **A result rewrites the text of a file**: its text is that of one
pass over the occurrences, and its corrections are the places of the
replaced ones, in their order. -/
structure Rewrites (s : Substitution) (rule : RuleDescription)
    (file : SourceFile) (found : List Occurrence)
    (result : CorrectionResult) : Prop where
  /-- The text is that of one pass. -/
  contents : result.contents.toList = s.rewriteFrom file 0 found file.text
  /-- There is one correction for every replaced occurrence, at its
  place. -/
  corrections : result.corrections
    = (found.filter (s.replaces file)).map fun o => ⟨rule, file.placeOf o⟩
  /-- The corrections have ascending offsets. -/
  ascending : result.corrections.Pairwise fun c d =>
    c.location.offset < d.location.offset

variable {s : Substitution} {file : SourceFile}

theorem editOf?_eq (s : Substitution) (file : SourceFile)
    (o : Occurrence) :
    s.editOf? file o
      = if s.replaces file o then some ⟨o.span, s.template.expand o⟩
        else none := by
  unfold editOf? replaces
  by_cases hkeep : s.keep (file.matchAt o.span)
  · by_cases hsame : s.template.expand o = o.text
    · simp [hkeep, hsame]
    · simp [hkeep, hsame]
  · simp [hkeep]

theorem editsOf_eq (s : Substitution) (file : SourceFile)
    (found : List Occurrence) :
    s.editsOf file found
      = (found.filter (s.replaces file)).map fun o =>
          ⟨o.span, s.template.expand o⟩ := by
  unfold editsOf
  rw [show s.editOf? file = _ from funext (s.editOf?_eq file)]
  induction found with
  | nil => rfl
  | cons o found ih =>
    by_cases h : s.replaces file o
    · rw [List.filterMap_cons_some (by rw [if_pos h]),
        List.filter_cons_of_pos h, List.map_cons, ih]
    · rw [List.filterMap_cons_none (by rw [if_neg h]),
        List.filter_cons_of_neg h, ih]

/-- Where the first of separate occurrences stands in what is left of the
text. -/
theorem exists_gap {front back : List Char} {o : Occurrence}
    {found : List Occurrence}
    (h : Occurrence.Separate (front ++ back) (o :: found))
    (hle : Text.size front ≤ o.span.start) :
    ∃ gap rest, back = gap ++ (o.text ++ rest) ∧
      Text.size (front ++ gap) = o.span.start ∧
      Text.size (front ++ gap ++ o.text) = o.span.stop := by
  obtain ⟨before, rest, htext, hstart, hstop⟩ :=
    Text.slice?_eq_some.1 (h.bounded o List.mem_cons_self)
  rw [List.append_assoc] at htext
  rw [← hstart] at hle
  obtain ⟨gap, rfl, hback⟩ := Text.exists_append_of_size_le htext hle
  exact ⟨gap, rest, hback, hstart, hstop⟩

/-- **Edits from the last to the first are one pass over the text.** What
lies in front of the first occurrence is not touched. -/
theorem applyAll_editsOf {front back : List Char}
    {found : List Occurrence}
    (h : Occurrence.Separate (front ++ back) found)
    (hle : ∀ o ∈ found, Text.size front ≤ o.span.start) :
    Edit.applyAll (s.editsOf file found) (front ++ back)
      = front ++ s.rewriteFrom file (Text.size front) found back := by
  induction found generalizing front back with
  | nil => rfl
  | cons o found ih =>
    obtain ⟨gap, rest, rfl, hstart, hstop⟩ :=
      exists_gap h (hle o List.mem_cons_self)
    -- the later edits leave the text up to the end of this occurrence
    have htext : front ++ (gap ++ (o.text ++ rest))
        = front ++ gap ++ o.text ++ rest := by simp
    have hlater : Edit.applyAll (s.editsOf file found)
        (front ++ (gap ++ (o.text ++ rest)))
          = front ++ gap ++ (o.text ++
              s.rewriteFrom file o.span.stop found rest) := by
      rw [htext] at h ⊢
      rw [ih h.of_cons, hstop, List.append_assoc]
      intro p hp
      rw [hstop]
      exact (List.pairwise_cons.1 h.disjoint).1 p hp
    have hgap : o.span.start - Text.size front = Text.size gap := by
      rw [← hstart, Text.size_append, Nat.add_sub_cancel_left]
    have hpiece : o.span.stop - Text.size front
        = Text.size (gap ++ o.text) := by
      rw [← hstop, List.append_assoc, Text.size_append,
        Nat.add_sub_cancel_left]
    have hdrop : Text.dropBytes o.span.stop (front ++ gap ++ (o.text ++
        s.rewriteFrom file o.span.stop found rest))
          = s.rewriteFrom file o.span.stop found rest := by
      rw [← List.append_assoc, ← hstop, Text.dropBytes_size_append]
    unfold rewriteFrom
    rw [hgap, hpiece, Text.takeBytes_size_append, ← List.append_assoc gap,
      Text.dropBytes_size_append]
    unfold editsOf at hlater ⊢
    by_cases hreplaced : s.replaces file o
    · rw [List.filterMap_cons_some (by rw [editOf?_eq, if_pos hreplaced])]
      unfold Edit.applyAll at hlater ⊢
      rw [List.foldr_cons, List.append_assoc gap, hlater]
      unfold Edit.apply written
      dsimp only
      rw [hdrop, ← hstart, Text.takeBytes_size_append, if_pos hreplaced,
        List.append_assoc]
    · rw [List.filterMap_cons_none (by rw [editOf?_eq, if_neg hreplaced]),
        List.append_assoc gap, hlater]
      unfold written
      rw [if_neg hreplaced, List.append_assoc]

/-- Whether or not the edits are saved, their result is what they make of
the text. -/
theorem result_perform (rule : RuleDescription) (file : SourceFile)
    (disk : Disk) (edits : List Edit) :
    (perform rule file disk edits).result = resultOf rule file edits := by
  unfold perform
  split
  next h =>
    obtain rfl : edits = [] := List.isEmpty_iff.1 h
    unfold resultOf Edit.applyAll
    rw [List.foldr_nil, file.text_eq, String.ofList_toList]
    rfl
  next =>
    dsimp only
    split <;> rfl

/-- The place a correction records is that of its occurrence. -/
theorem locate_start {found : List Occurrence} {o : Occurrence}
    (h : Occurrence.Separate file.text found) (ho : o ∈ found) :
    file.locate o.span.start = file.placeOf o := by
  obtain ⟨front, back, htext, hstart, -⟩ :=
    Text.slice?_eq_some.1 (h.bounded o ho)
  rw [List.append_assoc] at htext
  unfold SourceFile.placeOf
  rw [← hstart, SourceFile.locate_size htext, htext,
    Text.takeBytes_size_append]

/-- The result of the edits of separate occurrences rewrites the text. -/
theorem rewrites_resultOf (rule : RuleDescription)
    {found : List Occurrence}
    (h : Occurrence.Separate file.text found) :
    s.Rewrites rule file found
      (resultOf rule file (s.editsOf file found)) := by
  have hcorrections : (s.editsOf file found).map (correctionOf rule file)
      = (found.filter (s.replaces file)).map
          fun o => ⟨rule, file.placeOf o⟩ := by
    rw [editsOf_eq, List.map_map]
    refine List.map_congr_left fun o ho => ?_
    exact congrArg (Correction.mk rule)
      (locate_start h (List.mem_of_mem_filter ho))
  unfold resultOf
  refine ⟨?_, hcorrections, ?_⟩
  · dsimp only
    rw [String.toList_ofList]
    have hempty : Occurrence.Separate ([] ++ file.text) found := h
    exact applyAll_editsOf hempty fun o _ => Nat.zero_le _
  · dsimp only
    rw [hcorrections, List.pairwise_map]
    exact h.ascending.filter _

theorem rewrites_perform (rule : RuleDescription) (disk : Disk)
    {found : List Occurrence}
    (h : Occurrence.Separate file.text found) :
    s.Rewrites rule file found
      (perform rule file disk (s.editsOf file found)).result := by
  rw [result_perform]
  exact rewrites_resultOf rule h

/-- **A substitution rewrites its text in one pass**, from left to right:
with the occurrences of its pattern, and with those that any other search
finds, as long as they are separate. -/
theorem rewrites_apply (s : Substitution) (rule : RuleDescription)
    (file : SourceFile) (disk : Disk) :
    s.Rewrites rule file (s.pattern.occurrences file.text)
        (s.apply rule file disk).result ∧
      ∀ found, Occurrence.Separate file.text found →
        s.Rewrites rule file found
          (perform rule file disk (s.editsOf file found)).result :=
  ⟨rewrites_perform rule disk (s.pattern.separate_occurrences file.text),
    fun _ h => rewrites_perform rule disk h⟩

/-- Occurrences that touch, one of them empty and one a line feed, are
separate, and are rewritten. -/
theorem rewrites_touching :
    let s : Substitution :=
      ⟨.empty, ⟨[.char '<', .numbered 0, .char '>']⟩, fun _ => true⟩
    let file := SourceFile.ofContents "é\nbc"
    let found : List Occurrence :=
      [⟨⟨0, 0⟩, [], []⟩, ⟨⟨2, 3⟩, ['\n'], []⟩, ⟨⟨3, 4⟩, ['b'], []⟩]
    let result := (perform default file ⟨default, default, 0, fun _ => none⟩
      (s.editsOf file found)).result
    Occurrence.Separate file.text found ∧
      s.Rewrites default file found result ∧
      result.contents = "<>é<\n><b>c" := by
  have h : Occurrence.Separate (SourceFile.ofContents "é\nbc").text
      [⟨⟨0, 0⟩, [], []⟩, ⟨⟨2, 3⟩, ['\n'], []⟩, ⟨⟨3, 4⟩, ['b'], []⟩] :=
    ⟨by decide, by decide, by decide⟩
  exact ⟨h, (rewrites_apply _ _ _ _).2 _ h, by decide⟩

end Substitution
end SwiftStyle
