import SwiftStyle.Proofs.Linter.Reported
import SwiftStyle.Proofs.Rules.Places
import SwiftStyle.Proofs.Source.Substitution

/-!
# The order of the corrections in a report

A file is corrected in **stages**: each rule makes its substitutions one
after the other, and each of these starts from the file that the ones before
it left. Within a stage the corrections stand from left to right, as they are
made in one pass over one text (`Stage.ascending`). The report of a file is
one stage behind the other (`exists_ran`).

So it is in order if no stage goes back behind the end of another
(`Correction.inOrder_iff`), and only then. That can fail in two ways. A stage
may have something to correct on the left of what the ones before it have
corrected, as with a dictionary before an array (`report_out_of_order`). And
the offsets of a later stage are those of another text, which the stages
before it have made shorter or longer: a place on the right may come to have
the smaller offset.

A rule of the built-in registry corrects by substitutions only, so what rules
do to a file is a **plan**, and the stages of a plan are determined by the
plan and the file, without the disk (`Stage.along`). The disk decides how far
the plan is followed: up to the first rule that fails, whose stages are not
reported.
-/

namespace SwiftStyle

/-- **Corrections from left to right.** -/
def Correction.InOrder (corrections : List Correction) : Prop :=
  corrections.Pairwise fun c d => c.location.offset ≤ d.location.offset

instance (corrections : List Correction) :
    Decidable (Correction.InOrder corrections) :=
  inferInstanceAs (Decidable (List.Pairwise _ _))

/-! ## Stages

One stage is in order by itself. That stages are in order behind each other is
a question about their last and first corrections. -/

/-- **A stage of the correction of a file**: a substitution that is made for
a rule, and the file that it starts from. -/
structure Stage where
  /-- What is known about the rule. -/
  rule : RuleDescription
  /-- The substitution. -/
  substitution : Substitution
  /-- The file that it starts from. -/
  file : SourceFile

namespace Stage

/-- The corrections of a stage, located in the file that it starts from. -/
def corrections (stage : Stage) : List Correction :=
  (stage.substitution.edits stage.file).map
    (Substitution.correctionOf stage.rule stage.file)

/-- **A stage goes on from another** if it does not begin on the left of
where the other ends. -/
def GoesOn (stage later : Stage) : Prop :=
  ∀ c ∈ stage.corrections.getLast?, ∀ d ∈ later.corrections.head?,
    c.location.offset ≤ d.location.offset

instance (stage later : Stage) : Decidable (GoesOn stage later) :=
  inferInstanceAs (Decidable (∀ c ∈ stage.corrections.getLast?,
    ∀ d ∈ later.corrections.head?, c.location.offset ≤ d.location.offset))

/-- What is to be done to a file: substitutions, with the rules for which they
are made. -/
abbrev Plan := List (RuleDescription × Substitution)

/-- **The stages of a plan**: each starts from the file that the one before
it leaves. -/
def along : SourceFile → Plan → List Stage
  | _, [] => []
  | file, (rule, s) :: plan => ⟨rule, s, file⟩ :: along (s.rewritten file) plan

/-- The file that a plan leaves. -/
def fileAfter (file : SourceFile) (plan : Plan) : SourceFile :=
  plan.foldl (fun file step => step.2.rewritten file) file

/-- A plan may be followed in two parts. -/
theorem along_append (file : SourceFile) (plan later : Plan) :
    along file (plan ++ later)
      = along file plan ++ along (fileAfter file plan) later := by
  induction plan generalizing file with
  | nil => rfl
  | cons step plan ih => exact congrArg (_ :: ·) (ih _)

/-- **The corrections of a stage ascend.** -/
theorem ascending (stage : Stage) :
    stage.corrections.Pairwise fun c d =>
      c.location.offset < d.location.offset :=
  (Substitution.rewrites_resultOf stage.rule
    (stage.substitution.pattern.separate_occurrences stage.file.text)).ascending

end Stage

/-- **The corrections of stages are in order** if each stage goes on from all
that are before it. -/
theorem Correction.inOrder_iff {stages : List Stage} :
    InOrder (stages.flatMap Stage.corrections)
      ↔ stages.Pairwise Stage.GoesOn := by
  have hone : ∀ stage ∈ stages, InOrder stage.corrections := fun stage _ =>
    stage.ascending.imp Nat.le_of_lt
  unfold InOrder at hone ⊢
  rw [List.pairwise_flatMap, and_iff_right hone]
  exact List.Pairwise.iff_of_mem fun _ _ =>
    forall_le_iff_of_ascending (Stage.ascending _) (Stage.ascending _)

/-! ## What a rule does in stages

Whether a substitution is saved decides if it fails, and not what it makes of
the text. -/

namespace Substitution

variable {rule : RuleDescription} {s : Substitution}
  {list : List Substitution} {file after : SourceFile}
  {disk diskAfter : Disk}

/-- A substitution that does not fail rewrites the file, however it is
saved. -/
theorem apply_eq_ok {result : CorrectionResult}
    (h : s.apply rule file disk = ⟨.ok result, after, diskAfter⟩) :
    result.corrections = (s.edits file).map (correctionOf rule file) ∧
      after = s.rewritten file := by
  unfold apply perform at h
  split at h
  next hnil =>
    have hedits := List.isEmpty_iff.1 hnil
    obtain ⟨hresult, rfl, -⟩ := Attempt.mk.inj h
    obtain rfl := Except.ok.inj hresult
    rw [hedits, rewritten_of_nil hedits]
    exact ⟨rfl, rfl⟩
  next =>
    have hwrite := file.write_fst disk
      (resultOf rule file (s.edits file)).contents
    dsimp only at h
    split at h
    next changed _ heq =>
      obtain ⟨hresult, rfl, -⟩ := Attempt.mk.inj h
      obtain rfl := Except.ok.inj hresult
      rw [heq] at hwrite
      exact ⟨rfl, hwrite⟩
    next => exact nomatch (Attempt.mk.inj h).1

/-- **Substitutions that do not fail are stages**: the corrections are those
of one behind the other. -/
theorem applyAll_eq_ok {corrections : List Correction}
    (h : applyAll rule list file disk
      = ⟨.ok corrections, after, diskAfter⟩) :
    corrections
        = (Stage.along file (list.map (rule, ·))).flatMap Stage.corrections ∧
      after = Stage.fileAfter file (list.map (rule, ·)) := by
  induction list generalizing file disk corrections with
  | nil =>
    obtain ⟨hcorrections, rfl, -⟩ := Attempt.mk.inj h
    exact ⟨(Except.ok.inj hcorrections).symm, rfl⟩
  | cons s list ih =>
    rw [applyAll] at h
    rcases hs : s.apply rule file disk with ⟨e | result, between, disk'⟩
    · rw [hs] at h
      cases (Attempt.mk.inj h).1
    · rw [hs] at h
      obtain ⟨hmade, rfl⟩ := apply_eq_ok hs
      obtain ⟨later, hlater, rfl⟩ := Attempt.map_eq_ok h
      obtain ⟨rfl, rfl⟩ := ih hlater
      exact ⟨congrArg (· ++ _) hmade, rfl⟩

end Substitution

/-! ## What a linter does in stages

The rules that ran are the rules in front of the first that failed, and their
plan has been followed to its end. -/

namespace BuiltIn.Choice

/-- The substitutions by which a built-in rule corrects. -/
def substitutions : Choice → List Substitution
  | statementPosition => [StatementPosition.substitution]
  | collectionShorthand => CollectionShorthand.substitutions
  | lineLength _ => []
  | emptyCount => []

/-- What is to be done to a file for built-in rules. -/
def plan (choices : List Choice) : Stage.Plan :=
  choices.flatMap fun choice =>
    choice.substitutions.map (choice.rule.description, ·)

/-- A built-in rule makes its substitutions, or is none that corrects. -/
theorem corrects_or_not (choice : Choice) :
    (choice.rule.correct? = none ∧ choice.substitutions = []) ∨
      choice.rule.correct? = some (Substitution.applyAll
        choice.rule.description choice.substitutions) := by
  cases choice with
  | statementPosition => exact .inr rfl
  | collectionShorthand => exact .inr rfl
  | lineLength limits => exact .inl ⟨rfl, rfl⟩
  | emptyCount => exact .inl ⟨rfl, rfl⟩

/-- **The corrections of a file are those of the stages** of the rules in
front of the first that fails. -/
theorem exists_ran (choices : List Choice) (file : SourceFile)
    (disk : Disk) :
    let c := Linter.correctWith (choices.map rule) file disk
    ∃ ran, ran <+: choices ∧ (c.failure = none → ran = choices) ∧
      c.corrections
        = (Stage.along file (plan ran)).flatMap Stage.corrections := by
  induction choices generalizing file disk with
  | nil => exact ⟨[], List.prefix_rfl, fun _ => rfl, rfl⟩
  | cons choice choices ih =>
    rw [List.map_cons, Linter.correctWith]
    rcases choice.corrects_or_not with ⟨hcorrect, hnone⟩ | hcorrect
    · -- the rule is passed over, and has no stages
      rw [hcorrect]
      obtain ⟨ran, hran, hall, hcorrections⟩ := ih file disk
      have hplan : plan (choice :: ran) = plan ran := by
        unfold plan
        rw [List.flatMap_cons, hnone]
        rfl
      exact ⟨choice :: ran, List.cons_prefix_cons.2 ⟨rfl, hran⟩,
        fun h => congrArg (choice :: ·) (hall h), hplan ▸ hcorrections⟩
    · rw [hcorrect]
      dsimp only
      rcases hmade : Substitution.applyAll choice.rule.description
        choice.substitutions file disk with ⟨e | made, after, diskAfter⟩
      · exact ⟨[], List.nil_prefix, fun h => (by cases h), rfl⟩
      · obtain ⟨rfl, rfl⟩ := Substitution.applyAll_eq_ok hmade
        obtain ⟨ran, hran, hall, hcorrections⟩ := ih _ diskAfter
        refine ⟨choice :: ran, List.cons_prefix_cons.2 ⟨rfl, hran⟩,
          fun h => congrArg (choice :: ·) (hall h), ?_⟩
        unfold plan at hcorrections ⊢
        rw [List.flatMap_cons, Stage.along_append, List.flatMap_append,
          ← hcorrections]

end BuiltIn.Choice

/-- **What a file adds to the report is one stage behind the other**, and the
corrections of each stage ascend. They are all in order if no stage begins on
the left of where one before it ends, and only then. -/
theorem reports_in_order_iff (choices : List BuiltIn.Choice) (l : Linter)
    (hl : l.rules = choices.map BuiltIn.Choice.rule) (disk : Disk)
    (before after : List Path) (path : Path) (file : SourceFile)
    (hread : SourceFile.read (l.correctFiles disk before).disk path
      = .ok file) :
    let run := l.correctFiles disk before
    let share := Linter.reportOf path (l.correctInto file run.disk)
    (∃ later : CorrectionReport,
      (l.correctFiles disk (before ++ path :: after)).report
        = (run.report.extend share).extend later) ∧
    ∃ ran, ran <+: choices ∧ (share.failures = [] → ran = choices) ∧
      let stages := Stage.along file (BuiltIn.Choice.plan ran)
      share.corrections = stages.flatMap Stage.corrections ∧
      (∀ stage ∈ stages, stage.corrections.Pairwise fun c d =>
        c.location.offset < d.location.offset) ∧
      (Correction.InOrder share.corrections
        ↔ stages.Pairwise Stage.GoesOn) := by
  intro run share
  obtain ⟨ran, hran, hall, hcorrections⟩ :=
    BuiltIn.Choice.exists_ran choices file run.disk
  rw [← hl] at hall hcorrections
  refine ⟨Linter.exists_report_extend after hread, ran, hran, fun h => ?_,
    hcorrections, fun stage _ => stage.ascending, ?_⟩
  · exact hall (by
      simpa [share, Linter.reportOf, Linter.correctInto] using h)
  · exact (iff_of_eq (congrArg _ hcorrections)).trans Correction.inOrder_iff

/-- Three stages that each correct something, behind a rule that corrects
nothing, on the second of two files: each stage goes on from the others. -/
theorem reports_in_order_iff_three :
    let text := "\x7d  else a:Array<Int> b:Dictionary<k,v>"
    let disk : Disk :=
      { tree := .directory
          [("a", .file (.text "\x7d\nelse")), ("b", .file (.text text))]
        current := []
        fault := fun _ => none }
    let choices : List BuiltIn.Choice :=
      [.lineLength [⟨.error, 20⟩], .statementPosition, .collectionShorthand]
    let l : Linter := ⟨⟨"/"⟩, choices.map BuiltIn.Choice.rule, [], default⟩
    let run := l.correctFiles disk [⟨"/a"⟩]
    let file := (SourceFile.ofContents text).withPath ⟨"/b"⟩
    let share := Linter.reportOf ⟨"/b"⟩ (l.correctInto file run.disk)
    SourceFile.read run.disk ⟨"/b"⟩ = .ok file ∧
    (∃ later : CorrectionReport,
      (l.correctFiles disk [⟨"/a"⟩, ⟨"/b"⟩]).report
        = (run.report.extend share).extend later) ∧
    share.corrections.map (·.location.offset) = [0, 8, 16] ∧
    Correction.InOrder share.corrections := by
  intro text disk choices l run file share
  have hread : SourceFile.read run.disk ⟨"/b"⟩ = .ok file := by
    have hdisk : run.disk.read ⟨"/b"⟩ = .ok text := by decide +kernel
    unfold SourceFile.read
    rw [hdisk]
  obtain ⟨hrun, ran, -, hall, -, -, hiff⟩ :=
    reports_in_order_iff choices l rfl disk [⟨"/a"⟩] [] ⟨"/b"⟩ file hread
  obtain rfl := hall (by decide +kernel)
  exact ⟨hread, hrun, by decide +kernel, hiff.2 (by decide +kernel)⟩

/-- **A report that is out of order**: the array is corrected first, and the
dictionary before it afterwards. -/
theorem report_out_of_order :
    let disk : Disk :=
      { tree := .directory
          [("a.swift", .file (.text "a:Dictionary<Int,Int>,b:Array<Int>"))]
        current := []
        fault := fun _ => none }
    let l : Linter :=
      ⟨⟨"/a.swift"⟩, [CollectionShorthand.rule], [], default⟩
    ∃ run, l.correct disk = .ok run ∧
      run.report.corrections.map (·.location.offset) = [23, 1] ∧
      ¬ Correction.InOrder run.report.corrections := by
  intro disk l
  have hdiscover : l.discover disk = .ok [⟨"/a.swift"⟩] :=
    Linter.discover_of_file (by decide +kernel)
  refine ⟨l.correctFiles disk [⟨"/a.swift"⟩], ?_, ?_⟩
  · unfold Linter.correct
    rw [hdiscover]
    rfl
  · decide +kernel

/-- The same from left to right: the arrays become shorter, and the dictionary
behind them comes to have a smaller offset than the last of them. -/
example :
    let file := SourceFile.ofContents
      ":Array<Int>:Array<Int>:Array<Int>:Dictionary<Int,Int>"
    let disk : Disk := ⟨default, default, 0, fun _ => none⟩
    (Linter.correctWith [CollectionShorthand.rule] file
      disk).corrections.map (·.location.offset) = [0, 11, 22, 18] := by
  decide +kernel

end SwiftStyle
