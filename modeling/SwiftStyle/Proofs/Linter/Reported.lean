import SwiftStyle.Proofs.Linter.Correcting

/-!
# Which corrections are reported

A rule that corrects by substitutions makes a **pass** over the file for
each of them, and saves the file after every pass that changes something.
When a save fails, the rule fails, the passes before it are on the disk, and
no other rule runs.

A linter reports what the rules that did not fail made. So a file and its
report agree if every rule saves all of its passes or none
(`Rewriter.corrections_eq_saved_iff`), wherever the file comes in a run
(`reports_saved_iff`). A rule that saves one pass and fails at a later one
leaves a change that no report mentions (`report_unreported`). That can only
be a rule of several substitutions (`Rewriter.whole_of_mem_groups`), which
of the built-in ones is the one for collection types.

Passes without an edit are left out of the account: they neither save nor
report anything, and a file in which a rule finds nothing counts as saved as a
whole. All other passes correct something, so that what was saved is empty
only if no pass was saved, and a rule that fails behind a saved pass is told
from one that fails at its first (`Pass.saved_eq_nil_iff`).
-/

namespace SwiftStyle

/-- **A pass over a file that changes something**: what it corrects, and
whether the file was saved. -/
structure Pass where
  /-- The corrections. -/
  corrections : List Correction
  /-- Whether the file was saved. -/
  isSaved : Bool
deriving DecidableEq, Repr

namespace Pass

/-- The corrections of the passes that were saved. -/
def saved (passes : List Pass) : List Correction :=
  (passes.filter isSaved).flatMap corrections

/-- **Passes that were saved all or none.** -/
def Whole (passes : List Pass) : Prop :=
  (∀ p ∈ passes, p.isSaved) ∨ ∀ p ∈ passes, ¬ p.isSaved

instance (passes : List Pass) : Decidable (Whole passes) :=
  inferInstanceAs (Decidable (_ ∨ _))

/-- Nothing was saved if no pass was, as each corrects something. -/
theorem saved_eq_nil_iff {passes : List Pass}
    (h : ∀ p ∈ passes, p.corrections ≠ []) :
    saved passes = [] ↔ ∀ p ∈ passes, ¬ p.isSaved := by
  unfold saved
  rw [List.flatMap_eq_nil_iff]
  constructor
  · exact fun hnil p hp hsaved =>
      h p hp (hnil p (List.mem_filter.2 ⟨hp, hsaved⟩))
  · intro hunsaved p hp
    obtain ⟨hp, hsaved⟩ := List.mem_filter.1 hp
    exact absurd hsaved (hunsaved p hp)

theorem saved_append (passes later : List Pass) :
    saved (passes ++ later) = saved passes ++ saved later := by
  unfold saved
  rw [List.filter_append, List.flatMap_append]

end Pass

namespace Attempt

variable {α β : Type} {f : α → β} {a : Attempt α} {file : SourceFile}
  {disk : Disk}

theorem map_eq_ok {y : β} (h : a.map f = ⟨.ok y, file, disk⟩) :
    ∃ x, a = ⟨.ok x, file, disk⟩ ∧ f x = y := by
  obtain ⟨e | x, _, _⟩ := a
  · exact nomatch h
  · obtain ⟨rfl, rfl, rfl⟩ := h
    exact ⟨x, rfl, rfl⟩

theorem map_eq_error {e : CorrectionError}
    (h : a.map f = ⟨.error e, file, disk⟩) : a = ⟨.error e, file, disk⟩ := by
  obtain ⟨e | x, _, _⟩ := a
  · obtain ⟨rfl, rfl, rfl⟩ := h
    rfl
  · exact nomatch h

end Attempt

namespace Substitution

variable {rule : RuleDescription} {file : SourceFile} {disk : Disk}

/-- **The passes of substitutions over a file**, up to the first that cannot
be saved; a substitution without edits makes none. -/
def passes (rule : RuleDescription) :
    List Substitution → SourceFile → Disk → List Pass
  | [], _, _ => []
  | s :: rest, file, disk =>
    if (s.edits file).isEmpty then passes rule rest file disk
    else
      let result := resultOf rule file (s.edits file)
      match file.write disk result.contents with
      | (changed, .ok (), disk) =>
        ⟨result.corrections, true⟩ :: passes rule rest changed disk
      | (_, .error _, _) => [⟨result.corrections, false⟩]

/-- **What one substitution does**: nothing, a pass that is saved, or a pass
that is not, which ends the attempt. -/
theorem applyAll_step (rule : RuleDescription) (s : Substitution)
    (rest : List Substitution) (file : SourceFile) (disk : Disk) :
    (applyAll rule (s :: rest) file disk = applyAll rule rest file disk ∧
      passes rule (s :: rest) file disk = passes rule rest file disk) ∨
    (∃ made changed diskAfter, made ≠ [] ∧
      applyAll rule (s :: rest) file disk
        = (applyAll rule rest changed diskAfter).map (made ++ ·) ∧
      passes rule (s :: rest) file disk
        = ⟨made, true⟩ :: passes rule rest changed diskAfter) ∨
    ∃ e changed diskAfter, e.result.corrections ≠ [] ∧
      applyAll rule (s :: rest) file disk = ⟨.error e, changed, diskAfter⟩ ∧
      passes rule (s :: rest) file disk
        = [⟨e.result.corrections, false⟩] := by
  rw [applyAll, passes, apply, perform]
  by_cases hedits : (s.edits file).isEmpty
  · left
    rw [if_pos hedits, if_pos hedits]
    refine ⟨?_, rfl⟩
    dsimp only [Attempt.map, List.nil_append]
    rcases applyAll rule rest file disk with ⟨_ | _, _, _⟩ <;> rfl
  · right
    rw [if_neg hedits, if_neg hedits]
    have hne : (resultOf rule file (s.edits file)).corrections ≠ [] :=
      fun hnil => hedits (List.isEmpty_iff.2 (List.map_eq_nil_iff.1 hnil))
    dsimp only
    rcases file.write disk (resultOf rule file (s.edits file)).contents with
      ⟨changed, cause | _, diskAfter⟩
    · right
      exact ⟨.persist cause _, changed, diskAfter, hne, rfl, rfl⟩
    · left
      exact ⟨_, changed, diskAfter, hne, rfl, rfl⟩

theorem corrections_ne_nil {list : List Substitution} {p : Pass}
    (h : p ∈ passes rule list file disk) : p.corrections ≠ [] := by
  induction list generalizing file disk with
  | nil => exact absurd h List.not_mem_nil
  | cons s rest ih =>
    obtain ⟨-, hpasses⟩ | ⟨made, changed, diskAfter, hne, -, hpasses⟩ |
        ⟨e, changed, diskAfter, hne, -, hpasses⟩ :=
      applyAll_step rule s rest file disk
    · exact ih (hpasses ▸ h)
    · rw [hpasses] at h
      rcases List.mem_cons.1 h with rfl | h
      · exact hne
      · exact ih h
    · rw [hpasses] at h
      obtain rfl := List.mem_singleton.1 h
      exact hne

/-- **Substitutions that do not fail save every pass**, and correct what the
passes do. -/
theorem passes_of_ok {list : List Substitution} {after : SourceFile}
    {diskAfter : Disk} {corrections : List Correction}
    (h : applyAll rule list file disk
      = ⟨.ok corrections, after, diskAfter⟩) :
    (∀ p ∈ passes rule list file disk, p.isSaved) ∧
      Pass.saved (passes rule list file disk) = corrections := by
  induction list generalizing file disk corrections with
  | nil =>
    obtain ⟨rfl, -, -⟩ := h
    exact ⟨fun p hp => absurd hp List.not_mem_nil, rfl⟩
  | cons s rest ih =>
    obtain ⟨hrest, hpasses⟩ | ⟨made, changed, diskAfter, -, hrest, hpasses⟩ |
        ⟨e, changed, diskAfter, -, hrest, hpasses⟩ :=
      applyAll_step rule s rest file disk <;>
    rw [hrest] at h <;> rw [hpasses]
    · exact ih h
    · obtain ⟨later, hlater, rfl⟩ := Attempt.map_eq_ok h
      obtain ⟨hsaved, rfl⟩ := ih hlater
      exact ⟨List.forall_mem_cons.2 ⟨rfl, hsaved⟩, rfl⟩
    · exact nomatch h

/-- **Substitutions that fail save every pass but the last.** -/
theorem passes_of_error {list : List Substitution} {after : SourceFile}
    {diskAfter : Disk} {e : CorrectionError}
    (h : applyAll rule list file disk = ⟨.error e, after, diskAfter⟩) :
    ∃ before, (∀ p ∈ before, p.isSaved) ∧
      passes rule list file disk
        = before ++ [⟨e.result.corrections, false⟩] := by
  induction list generalizing file disk with
  | nil => exact nomatch h
  | cons s rest ih =>
    obtain ⟨hrest, hpasses⟩ | ⟨made, changed, diskAfter, -, hrest, hpasses⟩ |
        ⟨e, changed, diskAfter, -, hrest, hpasses⟩ :=
      applyAll_step rule s rest file disk <;>
    rw [hrest] at h <;> rw [hpasses]
    · exact ih h
    · obtain ⟨before, hsaved, hbefore⟩ := ih (Attempt.map_eq_error h)
      exact ⟨⟨made, true⟩ :: before, List.forall_mem_cons.2 ⟨rfl, hsaved⟩,
        congrArg (_ :: ·) hbefore⟩
    · obtain ⟨rfl, -, -⟩ := h
      exact ⟨[], fun p hp => absurd hp List.not_mem_nil, rfl⟩

/-- One substitution saves its pass or does not. -/
theorem whole_passes_singleton (rule : RuleDescription) (s : Substitution)
    (file : SourceFile) (disk : Disk) :
    Pass.Whole (passes rule [s] file disk) := by
  obtain ⟨-, hpasses⟩ | ⟨made, changed, diskAfter, -, -, hpasses⟩ |
      ⟨e, changed, diskAfter, -, -, hpasses⟩ :=
    applyAll_step rule s [] file disk <;> rw [hpasses]
  · exact .inl fun p hp => absurd hp List.not_mem_nil
  · exact .inl (List.forall_mem_singleton.2 rfl)
  · exact .inr (List.forall_mem_singleton.2 Bool.false_ne_true)

end Substitution

/-! ## The rules that correct by substitutions

Such a rule is given by its description and its substitutions, and the groups
of passes are counted rule by rule, since it is rules that are reported. -/

/-- **A rule that corrects by substitutions.** -/
structure Rewriter where
  /-- The rule. -/
  rule : Rule
  /-- Its substitutions, in the order in which it makes them. -/
  substitutions : List Substitution
  /-- To correct is to make them. -/
  correct?_eq : rule.correct?
    = some (Substitution.applyAll rule.description substitutions)

/-- The rule on statements makes one substitution. -/
def StatementPosition.rewriter : Rewriter :=
  ⟨rule, [substitution], rfl⟩

/-- The rule on collections makes two. -/
def CollectionShorthand.rewriter : Rewriter :=
  ⟨rule, substitutions, rfl⟩

namespace Rewriter

variable {w : Rewriter} {ws : List Rewriter} {file : SourceFile}
  {disk : Disk}

/-- To correct by a rule. -/
def correct (w : Rewriter) : SourceFile → Disk → Attempt (List Correction) :=
  Substitution.applyAll w.rule.description w.substitutions

/-- The passes of a rule over a file. -/
def passes (w : Rewriter) : SourceFile → Disk → List Pass :=
  Substitution.passes w.rule.description w.substitutions

/-- **The passes of rules over a file**, rule by rule, up to the first that
fails. -/
def groups : List Rewriter → SourceFile → Disk → List (List Pass)
  | [], _, _ => []
  | w :: ws, file, disk =>
    match w.correct file disk with
    | ⟨.ok _, after, diskAfter⟩ =>
      w.passes file disk :: groups ws after diskAfter
    | ⟨.error _, _, _⟩ => [w.passes file disk]

/-- **A rule of one substitution saves all or nothing.** -/
theorem whole_of_mem_groups (h : ∀ w ∈ ws, ∃ s, w.substitutions = [s])
    {group : List Pass} (hgroup : group ∈ groups ws file disk) :
    Pass.Whole group := by
  induction ws generalizing file disk with
  | nil => exact absurd hgroup List.not_mem_nil
  | cons w ws ih =>
    obtain ⟨⟨s, hs⟩, hws⟩ := List.forall_mem_cons.1 h
    have hwhole : Pass.Whole (w.passes file disk) := by
      rw [passes, hs]
      exact Substitution.whole_passes_singleton _ s file disk
    rw [groups] at hgroup
    split at hgroup
    · rcases List.mem_cons.1 hgroup with rfl | hgroup
      · exact hwhole
      · exact ih hws hgroup
    · obtain rfl := List.mem_singleton.1 hgroup
      exact hwhole

/-- **What is reported of a file is what was saved, if and only if every
rule saves all of its passes or none.** -/
theorem corrections_eq_saved_iff (ws : List Rewriter) (file : SourceFile)
    (disk : Disk) :
    (Linter.correctWith (ws.map rule) file disk).corrections
        = Pass.saved (groups ws file disk).flatten
      ↔ ∀ group ∈ groups ws file disk, Pass.Whole group := by
  induction ws generalizing file disk with
  | nil => simp [groups, Linter.correctWith, Pass.saved]
  | cons w ws ih =>
    have hcorrect : w.rule.correct? = some w.correct := w.correct?_eq
    rw [List.map_cons, Linter.correctWith, hcorrect, groups]
    dsimp only
    rcases h : w.correct file disk with ⟨e | made, after, diskAfter⟩
    · -- the rule fails: nothing of it is reported
      have hfailed : ∃ p ∈ w.passes file disk, ¬ p.isSaved := by
        obtain ⟨before, -, hpasses⟩ := Substitution.passes_of_error h
        refine ⟨⟨e.result.corrections, false⟩, ?_, Bool.false_ne_true⟩
        rw [passes, hpasses]
        exact List.mem_append_right before List.mem_cons_self
      have hnot : ¬ ∀ p ∈ w.passes file disk, p.isSaved := by
        obtain ⟨p, hp, hunsaved⟩ := hfailed
        exact fun hall => hunsaved (hall p hp)
      dsimp only
      rw [List.flatten_singleton, List.forall_mem_singleton, Pass.Whole,
        or_iff_right hnot, eq_comm]
      exact Pass.saved_eq_nil_iff fun p hp =>
        Substitution.corrections_ne_nil hp
    · -- it does not fail, and all that it saved is reported
      obtain ⟨hall, hmade⟩ := Substitution.passes_of_ok h
      have hmade : Pass.saved (w.passes file disk) = made := hmade
      dsimp only
      rw [List.flatten_cons, Pass.saved_append, List.forall_mem_cons, hmade,
        List.append_cancel_left_eq, ih]
      exact (and_iff_right (Or.inl hall)).symm

end Rewriter

/-! ## The report of a run

What is proved of one file is carried into the run, where the file is read
from the disk that the files before it have left. -/

/-- **What one more file adds to the report is what was saved of it, if and
only if every rule saves all of its passes over the file or none**: that is
so wherever the file comes in a run, and it counts as corrected if something
is reported of it. -/
theorem reports_saved_iff (ws : List Rewriter) (l : Linter)
    (hl : l.rules = ws.map Rewriter.rule) (disk : Disk)
    (before after : List Path) (path : Path) (file : SourceFile)
    (hread : SourceFile.read (l.correctFiles disk before).disk path
      = .ok file) :
    let run := l.correctFiles disk before
    let share := Linter.reportOf path (l.correctInto file run.disk)
    let groups := Rewriter.groups ws file run.disk
    (∃ later : CorrectionReport,
      (l.correctFiles disk (before ++ path :: after)).report
        = (run.report.extend share).extend later) ∧
    (share.filesCorrected = 1 ↔ share.corrections ≠ []) ∧
    (share.corrections = Pass.saved groups.flatten
      ↔ ∀ group ∈ groups, Pass.Whole group) := by
  intro run share groups
  refine ⟨?_, ?_, ?_⟩
  · exact Linter.exists_report_extend after hread
  · unfold share Linter.reportOf
    cases (l.correctInto file run.disk).corrections <;> simp
  · rw [← Rewriter.corrections_eq_saved_iff ws file run.disk, ← hl]
    rfl

/-- A rule that fails at its only pass behind one that does not, on the first
of two files. -/
theorem reports_saved_iff_failing :
    let disk : Disk :=
      { tree := .directory
          [("a", .file (.text "\x7d\nelse :Array<Int>")),
           ("b", .file (.text "\x7d\nelse"))]
        current := []
        fault := fun n => if n = 1 then some ⟨.fill, .noSpace⟩ else none }
    let ws := [StatementPosition.rewriter, CollectionShorthand.rewriter]
    let l : Linter := ⟨⟨"/"⟩, ws.map Rewriter.rule, [], default⟩
    let file :=
      (SourceFile.ofContents "\x7d\nelse :Array<Int>").withPath ⟨"/a"⟩
    let share := Linter.reportOf ⟨"/a"⟩ (l.correctInto file disk)
    SourceFile.read disk ⟨"/a"⟩ = .ok file ∧
    (∃ later : CorrectionReport,
      (l.correctFiles disk [⟨"/a"⟩, ⟨"/b"⟩]).report
        = (CorrectionReport.extend {} share).extend later) ∧
    share.filesCorrected = 1 ∧
    share.corrections
      = Pass.saved (Rewriter.groups ws file disk).flatten := by
  intro disk ws l file share
  have hread : SourceFile.read disk ⟨"/a"⟩ = .ok file := rfl
  obtain ⟨hrun, hcorrected, hsaved⟩ :=
    reports_saved_iff ws l rfl disk [] [⟨"/b"⟩] ⟨"/a"⟩ file hread
  exact ⟨hread, hrun, hcorrected.2 (by decide +kernel),
    hsaved.2 (by decide +kernel)⟩

/-- **A change that no report mentions**: the array types are corrected and
saved, the dictionary types cannot be saved, and the report of the whole run
says that nothing was corrected. -/
theorem report_unreported :
    let disk : Disk :=
      { tree := .directory
          [("a.swift", .file (.text "a:Array<Int>,b:Dictionary<Int,Int>"))]
        current := []
        fault := fun n => if n = 1 then some ⟨.fill, .noSpace⟩ else none }
    let l : Linter :=
      ⟨⟨"/a.swift"⟩, [CollectionShorthand.rule], [], default⟩
    let file := (SourceFile.ofContents
      "a:Array<Int>,b:Dictionary<Int,Int>").withPath ⟨"/a.swift"⟩
    let passes :=
      (Rewriter.groups [CollectionShorthand.rewriter] file disk).flatten
    SourceFile.read disk ⟨"/a.swift"⟩ = .ok file ∧
    (∃ p ∈ passes, p.isSaved ∧ p.corrections.length = 1) ∧
    ∃ run, l.correct disk = .ok run ∧
      run.report.corrections = [] ∧ run.report.filesCorrected = 0 ∧
      (run.disk.read ⟨"/a.swift"⟩).toOption
        = some "a:[Int],b:Dictionary<Int,Int>" := by
  intro disk l file passes
  have hdiscover : l.discover disk = .ok [⟨"/a.swift"⟩] :=
    Linter.discover_of_file (by decide +kernel)
  refine ⟨rfl, by decide +kernel, l.correctFiles disk [⟨"/a.swift"⟩], ?_, ?_⟩
  · unfold Linter.correct
    rw [hdiscover]
    rfl
  · decide +kernel

end SwiftStyle
