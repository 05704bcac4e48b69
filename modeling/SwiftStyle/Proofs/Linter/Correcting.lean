import SwiftStyle.Proofs.Linter.Discovery
import SwiftStyle.Rules.BuiltIn

/-!
# What a linter corrects

A linter that corrects visits the files that it finds, one after the other.
A file that it can read is given to the rules in their order until one
fails, and the report is put together from what comes of each file.

Both loops are described without their accumulators. On one file, the rules
in front of the first that fails run through, and those behind it do not
run (`Linter.Correcting`); which of the two ways it ends in, and with what,
is decided by the file and the disk (`correcting_iff`). Over all files there
is one **visit** for each, whatever comes of the others, and each is made on
the disk that those before it left (`Linter.Visits`). The report is a sum
over the visits (`Visit.report`), to which one more file adds what comes of
its visit (`exists_visit`).

The accumulators are taken out in two ways. The loop over the rules of one
file becomes a relation that has one case for each thing that can come of a
rule, and the program is shown to be the one thing related to its arguments.
The loop over the files keeps a report and a list of warnings: that report is
extended by an operation with an empty report as its unit
(`CorrectionReport.extend_assoc`), so what a run has at any point is what it
started from and then the sum over the visits since (`exists_visits`). A
theorem about one file of a run can therefore be proved of that file alone,
and put between what the others report (`exists_report_extend`).
-/

namespace SwiftStyle

namespace Linter

variable {rules ran : List Rule} {rule : Rule}
  {file between : SourceFile} {disk diskBetween : Disk}
  {made corrections : List Correction} {c : FileCorrection}

/-! ## One file

Rules that cannot correct are passed over, and are part of what ran. -/

/-- **Rules that run through on a file**: each that can correct does so in
what the ones before it left, and none fails. -/
inductive RunThrough : List Rule → SourceFile → Disk → List Correction →
    SourceFile → Disk → Prop
  /-- There is no rule left. -/
  | nil (file : SourceFile) (disk : Disk) :
    RunThrough [] file disk [] file disk
  /-- A rule that cannot correct is passed over. -/
  | pass {rule : Rule} {rules : List Rule} {file after : SourceFile}
      {disk diskAfter : Disk} {later : List Correction}
      (hrule : rule.correct? = none)
      (h : RunThrough rules file disk later after diskAfter) :
    RunThrough (rule :: rules) file disk later after diskAfter
  /-- A rule corrects the file, and the others follow. -/
  | run {rule : Rule} {rules : List Rule} {file between after : SourceFile}
      {disk diskBetween diskAfter : Disk} {made later : List Correction}
      {correct : SourceFile → Disk → Attempt (List Correction)}
      (hrule : rule.correct? = some correct)
      (hmade : correct file disk = ⟨.ok made, between, diskBetween⟩)
      (h : RunThrough rules between diskBetween later after diskAfter) :
    RunThrough (rule :: rules) file disk (made ++ later) after diskAfter

/-- **What comes of rules on a file**: all run through, or those in front of
one that fails do. -/
inductive Correcting (rules : List Rule) (file : SourceFile) (disk : Disk) :
    FileCorrection → Prop
  /-- No rule fails. -/
  | done {corrections : List Correction} {after : SourceFile}
      {diskAfter : Disk}
      (h : RunThrough rules file disk corrections after diskAfter) :
    Correcting rules file disk ⟨corrections, none, after, diskAfter⟩
  /-- A rule fails, and what the rules in front of it made is left. -/
  | failed {ran unrun : List Rule} {rule : Rule}
      {corrections : List Correction} {between after : SourceFile}
      {diskBetween diskAfter : Disk}
      {correct : SourceFile → Disk → Attempt (List Correction)}
      {e : CorrectionError} (hrules : rules = ran ++ rule :: unrun)
      (h : RunThrough ran file disk corrections between diskBetween)
      (hrule : rule.correct? = some correct)
      (hfailed : correct between diskBetween = ⟨.error e, after, diskAfter⟩) :
    Correcting rules file disk ⟨corrections, some e, after, diskAfter⟩

/-- Rules run as the ones in front of them do, and then as the rest. -/
theorem RunThrough.correctWith_append
    (h : RunThrough ran file disk corrections between diskBetween)
    (rest : List Rule) :
    correctWith (ran ++ rest) file disk
      = { correctWith rest between diskBetween with
          corrections := corrections ++
            (correctWith rest between diskBetween).corrections } := by
  induction h with
  | nil => rfl
  | pass hrule _ ih =>
    rw [List.cons_append, correctWith, hrule]
    exact ih
  | run hrule hmade _ ih =>
    rw [List.cons_append, correctWith, hrule]
    dsimp only
    rw [hmade]
    dsimp only
    rw [ih, List.append_assoc]

/-- A rule that is passed over changes nothing. -/
theorem Correcting.pass (hrule : rule.correct? = none)
    (h : Correcting rules file disk c) :
    Correcting (rule :: rules) file disk c := by
  cases h with
  | done h => exact .done (.pass hrule h)
  | failed hrules h hfails hfailed =>
    exact .failed (congrArg (rule :: ·) hrules) (.pass hrule h) hfails hfailed

/-- A rule that does not fail adds its corrections in front. -/
theorem Correcting.run
    {correct : SourceFile → Disk → Attempt (List Correction)}
    (hrule : rule.correct? = some correct)
    (hmade : correct file disk = ⟨.ok made, between, diskBetween⟩)
    (h : Correcting rules between diskBetween c) :
    Correcting (rule :: rules) file disk
      { c with corrections := made ++ c.corrections } := by
  cases h with
  | done h => exact .done (.run hrule hmade h)
  | failed hrules h hfails hfailed =>
    exact .failed (congrArg (rule :: ·) hrules) (.run hrule hmade h) hfails
      hfailed

/-- Something comes of rules on a file. -/
theorem correcting_correctWith (rules : List Rule) (file : SourceFile)
    (disk : Disk) :
    Correcting rules file disk (correctWith rules file disk) := by
  induction rules generalizing file disk with
  | nil => exact .done (.nil file disk)
  | cons rule rules ih =>
    rw [correctWith]
    cases hrule : rule.correct? with
    | none => exact (ih file disk).pass hrule
    | some correct =>
      dsimp only
      rcases hmade : correct file disk with ⟨e | made, between, diskBetween⟩
      · exact .failed rfl (.nil file disk) hrule hmade
      · exact (ih between diskBetween).run hrule hmade

/-- **What comes of rules on a file is one thing**: what the program finds. -/
theorem correcting_iff :
    Correcting rules file disk c ↔ correctWith rules file disk = c := by
  constructor
  · intro h
    cases h with
    | done h => simpa [correctWith] using h.correctWith_append []
    | failed hrules h hrule hfailed =>
      rw [hrules, h.correctWith_append, correctWith, hrule]
      dsimp only
      rw [hfailed]
      simp only [List.append_nil]
  · rintro rfl
    exact correcting_correctWith rules file disk

end Linter

/-! ## All files

A visit holds all that one file adds to the run; the report, the warnings and
the disk afterwards are read off the visits. -/

namespace CorrectionReport

@[simp] theorem extend_empty (r : CorrectionReport) : r.extend {} = r := by
  unfold extend
  simp only [List.append_nil, Nat.add_zero]

theorem extend_assoc (r s t : CorrectionReport) :
    (r.extend s).extend t = r.extend (s.extend t) := by
  unfold extend
  simp only [List.append_assoc, Nat.add_assoc]

end CorrectionReport

/-- **A visit to a file**: its path, and why it could not be read or what
came of the rules on it. -/
structure Visit where
  /-- The path. -/
  path : Path
  /-- What came of it. -/
  outcome : Except SourceError FileCorrection

namespace Visit

/-- Whether the file could be read. -/
def isReadable (v : Visit) : Bool :=
  v.outcome.isOk

/-- The corrections of the rules that ran through. -/
def corrections (v : Visit) : List Correction :=
  match v.outcome with
  | .ok c => c.corrections
  | .error _ => []

/-- The failure to report, if a rule failed. -/
def failure? (v : Visit) : Option PersistFailure :=
  match v.outcome with
  | .ok c => c.failure.map fun e => ⟨v.path, e.message⟩
  | .error _ => none

/-- The warning, if the file could not be read or a rule failed. -/
def warning? (v : Visit) : Option Warning :=
  match v.outcome with
  | .ok c => c.failure.map .unsaved
  | .error cause => some (.unreadable cause)

/-- **The report of visits.** -/
def report (visits : List Visit) : CorrectionReport where
  corrections := visits.flatMap corrections
  filesCorrected := visits.countP fun v => !v.corrections.isEmpty
  filesChecked := visits.countP isReadable
  failures := visits.filterMap failure?

theorem report_append (visits later : List Visit) :
    report (visits ++ later) = (report visits).extend (report later) := by
  unfold report CorrectionReport.extend
  simp only [List.flatMap_append, List.countP_append, List.filterMap_append]

theorem report_unreadable (path : Path) (cause : SourceError) :
    report [⟨path, .error cause⟩] = {} :=
  rfl

theorem report_readable (path : Path) (c : FileCorrection) :
    report [⟨path, .ok c⟩] = Linter.reportOf path c := by
  obtain ⟨corrections, failure, file, disk⟩ := c
  cases corrections <;> cases failure <;> simp [report, Linter.reportOf,
    Visit.corrections, failure?, isReadable, Except.isOk, Except.toBool]

end Visit

namespace Linter

variable {l : Linter}

/-- **Visits to files**, one after the other: each file is read from the
disk that the visits before it left, and the rules run on it if that is
possible. -/
inductive Visits (l : Linter) : Disk → List Visit → Disk → Prop
  /-- There is no file left. -/
  | nil (disk : Disk) : Visits l disk [] disk
  /-- A file cannot be read. -/
  | unreadable {path : Path} {disk diskAfter : Disk} {cause : SourceError}
      {later : List Visit}
      (hread : SourceFile.read disk path = .error cause)
      (h : Visits l disk later diskAfter) :
    Visits l disk (⟨path, .error cause⟩ :: later) diskAfter
  /-- A file is read, and the rules run on it. -/
  | readable {path : Path} {disk diskAfter : Disk} {file : SourceFile}
      {c : FileCorrection} {later : List Visit}
      (hread : SourceFile.read disk path = .ok file)
      (hrules : Correcting l.rules file disk c)
      (h : Visits l c.disk later diskAfter) :
    Visits l disk (⟨path, .ok c⟩ :: later) diskAfter

theorem Visits.append {disk diskBetween diskAfter : Disk}
    {visits later : List Visit} (h : l.Visits disk visits diskBetween)
    (hlater : l.Visits diskBetween later diskAfter) :
    l.Visits disk (visits ++ later) diskAfter := by
  induction h with
  | nil => exact hlater
  | unreadable hread _ ih => exact .unreadable hread (ih hlater)
  | readable hread hrules _ ih => exact .readable hread hrules (ih hlater)

/-- **One more file of a run is one more visit**, and adds to the report and
to the warnings what comes of it. -/
theorem exists_visit (l : Linter) (run : CorrectionRun) (path : Path) :
    ∃ v diskAfter, l.Visits run.disk [v] diskAfter ∧ v.path = path ∧
      l.correctNext run path
        = ⟨run.report.extend (Visit.report [v]),
           run.warnings ++ [v].filterMap Visit.warning?, diskAfter⟩ := by
  unfold correctNext
  cases hread : SourceFile.read run.disk path with
  | error cause =>
    refine ⟨⟨path, .error cause⟩, run.disk, .unreadable hread (.nil _),
      rfl, ?_⟩
    rw [Visit.report_unreadable, CorrectionReport.extend_empty]
    rfl
  | ok file =>
    have hrules := correcting_correctWith l.rules file run.disk
    refine ⟨⟨path, .ok (l.correctInto file run.disk)⟩, _,
      .readable hread hrules (.nil _), rfl, ?_⟩
    rw [Visit.report_readable]
    unfold correctInto
    cases hfailure : (correctWith l.rules file run.disk).failure <;>
      simp [Visit.warning?, hfailure]

/-- **A run goes on with one visit for each file.** -/
theorem exists_visits (l : Linter) (run : CorrectionRun)
    (paths : List Path) :
    ∃ visits diskAfter, l.Visits run.disk visits diskAfter ∧
      visits.map Visit.path = paths ∧
      paths.foldl l.correctNext run
        = ⟨run.report.extend (Visit.report visits),
           run.warnings ++ visits.filterMap Visit.warning?, diskAfter⟩ := by
  induction paths generalizing run with
  | nil =>
    exact ⟨[], run.disk, .nil run.disk, rfl, by
      simp [Visit.report, CorrectionReport.extend]⟩
  | cons path paths ih =>
    obtain ⟨v, diskBetween, hvisit, rfl, hnext⟩ := l.exists_visit run path
    rw [List.foldl_cons, hnext]
    obtain ⟨later, diskAfter, hlater, rfl, hrun⟩ := ih ⟨_, _, diskBetween⟩
    refine ⟨v :: later, diskAfter, hvisit.append hlater, rfl, ?_⟩
    rw [hrun]
    dsimp only
    rw [CorrectionReport.extend_assoc, ← Visit.report_append,
      List.append_assoc, ← List.filterMap_append]
    rfl

/-- **What a run reports of a file** stands behind what it reports of the
files before, wherever the file comes in the run. -/
theorem exists_report_extend {disk : Disk} {before : List Path} {path : Path}
    {file : SourceFile} (after : List Path)
    (hread : SourceFile.read (l.correctFiles disk before).disk path
      = .ok file) :
    ∃ later : CorrectionReport,
      (l.correctFiles disk (before ++ path :: after)).report
        = ((l.correctFiles disk before).report.extend
            (reportOf path (l.correctInto file
              (l.correctFiles disk before).disk))).extend later := by
  obtain ⟨visits, diskAfter, -, -, hrun⟩ :=
    l.exists_visits (l.correctNext (l.correctFiles disk before) path) after
  have hnext : (l.correctNext (l.correctFiles disk before) path).report
      = (l.correctFiles disk before).report.extend
          (reportOf path (l.correctInto file
            (l.correctFiles disk before).disk)) := by
    unfold correctNext
    rw [hread]
  refine ⟨Visit.report visits, ?_⟩
  rw [← hnext]
  unfold correctFiles at hrun ⊢
  rw [List.foldl_append, List.foldl_cons]
  exact congrArg CorrectionRun.report hrun

end Linter

/-- **To correct is to visit every file that is found**, in ascending order
of the paths and on the disk that the visits before left, and to report what
comes of the visits. -/
theorem correct_visits (l : Linter) (disk : Disk) :
    (∀ paths, ∃ visits diskAfter, l.Visits disk visits diskAfter ∧
      visits.map Visit.path = paths ∧
      l.correctFiles disk paths
        = ⟨Visit.report visits, visits.filterMap Visit.warning?,
           diskAfter⟩) ∧
    ∀ paths, l.discover disk = .ok paths →
      Linter.Ascending paths ∧
      l.correct disk = .ok (l.correctFiles disk paths) := by
  constructor
  · intro paths
    obtain ⟨visits, diskAfter, hvisits, hpaths, hrun⟩ :=
      l.exists_visits ⟨{}, [], disk⟩ paths
    refine ⟨visits, diskAfter, hvisits, hpaths, hrun.trans ?_⟩
    simp [CorrectionReport.extend]
  · intro paths h
    refine ⟨Linter.ascending_discover h, ?_⟩
    unfold Linter.correct
    rw [h]
    rfl

/-- Five files: one that cannot be read, one with nothing to correct, one
that is corrected, one that the first rule cannot save, and one that the
second rule cannot save. -/
theorem correct_visits_faults :
    let disk : Disk :=
      { tree := .directory [("p", .directory
          [("a.swift", .file (.binary [255])),
           ("b.swift", .file (.text "\x7d else")),
           ("c.swift", .file (.text "\x7d\nelse")),
           ("d.swift", .file (.text "\x7d\nelse")),
           ("e.swift", .file (.text "\x7d\nelse :Array<Int>"))])]
        current := []
        fault := fun n =>
          if n = 1 ∨ n = 3 then some ⟨.rename, .busy⟩ else none }
    let l : Linter :=
      ⟨⟨"/p"⟩, [StatementPosition.rule, EmptyCount.rule,
        CollectionShorthand.rule], [], default⟩
    let paths : List Path :=
      [⟨"/p/a.swift"⟩, ⟨"/p/b.swift"⟩, ⟨"/p/c.swift"⟩, ⟨"/p/d.swift"⟩,
       ⟨"/p/e.swift"⟩]
    l.discover disk = .ok paths ∧
    ∃ visits diskAfter, l.Visits disk visits diskAfter ∧
      visits.map Visit.path = paths ∧
      l.correct disk
        = .ok ⟨Visit.report visits, visits.filterMap Visit.warning?,
           diskAfter⟩ ∧
      (Visit.report visits).corrections.map (·.location.file)
        = [some ⟨"/p/c.swift"⟩, some ⟨"/p/e.swift"⟩] ∧
      (Visit.report visits).failures.map (·.file)
        = [⟨"/p/d.swift"⟩, ⟨"/p/e.swift"⟩] ∧
      (Visit.report visits).filesChecked = 4 ∧
      (Visit.report visits).filesCorrected = 2 := by
  intro disk l paths
  have hdiscover : l.discover disk = .ok paths :=
    Linter.discover_of_walk (by decide +kernel) (by decide +kernel)
      (by decide +kernel) rfl
      ⟨by decide, by decide⟩ (by decide +kernel) (fun p _ => rfl)
      (by decide +kernel)
  obtain ⟨hvisit, hcorrect⟩ := correct_visits l disk
  obtain ⟨visits, diskAfter, hvisits, hpaths, hrun⟩ := hvisit paths
  have hreport : Visit.report visits = (l.correctFiles disk paths).report :=
    congrArg CorrectionRun.report hrun.symm
  refine ⟨hdiscover, visits, diskAfter, hvisits, hpaths,
    hrun ▸ (hcorrect paths hdiscover).2, ?_⟩
  rw [hreport]
  decide +kernel

end SwiftStyle
