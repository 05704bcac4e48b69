import SwiftStyle.Glob.Walk
import SwiftStyle.Registry
import SwiftStyle.Report

/-!
# The linter

A linter runs a list of rules over the source files below a root, or over
a root that is a file. It finds the files by their extensions, passes
over those that a pattern excludes, and takes them in the order of their
paths. To **lint** is to gather the violations in all files; to
**correct** is to run every rule that can over every file, each in the
text that the rules before it left.

A file that cannot be read is passed over with a warning. A file that
cannot be saved ends the work on that file, not that on the others, and
is part of the report.

Paths are found pattern by pattern, one pattern for each extension, and then
sorted; a path that several patterns find is kept once. A root that is a file
is linted whatever its name is, and no pattern is asked about it.

What one file adds to a report does not depend on the files after it, and on
the ones before only by the disk: the loops over files and over rules
(`correctFiles`, `correctWith`) take one item at a time and hand on the disk
that it left.
-/

namespace SwiftStyle

/-- **A linter.** -/
structure Linter where
  /-- The directory or file to lint. -/
  root : Path
  /-- The rules, in the order in which they run. -/
  rules : List Rule
  /-- Patterns of the paths to pass over. -/
  exclude : List String
  /-- The configuration. -/
  config : Config

/-- **Why a run failed.** -/
inductive LinterError where
  /-- The root and an extension make no pattern. -/
  | invalidPattern
deriving DecidableEq, Repr

/-- **What came of the rules on one file.** -/
structure FileCorrection where
  /-- The corrections of the rules that did not fail. -/
  corrections : List Correction
  /-- What ended the work, if something did. -/
  failure : Option CorrectionError
  /-- The file afterwards. -/
  file : SourceFile
  /-- The disk afterwards. -/
  disk : Disk

/-- **A run in progress**: the report, the warnings and the disk so
far. -/
structure CorrectionRun where
  /-- The report. -/
  report : CorrectionReport
  /-- The warnings. -/
  warnings : List Warning
  /-- The disk. -/
  disk : Disk

namespace Linter

/-- **The linter of rules and a configuration.** The root, unless it is
given, is that of the configuration, and is found from the current
directory; patterns that are given join those of the configuration. -/
def build (currentDirectory : Path) (rules : List Rule) (config : Config)
    (exclude : List String) (root : Option Path) : Linter where
  root := currentDirectory.join (root.getD config.scope.root).text
  rules
  exclude := exclude ++ config.scope.exclude
  config

/-! ## Finding files -/

/-- Whether a path is passed over. -/
def isExcluded (l : Linter) (path : Path) : Bool :=
  l.exclude.any fun pattern => Glob.excludes pattern path

/-- The pattern of the files with an extension. -/
def patternOf (l : Linter) (extension : String) : String :=
  l.root.text ++ "/**/*." ++ extension

/-- Paths in ascending order, each once. -/
def sortPaths (paths : List Path) : List Path :=
  let sorted := paths.mergeSort Path.le
  sorted.foldr
    (fun p kept =>
      match kept with
      | [] => [p]
      | q :: rest => if p.same q then p :: rest else p :: q :: rest)
    []

/-- The files that are not passed over with one of the extensions. -/
def filesWith (l : Linter) (disk : Disk) (extension : String) :
    Except LinterError (List Path) :=
  match Glob.paths? disk (l.patternOf extension) with
  | some paths => .ok (paths.filter fun p => !l.isExcluded p)
  | none => .error .invalidPattern

/-- **The files to lint**, in the order of their paths. -/
def discover (l : Linter) (disk : Disk) :
    Except LinterError (List Path) :=
  if disk.hasFile l.root then .ok [l.root]
  else do
    let found ← l.config.scope.extensions.mapM (l.filesWith disk)
    return sortPaths found.flatten

/-! ## Linting -/

/-- A violation with the severity that the configuration gives to its
rule, if it does. -/
def overrideSeverity (l : Linter) (identifier : String)
    (v : Violation) : Violation :=
  match l.config.severityOf? identifier with
  | some severity => v.withSeverity severity
  | none => v

/-- **The violations in a file**, rule by rule. -/
def lintFile (l : Linter) (file : SourceFile) : List Violation :=
  l.rules.flatMap fun rule =>
    (rule.validate file).map (l.overrideSeverity rule.identifier)

/-- The order of optional paths: none comes first. -/
def compareFiles : Option Path → Option Path → Ordering
  | none, none => .eq
  | none, some _ => .lt
  | some _, none => .gt
  | some p, some q => p.compare q

/-- Whether a violation comes before another, or neither comes first:
that is decided by the file and then by the offset. -/
def inOrder (v w : Violation) : Bool :=
  ((compareFiles v.location.file w.location.file).then
    (compare v.location.offset w.location.offset)).isLE

/-- The files that can be read, and a warning for each of the others. -/
def readAll (disk : Disk) (paths : List Path) :
    List SourceFile × List Warning :=
  let read := paths.map (SourceFile.read disk)
  (read.filterMap Except.toOption,
   read.filterMap fun
     | .ok _ => none
     | .error cause => some (.unreadable cause))

/-- The result of linting files. -/
def lintFiles (l : Linter) (files : List SourceFile) : LintResult where
  violations := (files.flatMap l.lintFile).mergeSort inOrder
  filesChecked := files.length

/-- **Lint all files.** -/
def lint (l : Linter) (disk : Disk) :
    Except LinterError (LintResult × List Warning) := do
  let (files, warnings) := readAll disk (← l.discover disk)
  return (l.lintFiles files, warnings)

/-- Whether a result makes a run fail. -/
def fails (l : Linter) (result : LintResult) : Bool :=
  result.hasViolationsAt l.config.failingSeverity

/-! ## Correcting -/

/-- Run rules over a file until one fails; rules that cannot correct are
passed over. -/
def correctWith : List Rule → SourceFile → Disk → FileCorrection
  | [], file, disk => ⟨[], none, file, disk⟩
  | rule :: rest, file, disk =>
    match rule.correct? with
    | none => correctWith rest file disk
    | some correct =>
      match correct file disk with
      | ⟨.error e, file, disk⟩ => ⟨[], some e, file, disk⟩
      | ⟨.ok corrections, file, disk⟩ =>
        let later := correctWith rest file disk
        { later with corrections := corrections ++ later.corrections }

/-- Run the rules over a file until one fails. -/
def correctInto (l : Linter) (file : SourceFile) (disk : Disk) :
    FileCorrection :=
  correctWith l.rules file disk

/-- **Correct a file**: all corrections, or the first failure. -/
def correctFile (l : Linter) (file : SourceFile) (disk : Disk) :
    Attempt (List Correction) :=
  let c := l.correctInto file disk
  match c.failure with
  | some e => ⟨.error e, c.file, c.disk⟩
  | none => ⟨.ok c.corrections, c.file, c.disk⟩

/-- What a corrected file adds to a report. -/
def reportOf (path : Path) (c : FileCorrection) : CorrectionReport where
  corrections := c.corrections
  filesCorrected := if c.corrections.isEmpty then 0 else 1
  filesChecked := 1
  failures := c.failure.toList.map fun e => ⟨path, e.message⟩

/-- One more file of a run. -/
def correctNext (l : Linter) (run : CorrectionRun) (path : Path) :
    CorrectionRun :=
  match SourceFile.read run.disk path with
  | .error cause =>
    { run with warnings := run.warnings ++ [.unreadable cause] }
  | .ok file =>
    let c := l.correctInto file run.disk
    { report := run.report.extend (reportOf path c)
      warnings := run.warnings ++ c.failure.toList.map .unsaved
      disk := c.disk }

/-- Correct files, one after the other. -/
def correctFiles (l : Linter) (disk : Disk) (paths : List Path) :
    CorrectionRun :=
  paths.foldl l.correctNext ⟨{}, [], disk⟩

/-- **Correct all files.** -/
def correct (l : Linter) (disk : Disk) :
    Except LinterError CorrectionRun := do
  return l.correctFiles disk (← l.discover disk)

end Linter
end SwiftStyle
