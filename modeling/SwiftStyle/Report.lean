import SwiftStyle.Finding

/-!
# Reports

What a run over many files amounts to: the violations found
(`LintResult`), or the corrections made and the files that could not be
saved (`CorrectionReport`).

Both are sums: to run over more files is to extend what there is
(`CorrectionReport.extend`), and the counts that are printed are those of the
lists, but for the numbers of files.
-/

namespace SwiftStyle

/-- **The result of linting.** -/
structure LintResult where
  /-- All violations. -/
  violations : List Violation := []
  /-- The number of files looked at. -/
  filesChecked : Nat := 0
deriving DecidableEq, Repr, Inhabited

namespace LintResult

/-- Whether a violation is at least as serious as a severity. -/
def hasViolationsAt (r : LintResult) (severity : Severity) : Bool :=
  r.violations.any fun v => decide (severity ≤ v.severity)

/-- Whether a violation is an error. -/
def hasErrors (r : LintResult) : Bool :=
  r.hasViolationsAt .error

/-- The violations of a severity. -/
def bySeverity (r : LintResult) (severity : Severity) : List Violation :=
  r.violations.filter fun v => v.severity == severity

/-- The number of violations of a severity. -/
def count (r : LintResult) (severity : Severity) : Nat :=
  (r.bySeverity severity).length

/-- One line about the result. -/
def summary (r : LintResult) : String :=
  "Found " ++ toString (r.count .error) ++ " error(s), " ++
    toString (r.count .warning) ++ " warning(s), " ++
    toString (r.count .info) ++ " info(s) in " ++
    toString r.filesChecked ++ " file(s)"

/-- Two results as one. -/
def extend (r s : LintResult) : LintResult :=
  ⟨r.violations ++ s.violations, r.filesChecked + s.filesChecked⟩

end LintResult

/-- **A file that was corrected but could not be saved.** -/
structure PersistFailure where
  /-- The file. -/
  file : Path
  /-- What went wrong. -/
  message : String
deriving DecidableEq, Repr, Inhabited

/-- **The result of correcting.** -/
structure CorrectionReport where
  /-- The corrections, file by file. -/
  corrections : List Correction := []
  /-- The number of files with a correction. -/
  filesCorrected : Nat := 0
  /-- The number of files looked at. -/
  filesChecked : Nat := 0
  /-- The files that could not be saved. -/
  failures : List PersistFailure := []
deriving DecidableEq, Repr, Inhabited

namespace CorrectionReport

/-- Two reports as one. -/
def extend (r s : CorrectionReport) : CorrectionReport :=
  ⟨r.corrections ++ s.corrections, r.filesCorrected + s.filesCorrected,
   r.filesChecked + s.filesChecked, r.failures ++ s.failures⟩

/-- Whether every corrected file was saved. -/
def isPersisted (r : CorrectionReport) : Bool :=
  r.failures.isEmpty

/-- One line about the report. -/
def summary (r : CorrectionReport) : String :=
  "Done correcting " ++ toString r.filesChecked ++
    " file(s)! Applied " ++ toString r.corrections.length ++
    " correction(s) to " ++ toString r.filesCorrected ++ " file(s)"

end CorrectionReport
end SwiftStyle
