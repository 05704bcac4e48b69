import SwiftStyle.Proofs.Disk.Saving
import SwiftStyle.Proofs.Source.Substitution

/-!
# What a correction leaves behind

A corrected text is there three times: in the result of the attempt, in the
file in memory and, if the file has a path, on the disk. An attempt that
changes something always has the first two agree, however the save goes. Only
the third depends on it: the disk has the new text if the attempt says so,
and is what it was if it does not (`Attempt.Ends`).

An attempt that changes nothing leaves all three alone, and tries no save
(`Substitution.apply_ends`).

A save can be struck at any of its steps, and it may go to another spelling of
the path than the one that the file was read with. So what is said of the disk
is said of the place that the path leads to (`Disk.Replaces`): the text stands
there, what stands elsewhere is what it was, and to read the path gives the
text back.
-/

namespace SwiftStyle

/-- **How the save of a result may end**: with an outcome, and a disk after
it. -/
inductive SaveEnds (file : SourceFile) (disk : Disk)
    (result : CorrectionResult) :
    Except CorrectionError CorrectionResult → Disk → Prop
  /-- A file in memory is not saved. -/
  | inMemory (h : file.path = none) :
      SaveEnds file disk result (.ok result) disk
  /-- A file with a path is replaced on the disk. -/
  | saved {p : Path} {after : Disk} (h : file.path = some p)
      (hsaved : disk.Replaces p result.contents after) :
      SaveEnds file disk result (.ok result) after
  /-- Or it could not be replaced: then the disk is what it was, but for one
  more save that was tried. -/
  | failed {p : Path} {cause : IoError} (h : file.path = some p) :
      SaveEnds file disk result (.error (.persist (.write p cause) result))
        { disk with saves := disk.saves + 1 }

/-- **How an attempt that changes a file ends.** The file in memory has the
contents of the result, with the tokens and the line starts that belong to
them, whether or not it could be saved. -/
structure Attempt.Ends (file : SourceFile) (disk : Disk)
    (result : CorrectionResult) (a : Attempt CorrectionResult) : Prop where
  /-- The contents are those of the result. -/
  contents : a.file.contents = result.contents
  /-- The tokens are those of the contents. -/
  tokens : a.file.tokens = file.tokenizer.tokenize result.contents
  /-- The line starts are those of the contents. -/
  starts : a.file.starts = lineStarts result.contents.toList
  /-- The path has not changed. -/
  path : a.file.path = file.path
  /-- The outcome and the disk are those of the save. -/
  save : SaveEnds file disk result a.outcome a.disk

theorem Attempt.Ends.result {file : SourceFile} {disk : Disk}
    {result : CorrectionResult} {a : Attempt CorrectionResult}
    (h : Attempt.Ends file disk result a) : a.result = result := by
  obtain ⟨outcome, changed, after⟩ := a
  cases h.save <;> rfl

namespace Substitution

variable {file : SourceFile} {edits : List Edit}

/-- **Edits that are made end in a save of their result.** -/
theorem perform_ends (rule : RuleDescription) (disk : Disk)
    (h : edits ≠ []) :
    Attempt.Ends file disk (resultOf rule file edits)
      (perform rule file disk edits) := by
  unfold perform
  rw [if_neg (by simpa using h)]
  dsimp only
  generalize resultOf rule file edits = result
  unfold SourceFile.write
  cases hpath : file.path with
  | none => exact ⟨rfl, rfl, rfl, rfl, .inMemory hpath⟩
  | some p =>
    obtain ⟨after, hsave, hreplaces⟩ | ⟨cause, hsave⟩ :=
      disk.save_cases p result.contents
    · dsimp only
      rw [hsave]
      exact ⟨rfl, rfl, rfl, rfl, .saved hpath hreplaces⟩
    · dsimp only
      rw [hsave]
      exact ⟨rfl, rfl, rfl, rfl, .failed hpath⟩

/-- **A substitution that replaces nothing leaves everything as it was, and
one that replaces something ends in a save.** What it computes does not
depend on the disk, and a failure carries all of it. -/
theorem apply_ends (s : Substitution) (rule : RuleDescription)
    (file : SourceFile) :
    let found := s.pattern.occurrences file.text
    ((∀ o ∈ found, ¬ s.replaces file o) → ∀ disk,
      s.apply rule file disk = ⟨.ok ⟨file.contents, []⟩, file, disk⟩) ∧
    ((∃ o ∈ found, s.replaces file o) → ∃ result,
      s.Rewrites rule file found result ∧ result.corrections ≠ [] ∧
        ∀ disk, Attempt.Ends file disk result (s.apply rule file disk)) := by
  intro found
  have hedits : s.edits file
      = (found.filter (s.replaces file)).map fun o =>
          ⟨o.span, s.template.expand o⟩ := editsOf_eq s file found
  constructor
  · intro hnone disk
    have hnil : s.edits file = [] := by
      rw [hedits, List.filter_eq_nil_iff.2 hnone, List.map_nil]
    rw [apply, hnil]
    rfl
  · rintro ⟨o, ho, hreplaced⟩
    have hne : s.edits file ≠ [] := by
      rw [hedits]
      exact List.ne_nil_of_mem
        (List.mem_map_of_mem (List.mem_filter.2 ⟨ho, hreplaced⟩))
    exact ⟨resultOf rule file (s.edits file),
      rewrites_resultOf rule (s.pattern.separate_occurrences file.text),
      by simpa [resultOf] using hne, fun disk => perform_ends rule disk hne⟩

/-- A file with nothing to replace, and one that the disk has under another
spelling of its path: the save of it is struck while the temporary file is
filled, and the next one is not. -/
theorem apply_ends_struck :
    let s : Substitution := ⟨.char 'a', ⟨[.char 'é']⟩, fun _ => true⟩
    let clean : SourceFile := (SourceFile.ofContents "b").withPath ⟨"f"⟩
    let file : SourceFile := (SourceFile.ofContents "ab").withPath ⟨"p/f"⟩
    let disk : Disk :=
      { tree := .directory [("p", .directory [("f", .file (.text "ab"))])]
        current := []
        fault := fun n => if n = 0 then some ⟨.fill, .noSpace⟩ else none }
    let struck := s.apply default file disk
    let after := (s.apply default file struck.disk).disk
    s.apply default clean disk = ⟨.ok ⟨"b", []⟩, clean, disk⟩ ∧
    ∃ result : CorrectionResult, s.Rewrites default file
        (s.pattern.occurrences file.text) result ∧
      Attempt.Ends file disk result struck ∧
      result.contents = "éb" ∧
      struck.outcome
        = .error (.persist (.write ⟨"p/f"⟩ .noSpace) result) ∧
      struck.disk.read ⟨"p/f"⟩ = .ok "ab" ∧
      after.read ⟨"p/f"⟩ = .ok "éb" := by
  intro s clean file disk struck after
  obtain ⟨hclean, -⟩ := apply_ends s default clean
  obtain ⟨-, hfile⟩ := apply_ends s default file
  obtain ⟨result, hrewrites, hsome, hends⟩ := hfile (by decide)
  obtain rfl : struck.result = result := (hends disk).result
  refine ⟨hclean (by decide) disk, struck.result, hrewrites, hends disk, ?_⟩
  decide +kernel

end Substitution
end SwiftStyle
