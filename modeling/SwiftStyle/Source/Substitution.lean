import SwiftStyle.Finding
import SwiftStyle.Pattern.Template
import SwiftStyle.Source.Match

/-!
# Substitutions in a source file

A substitution replaces occurrences of a pattern in a source file by what
a template stands for there. All occurrences are found in the text as it
is; the edits they ask for are then made from the last to the first, so
that the place of an edit is never moved by one made before it.

An occurrence asks for an edit if the substitution keeps it – it looks at
the tokens that the occurrence touches – and if its expansion is not the
text that stands there already. Without edits the file is left alone;
with edits it is changed in memory and saved, and every edit is a
correction, located in the text that the substitution started from.
-/

namespace SwiftStyle

/-- **A replacement of a stretch of text.** -/
structure Edit where
  /-- The stretch. -/
  span : Span
  /-- What takes its place. -/
  replacement : List Char
deriving DecidableEq, Repr

/-- The text with a stretch replaced. -/
def Edit.apply (e : Edit) (text : List Char) : List Char :=
  Text.takeBytes e.span.start text ++
    (e.replacement ++ Text.dropBytes e.span.stop text)

/-- The text with all edits made, the last one first. -/
def Edit.applyAll (edits : List Edit) (text : List Char) : List Char :=
  edits.foldr Edit.apply text

/-- **What to replace, by what, and where.** -/
structure Substitution where
  /-- What is replaced. -/
  pattern : Pattern
  /-- What it is replaced by. -/
  template : Template
  /-- Which matches are replaced. -/
  keep : SourceMatch → Bool

/-- **The outcome of a substitution.** -/
structure CorrectionResult where
  /-- The text after it. -/
  contents : String
  /-- The corrections, in the order of their places. -/
  corrections : List Correction
deriving DecidableEq, Repr

/-- **Why a correction failed.** -/
inductive CorrectionError where
  /-- The corrected text could not be saved; it is part of the error. -/
  | persist (cause : SourceError) (result : CorrectionResult)
deriving DecidableEq, Repr

/-- The wording. -/
def CorrectionError.message : CorrectionError → String
  | persist cause _ => "Failed to persist corrections: " ++ cause.message

/-- What was computed before the failure. -/
def CorrectionError.result : CorrectionError → CorrectionResult
  | persist _ result => result

/-- **An attempt at a correction**: how it went, and the file and the
disk after it. -/
structure Attempt (α : Type) where
  /-- What came of it. -/
  outcome : Except CorrectionError α
  /-- The file after it. -/
  file : SourceFile
  /-- The disk after it. -/
  disk : Disk

/-- The attempt with its outcome changed. -/
def Attempt.map {α β : Type} (f : α → β) (a : Attempt α) : Attempt β :=
  ⟨a.outcome.map f, a.file, a.disk⟩

namespace Substitution

/-- The edit that an occurrence asks for, if any. -/
def editOf? (s : Substitution) (file : SourceFile) (o : Occurrence) :
    Option Edit :=
  if s.keep (file.matchAt o.span) then
    let replacement := s.template.expand o
    if replacement = o.text then none else some ⟨o.span, replacement⟩
  else none

/-- The edits that the occurrences in a file ask for. -/
def editsOf (s : Substitution) (file : SourceFile)
    (occurrences : List Occurrence) : List Edit :=
  occurrences.filterMap (s.editOf? file)

/-- The edits of a file. -/
def edits (s : Substitution) (file : SourceFile) : List Edit :=
  s.editsOf file (s.pattern.occurrences file.text)

/-- The correction that an edit stands for. -/
def correctionOf (rule : RuleDescription) (file : SourceFile)
    (e : Edit) : Correction :=
  ⟨rule, file.locate e.span.start⟩

/-- The result of making edits in a file. -/
def resultOf (rule : RuleDescription) (file : SourceFile)
    (edits : List Edit) : CorrectionResult :=
  ⟨String.ofList (Edit.applyAll edits file.text),
   edits.map (correctionOf rule file)⟩

/-- Make edits in a file and save it. -/
def perform (rule : RuleDescription) (file : SourceFile) (disk : Disk)
    (edits : List Edit) : Attempt CorrectionResult :=
  if edits.isEmpty then ⟨.ok ⟨file.contents, []⟩, file, disk⟩
  else
    let result := resultOf rule file edits
    match file.write disk result.contents with
    | (changed, .ok (), disk) => ⟨.ok result, changed, disk⟩
    | (changed, .error cause, disk) =>
      ⟨.error (.persist cause result), changed, disk⟩

/-- **Make a substitution in a file** on behalf of a rule. -/
def apply (s : Substitution) (rule : RuleDescription) (file : SourceFile)
    (disk : Disk) : Attempt CorrectionResult :=
  perform rule file disk (s.edits file)

end Substitution

/-- The matches of a pattern in a file. -/
def SourceFile.matchesOf (file : SourceFile) (pattern : Pattern) :
    List SourceMatch :=
  (pattern.occurrences file.text).map fun o =>
    file.matchAt o.span

end SwiftStyle
