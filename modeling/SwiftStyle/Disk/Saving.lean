import SwiftStyle.Disk.Basic

/-!
# Saving

**Saving** a text replaces a file as a whole, so that nobody ever sees a part
of the text. It takes four steps: a temporary file is made beside the target,
the text is written to it, it takes over the permissions of the target, and
it is renamed over the target. Until the last step the temporary file is all
that is new in the tree, and the last step takes it away.

Each step may fail, by what the tree looks like or because the disk is made
to fail (`Disk.fault`). A temporary file that is there by then is removed
(`Saving.orDiscard`).
-/

namespace SwiftStyle

/-- **A save on its way**: a disk with a temporary file. -/
structure Saving where
  /-- The disk so far. -/
  disk : Disk
  /-- The place of the temporary file. -/
  temporary : Place

namespace Disk

/-- The name that stands for that of a fresh temporary file. -/
def temporaryName : String := ".tmp*"

/-- How many bytes the name of a temporary file really has. -/
def temporaryNameBytes : Nat := 10

/-- **A name that is none of given ones**, since it is longer than each of
them. It stands for one that is drawn at random until no file has it. -/
def freshName (taken : List String) : String :=
  temporaryName ++
    String.ofList
      (List.replicate (taken.map String.toList).flatten.length '*')

/-- The path that a save goes to: the absolute form of the path if
something is there already. -/
def target (d : Disk) (p : Path) : Path :=
  (d.canonical? p).getD p

/-- The directory in which the temporary file for a target is made. -/
def saveDirectory (target : Path) : Path :=
  match target.parent? with
  | some parent => if parent.text = "" then ⟨"."⟩ else parent
  | none => ⟨"."⟩

/-- The directory at a path, with its place, if a file with a name of some
bytes has room in it. -/
def roomIn (d : Disk) (directory : Path) (nameBytes : Nat) :
    Except IoError (Place × List (String × Node)) := do
  checkPath directory
  if maxPathBytes < (directory.join "").text.utf8ByteSize + nameBytes then
    throw .nameTooLong
  let place ← d.locate directory
  match d.tree.find? place with
  | some (.directory entries) => return (place, entries)
  | _ => throw .notDirectory

/-- The place of a fresh temporary file for a target, beside it and under a
name that the path of the target does not hold either. The error names the
path of the file. -/
def temporaryPlace (d : Disk) (target : Path) : Except IoError Place :=
  let directory := d.currentPath.join (saveDirectory target).text
  match d.roomIn directory temporaryNameBytes with
  | .ok (place, entries) =>
    let names := (Path.segments target.text.toList).map String.ofList
    .ok (place ++ [freshName (entries.map (·.1) ++ names)])
  | .error cause => .error (.located cause (directory.join temporaryName))

/-- Fail if the current save is to fail at a step. -/
def checkFault (d : Disk) (step : SaveStep) : Except IoError Unit :=
  match d.fault d.saves with
  | some fault =>
    if fault.step = step then .error fault.error else .ok ()
  | none => .ok ()

/-- The place that a file takes over when it is renamed to a path. A
path with the NUL character in it is refused as no path at all. -/
def renamePlace (d : Disk) (target : Path) : Except IoError Place :=
  match d.filePlace target with
  | .error .nulInName => .error .invalidArgument
  | outcome => outcome

end Disk

namespace Saving

/-! ## The steps -/

/-- **Make a temporary file** for a target; it is empty. -/
def create (d : Disk) (target : Path) : Except IoError Saving := do
  d.checkFault .create
  let temporary ← d.temporaryPlace target
  let tree := d.tree.set temporary (.file (.text ""))
  return ⟨{ d with tree }, temporary⟩

/-- **Write a text** to the temporary file. -/
def fill (s : Saving) (contents : String) : Except IoError Saving := do
  s.disk.checkFault .fill
  let tree := s.disk.tree.set s.temporary (.file (.text contents))
  return { s with disk := { s.disk with tree } }

/-- **Let the temporary file take over the permissions** of the target. They
are no part of the tree. -/
def permit (s : Saving) : Except IoError Saving := do
  s.disk.checkFault .permit
  return s

/-- The disk without the temporary file. -/
def discard (s : Saving) : Disk :=
  { s.disk with tree := s.disk.tree.erase s.temporary }

/-- **Rename the temporary file** to a target. -/
def rename (s : Saving) (target : Path) : Except IoError Disk := do
  s.disk.checkFault .rename
  let some file := s.disk.tree.find? s.temporary | throw .notFound
  let place ← s.discard.renamePlace target
  return { s.discard with tree := s.discard.tree.set place file }

/-! ## All of them -/

/-- What comes of a step, and of its failure: then the temporary file is
removed. -/
def orDiscard {α : Type} (s : Saving) (outcome : Except IoError α) :
    Except (IoError × Disk) α :=
  outcome.mapError fun cause => (cause, s.discard)

/-- The steps after the first. -/
def finish (s : Saving) (target : Path) (contents : String) :
    Except (IoError × Disk) Disk := do
  let filled ← s.orDiscard (s.fill contents)
  let permitted ← filled.orDiscard filled.permit
  permitted.orDiscard (permitted.rename target)

/-- All steps on a disk. -/
def replace (d : Disk) (target : Path) (contents : String) :
    Except (IoError × Disk) Disk := do
  let made ← (create d target).mapError fun cause => (cause, d)
  made.finish target contents

end Saving

/-- **Replace a file** by a text, or make it. The answer says how it
went, and gives the disk after it. -/
def Disk.save (d : Disk) (p : Path) (contents : String) :
    Except IoError Unit × Disk :=
  match Saving.replace d (d.target p) contents with
  | .ok after => (.ok (), { after with saves := d.saves + 1 })
  | .error (cause, after) =>
    (.error cause, { after with saves := d.saves + 1 })

end SwiftStyle
