import SwiftStyle.CommandLine.Run

/-!
# The program

The outer layer: it copies the parts of the file system that a run may
look at into a disk, lets `CommandLine.run` work on that, writes the
files that have changed, and prints what there is to print. Nothing is
decided here. Links are not followed.

Since the run is a function from a disk to an outcome, what the program does
to the file system is the difference of two trees (`Node.changedSince`).
-/

namespace SwiftStyle.Program

/-- The names on the way to an absolute path. -/
def placeOf (path : String) : Place :=
  ((Path.segments path.toList).filter fun s => !Path.isIdle s).map
    String.ofList

/-- What a file holds. -/
def readData (path : String) : IO FileData := do
  let bytes ← IO.FS.readBinFile path
  match String.fromUTF8? bytes with
  | some contents => return .text contents
  | none => return .binary bytes.toList

/-- The node of a directory entry, with everything below it. -/
partial def readNode (entry : IO.FS.DirEntry) : IO (Option Node) := do
  match (← entry.path.symlinkMetadata).type with
  | .file => return some (.file (← readData entry.path.toString))
  | .dir =>
    let mut entries := #[]
    for inner in ← entry.path.readDir do
      if let some node ← readNode inner then
        entries := entries.push (inner.fileName, node)
    return some (.directory entries.toList)
  | _ => return none

/-- Copy the node at a path into a tree, if it can be read. -/
def copyNode (tree : Node) (path : String) : IO Node := do
  try
    let real ← IO.FS.realPath path
    let entry := ⟨real.parent.getD real, real.fileName.getD "."⟩
    match ← readNode entry with
    | some node => return tree.set (placeOf real.toString) node
    | none => return tree
  catch _ => return tree

/-- Copy the configurations of a directory and of those above it. -/
def copyConfigs (tree : Node) (directory : Path) : IO Node := do
  let mut tree := tree
  for above in directory.ancestors do
    for name in CommandLine.projectNames do
      let path := (above.join name).text
      if (tree.find? (placeOf path)).isNone then
        tree ← copyNode tree path
  return tree

/-- The front of a path that no pattern character belongs to. -/
def plainFront (path : Path) : Path :=
  let isPlain := fun (p : Path) =>
    p.text.toList.all fun c => c != '*' && c != '?' && c != '['
  (path.ancestors.find? isPlain).getD path

/-- The disk that a run with these arguments may look at. -/
def readDisk (env : CommandLine.Environment) (current : Path)
    (arguments : List String) : IO Disk := do
  let named := arguments ++ env.config.toList ++ ["."] ++
    (env.userDirectory.map (·.text)).toList
  let mut tree := (Node.directory []).set (placeOf current.text)
    (.directory [])
  for text in named do
    let path := plainFront (current.join text)
    tree ← copyNode tree path.text
    try
      let real ← IO.FS.realPath path.text
      tree ← copyConfigs tree ⟨real.toString⟩
    catch _ => pure ()
  return { tree, current := placeOf current.text }

/-- Replace a file by a text as a whole. -/
def writeFile (place : Place) (contents : String) : IO Unit := do
  let path := (Disk.pathOf place).text
  let temporary := path ++ ".tmp"
  IO.FS.writeFile temporary contents
  IO.FS.rename temporary path

/-- Write the files in which a disk differs from what it was. -/
def writeChanges (before after : Disk) : IO Unit := do
  for (place, data) in after.tree.changedSince before.tree do
    match data with
    | .text contents => writeFile place contents
    | .binary _ => pure ()

/-- What the environment says. -/
def readEnvironment : IO CommandLine.Environment := do
  let config ← IO.getEnv "STYLINT_CONFIG"
  let directory ← IO.getEnv "STYLINT_CONFIG_DIR"
  let home ← IO.getEnv "HOME"
  let userDirectory := (directory.map Path.mk) <|>
    home.map fun h => (Path.mk h).join ".stylint"
  return { config, userDirectory }

end SwiftStyle.Program

open SwiftStyle in
/-- Run the program on its arguments. -/
def main (arguments : List String) : IO UInt32 := do
  let env ← Program.readEnvironment
  let current : Path := ⟨(← IO.currentDir).toString⟩
  let disk ← Program.readDisk env current arguments
  let outcome := CommandLine.run env disk arguments
  Program.writeChanges disk outcome.disk
  IO.print outcome.output
  for warning in outcome.warnings do
    IO.eprintln ("WARN " ++ warning.message)
  if let some error := outcome.error then
    IO.eprintln ("Error: " ++ error)
  return UInt32.ofNat outcome.status
