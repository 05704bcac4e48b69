import SwiftStyle.Disk.Error
import SwiftStyle.Disk.Node

/-!
# The disk

A disk is a tree of files with a current directory. A path is followed
through it name by name, which leads to the place that the path stands for
(`Disk.resolve`), and reading a file gives its text. A file can be written
in place (`Disk.write`) or replaced as a whole, which takes the steps of
`SaveStep` (`SwiftStyle.Disk.Saving`); a disk can be made to fail at any of
them (`Disk.fault`).

Following a path and asking for its length are two things. `Disk.locate`
follows segments however many there are, and `Disk.resolve` first refuses a
text that no path may have, so that a path whose absolute form is too long can
be followed and still cannot be read. Errors are met in the order in which a
system meets them: the directory that a segment is met in comes before the
length of the segment, and that before whether anything has its name.

What a file holds is a text or bytes that are no text. Nothing is said about
links, permissions or times; where a real disk would refuse for one of these,
`Disk.fault` stands for it.
-/

namespace SwiftStyle

/-- **The steps of a save**, in their order. -/
inductive SaveStep where
  /-- A temporary file is made beside the target. -/
  | create
  /-- The text is written to it. -/
  | fill
  /-- It takes over the permissions of the target. -/
  | permit
  /-- It is renamed over the target. -/
  | rename
deriving DecidableEq, Repr, Inhabited

/-- **A failure that strikes a save** at one of its steps. -/
structure Fault where
  /-- The step that fails. -/
  step : SaveStep
  /-- What it fails with. -/
  error : IoError
deriving DecidableEq, Repr

/-- **A disk.** -/
structure Disk where
  /-- The tree below the root directory. -/
  tree : Node
  /-- The current directory. -/
  current : Place
  /-- How many saves have been tried. -/
  saves : Nat := 0
  /-- The failure, if any, that strikes the save with this number. -/
  fault : Nat → Option Fault := fun _ => none

namespace Disk

/-- The most bytes that a name may have. -/
def maxNameBytes : Nat := 255

/-- The most bytes that a path may have. -/
def maxPathBytes : Nat := 4095

/-- Whether a name is too long to be that of a file or directory. -/
def isLongName (name : String) : Bool :=
  decide (maxNameBytes < name.utf8ByteSize)

/-- The absolute path of a place. -/
def pathOf (place : Place) : Path :=
  ⟨"/" ++ "/".intercalate place⟩

/-- The path of the current directory. -/
def currentPath (d : Disk) : Path :=
  pathOf d.current

/-- Follow segments from a place. Every segment, an empty one or a dot
too, asks for a directory to stand where it is met; only then its own
length and whether it is there matter. -/
def follow (tree : Node) :
    List (List Char) → Place → Except IoError Place
  | [], place => .ok place
  | segment :: rest, place =>
    match tree.find? place with
    | none => .error .notFound
    | some (.file _) => .error .notDirectory
    | some (.directory _) =>
      if Path.isIdle segment then follow tree rest place
      else if segment = ['.', '.'] then follow tree rest place.dropLast
      else
        let name := String.ofList segment
        let next := place ++ [name]
        if isLongName name then .error .nameTooLong
        else if (tree.find? next).isSome then follow tree rest next
        else .error .notFound

/-- Fail if the text of a path is one that no path has: it holds the NUL
character, or is too long, or is empty. -/
def checkPath (p : Path) : Except IoError Unit :=
  if p.text.toList.contains '\x00' then .error .nulInName
  else if maxPathBytes < p.text.utf8ByteSize then .error .nameTooLong
  else if p.text.isEmpty then .error .notFound
  else .ok ()

/-- The place that is reached when a path is followed name by name,
however long it is as a whole. -/
def locate (d : Disk) (p : Path) : Except IoError Place :=
  follow d.tree (Path.segments p.text.toList)
    (if p.isAbsolute then [] else d.current)

/-- **The place that a path leads to**, if something is there. -/
def resolve (d : Disk) (p : Path) : Except IoError Place := do
  checkPath p
  d.locate p

/-- What stands at a path, if anything. -/
def node? (d : Disk) (p : Path) : Option Node :=
  match d.resolve p with
  | .ok place => d.tree.find? place
  | .error _ => none

/-- Whether something stands at a path. -/
def hasNode (d : Disk) (p : Path) : Bool :=
  (d.node? p).isSome

/-- Whether a file stands at a path. -/
def hasFile (d : Disk) (p : Path) : Bool :=
  (d.node? p).any fun node => !node.isDirectory

/-- The absolute form of a path at which something stands; the path may
be of any length, but its absolute form may not. -/
def canonical? (d : Disk) (p : Path) : Option Path :=
  match d.locate p with
  | .ok place =>
    let absolute := pathOf place
    if p.text.isEmpty || maxPathBytes < absolute.text.utf8ByteSize then none
    else some absolute
  | .error _ => none

/-- **The text of a file.** -/
def read (d : Disk) (p : Path) : Except IoError String := do
  let place ← d.resolve p
  match d.tree.find? place with
  | some (.file (.text contents)) => .ok contents
  | some (.file (.binary _)) => .error .notText
  | some (.directory _) => .error .isDirectory
  | none => .error .notFound

/-- The place that a name at the end of a path has, or would have: the
directory before it exists, and neither is it itself one nor asked to
be one by a slash at the end. -/
def filePlace (d : Disk) (p : Path) : Except IoError Place := do
  checkPath p
  let text := p.text.toList
  let bare := (text.reverse.dropWhile (· == '/')).reverse
  let front := (bare.reverse.dropWhile (· != '/')).reverse
  let name := bare.drop front.length
  let place ←
    if front.isEmpty then
      pure (if p.isAbsolute then [] else d.current)
    else d.resolve ⟨String.ofList front⟩
  if Path.isIdle name || name = ['.', '.'] then throw .busy
  if isLongName (String.ofList name) then throw .nameTooLong
  if bare.length < text.length then throw .notDirectory
  let target := place ++ [String.ofList name]
  match d.tree.find? target with
  | some (.directory _) => throw .isDirectory
  | _ => return target

/-- **Write a file in place**, which makes it if its directory exists. -/
def write (d : Disk) (p : Path) (contents : String) :
    Except IoError Disk := do
  let place ← d.filePlace p
  return { d with tree := d.tree.set place (.file (.text contents)) }

end Disk
end SwiftStyle
