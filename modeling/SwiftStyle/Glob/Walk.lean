import SwiftStyle.Disk.Basic
import SwiftStyle.Glob.Basic

/-!
# The paths that a glob pattern describes

An absolute pattern is taken apart at its slashes, and each component is
a pattern for the names on one level of the tree: here an asterisk does
not reach beyond a slash. A component that is a name leads on if
something stands there; any other leads on to the entries of a directory
whose names it describes, hidden ones among them; and two asterisks lead
on to the entries at any depth.

The components of the paths found are spelled as in the pattern, so a
dot or a step to a parent stays in them.
-/

namespace SwiftStyle

/-- **An entry that stands below a directory.** -/
structure Entry where
  /-- Its path. -/
  path : Path
  /-- Its name. -/
  name : String
  /-- Whether it is a directory itself. -/
  isDirectory : Bool
deriving DecidableEq, Repr

mutual

/-- The entries at any depth below a node at a path. -/
def Node.descendants (path : Path) : Node → List Entry
  | .file _ => []
  | .directory entries => Node.allDescendants path entries

/-- The entries of a directory at a path, each with those below it. -/
def Node.allDescendants (path : Path) : List (String × Node) → List Entry
  | [] => []
  | (name, node) :: rest =>
    ⟨path.join name, name, node.isDirectory⟩ ::
      (node.descendants (path.join name) ++ Node.allDescendants path rest)

end

/-- The entries of the directory at a path. -/
def Disk.entriesAt (d : Disk) (path : Path) : List Entry :=
  match d.node? path with
  | some node => node.entries.map fun (name, child) =>
      ⟨path.join name, name, child.isDirectory⟩
  | none => []

/-- The entries at any depth below the directory at a path. -/
def Disk.entriesBelow (d : Disk) (path : Path) : List Entry :=
  match d.node? path with
  | some node => node.descendants path
  | none => []

/-- Whether a directory stands at a path. -/
def Disk.hasDirectory (d : Disk) (p : Path) : Bool :=
  (d.node? p).any Node.isDirectory

namespace Glob

/-- **A component of a pattern.** -/
inductive Component where
  /-- A name. -/
  | name (text : String)
  /-- Names that a pattern describes. -/
  | wild (tokens : List Token)
  /-- Two asterisks. -/
  | tree
deriving DecidableEq, Repr

/-- The text that parts stand for, if each stands for itself. -/
def plainText? (tokens : List Token) : Option (List Char) :=
  tokens.mapM fun
    | .char c => some c
    | _ => none

/-- The component that parts make up. -/
def Component.ofTokens (tokens : List Token) : Component :=
  if tokens = [.tree] then .tree
  else
    match plainText? tokens with
    | some text => .name (String.ofList text)
    | none => .wild tokens

/-- Components in which no two that are asterisks follow each other. -/
def collapse : List Component → List Component
  | .tree :: .tree :: rest => collapse (.tree :: rest)
  | c :: rest => c :: collapse rest
  | [] => []

/-- The pieces of a text between slashes, without an empty last one. -/
def pieces (text : List Char) : List (List Char) :=
  let all := Path.segments text
  if all.getLast? = some [] then all.dropLast else all

/-- **The components of an absolute pattern**, if it is a pattern as a
whole and each of its components is one. -/
def components? (pattern : List Char) : Option (List Component) := do
  let _ ← parse? pattern
  let tokens ← (pieces pattern.tail).mapM parse?
  return collapse (tokens.map Component.ofTokens)

/-- Whether a component describes the name of an entry. -/
def Component.admits : Component → String → Bool
  | name text, entry => text == entry
  | wild tokens, entry => isMatch tokens entry.toList
  | tree, _ => false

/-- Where a name leads to from a path. -/
def stepByName (d : Disk) (path : Path) (name : String) : List Path :=
  let next := path.join name
  let leads :=
    if name == "." || name == ".." then d.hasDirectory path
    else d.hasNode next
  if leads then [next] else []

/-- Where a pattern for names leads to from a path. One that begins with
a dot may also describe the parent of the directory and the directory
itself, which come before the entries. -/
def stepByPattern (d : Disk) (path : Path) (tokens : List Token) :
    List Path :=
  let entries := (d.entriesAt path).filter fun e =>
    isMatch tokens e.name.toList
  let dots :=
    if tokens.head? = some (.char '.') && d.hasDirectory path then
      ["..", "."].filter fun name => isMatch tokens name.toList
    else []
  dots.map path.join ++ entries.map (·.path)

/-- **The paths that components lead to** from a path. -/
def walk (d : Disk) : List Component → Path → List Path
  | [], path => [path]
  | [.tree], path =>
    ((d.entriesBelow path).filter (·.isDirectory)).map (·.path)
  | .tree :: next :: rest, path =>
    ((d.entriesBelow path).filter fun e => next.admits e.name).flatMap
      fun e => walk d rest e.path
  | .name text :: rest, path =>
    (stepByName d path text).flatMap (walk d rest)
  | .wild tokens :: rest, path =>
    (stepByPattern d path tokens).flatMap (walk d rest)

/-- **The paths that an absolute pattern describes**, in no particular
order, if it is a pattern. A slash at its end asks for directories. -/
def paths? (d : Disk) (pattern : String) : Option (List Path) := do
  let text := pattern.toList
  let found := walk d (← components? text) ⟨"/"⟩
  return if text.getLast? = some '/' then found.filter d.hasDirectory
    else found

/-! ## Exclusion -/

/-- Whether a text is a pattern and describes a path. -/
def describes (pattern : String) (path : Path) : Bool :=
  (parse? pattern.toList).any fun tokens => isMatch tokens path.text.toList

/-- A text without the pairs of asterisks in it. -/
def dropTrees : List Char → List Char
  | '*' :: '*' :: rest => dropTrees rest
  | c :: rest => c :: dropTrees rest
  | [] => []

/-- **Whether a pattern excludes a path**: it describes the path, or
without its pairs of asterisks is a part of it that is not just a
slash. -/
def excludes (pattern : String) (path : Path) : Bool :=
  describes pattern path ||
    let fragment := dropTrees pattern.toList
    fragment ≠ [] && fragment ≠ ['/'] &&
      (suffixes path.text.toList).any fragment.isPrefixOf

end Glob
end SwiftStyle
