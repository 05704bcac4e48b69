/-!
# The tree of files

A node is a file or a directory with named nodes in it. A place in the
tree is the list of names that leads to it from the root.

The entries of a directory have an order, and nothing keeps two of them from
having one name; a name then leads to the first. Trees in which that does not
happen are told by a property of their own where it matters. To set a node is
total: whatever is missing on the way is made. So whether a file may be
written is asked before, of the place (`Disk.filePlace`).
-/

namespace SwiftStyle

/-- **What a file holds**: a text, or bytes that are not UTF-8 and are
never read. -/
inductive FileData where
  /-- A text. -/
  | text (contents : String)
  /-- Bytes that are no text. -/
  | binary (bytes : List UInt8)
deriving DecidableEq, Repr, Inhabited

/-- **A file or a directory.** -/
inductive Node where
  /-- A file. -/
  | file (data : FileData)
  /-- A directory. -/
  | directory (entries : List (String × Node))
deriving Repr, Inhabited

/-- A place in the tree: the names on the way from the root. -/
abbrev Place := List String

namespace Node

/-- The named nodes in a directory; a file has none. -/
def entries : Node → List (String × Node)
  | file _ => []
  | directory entries => entries

/-- Whether a node is a directory. -/
def isDirectory : Node → Bool
  | file _ => false
  | directory _ => true

/-- The node of a name in a directory. -/
def child? (node : Node) (name : String) : Option Node :=
  (node.entries.find? fun entry => entry.1 == name).map (·.2)

/-- The node at a place. -/
def find? : Node → Place → Option Node
  | node, [] => some node
  | node, name :: rest =>
    match node.child? name with
    | some child => child.find? rest
    | none => none

/-- Named nodes with one of them set, in its old position if the name
was there and at the end if not. -/
def setEntry (name : String) (child : Node) :
    List (String × Node) → List (String × Node)
  | [] => [(name, child)]
  | entry :: rest =>
    if entry.1 == name then (name, child) :: rest
    else entry :: setEntry name child rest

/-- The tree with a node set at a place; directories that are missing on
the way are made, and a file on the way gives way to one. -/
def set : Node → Place → Node → Node
  | _, [], new => new
  | node, name :: rest, new =>
    let child := (node.child? name).getD (directory [])
    directory (setEntry name (child.set rest new) node.entries)

/-- The tree without the node at a place; the root stays. -/
def erase : Node → Place → Node
  | directory entries, [name] =>
    directory (entries.eraseP fun entry => entry.1 == name)
  | directory entries, name :: rest =>
    match (directory entries).child? name with
    | some child => directory (setEntry name (child.erase rest) entries)
    | none => directory entries
  | node, _ => node

mutual

/-- **The files at and below a place**, each with its place. -/
def files (place : Place) : Node → List (Place × FileData)
  | file data => [(place, data)]
  | directory entries => filesOf place entries

/-- The files in and below a directory at a place. -/
def filesOf (place : Place) :
    List (String × Node) → List (Place × FileData)
  | [] => []
  | (name, node) :: rest =>
    node.files (place ++ [name]) ++ filesOf place rest

end

/-- The files of a tree that another tree lacks or in which they
differ. -/
def changedSince (new old : Node) : List (Place × FileData) :=
  (new.files []).filter fun (place, data) =>
    match old.find? place with
    | some (file before) => before != data
    | _ => true

end Node
end SwiftStyle
