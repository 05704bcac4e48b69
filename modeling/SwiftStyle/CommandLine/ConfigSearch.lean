import SwiftStyle.Config

/-!
# The search for a configuration

A configuration that is asked for by its path is taken. Otherwise the
nearest one counts among the directory that is worked on and those above
it; failing that, the one of the user; and failing that too, there is
none.

The search says where a configuration comes from (`ConfigSource`), and not
what is in it: a file that is found is read afterwards, and if that fails the
search does not go on.
-/

namespace SwiftStyle.CommandLine

/-- **Where a configuration comes from.** -/
inductive ConfigSource where
  /-- It was asked for. -/
  | explicit (path : Path)
  /-- It stands in the directory that is worked on or above it. -/
  | project (path : Path)
  /-- It is that of the user. -/
  | user (path : Path)
  /-- There is none. -/
  | none
deriving DecidableEq, Repr

/-- The path of the configuration, if there is one. -/
def ConfigSource.path? : ConfigSource → Option Path
  | explicit path => some path
  | project path => some path
  | user path => some path
  | none => Option.none

/-- The names of the configurations of projects, the preferred first. -/
def projectNames : List String :=
  ["stylint.toml", ".stylint.toml"]

/-- The directory that is worked on: a directory itself, and the parent
of a file. -/
def projectDirectory (disk : Disk) (path : Path) : Path :=
  if disk.hasFile path then path.parent?.getD ⟨"."⟩ else path

/-- The configuration in a directory. -/
def configIn? (disk : Disk) (directory : Path) : Option Path :=
  (projectNames.map directory.join).find? disk.hasFile

/-- **The nearest configuration** from a directory upwards. -/
def projectConfig? (disk : Disk) (directory : Path) : Option Path :=
  let start := (disk.canonical? directory).getD directory
  start.ancestors.findSome? (configIn? disk)

/-- **The configuration for a directory**, given the one that is asked
for and the directory of the user. -/
def findConfig (disk : Disk) (userDirectory : Option Path)
    (directory : Path) (asked : Option Path) : ConfigSource :=
  match asked, projectConfig? disk directory with
  | some path, _ => .explicit path
  | none, some path => .project path
  | none, none =>
    match userDirectory.map (·.join "config.toml") with
    | some path => if disk.hasNode path then .user path else .none
    | none => .none

/-- The configuration of a source, or the default one. -/
def ConfigSource.load (s : ConfigSource) (disk : Disk) :
    Except ConfigError Config :=
  match s.path? with
  | some path => Config.read disk path
  | Option.none => .ok {}

end SwiftStyle.CommandLine
