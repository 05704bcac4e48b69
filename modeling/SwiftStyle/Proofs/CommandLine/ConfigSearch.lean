import Mathlib.Data.List.Find
import SwiftStyle.CommandLine.ConfigSearch
import SwiftStyle.Proofs.Disk.AbsolutePath

/-!
# The nearest configuration

Of the directories above a directory, and the directory itself, the nearest
one that has a configuration is to count (`nearestConfig?`). The search finds
that configuration however the path to lint is spelled, with one exception
(`findConfig_iff_nearest`): the directory of a file that is given by its bare
name has the empty path, which is no path at all, and the search looks for
configurations in the current directory only. It then misses one that stands
above (`findConfig_bare`).

The right side of that statement knows places only and the search knows paths
only, so they are brought together from the inside out. In one directory the
search asks for two names, and at their paths it finds what the tree has at
their places (`configIn?_eq`). The paths above an absolute path are those of
the places above, so that going upwards is the same on either side
(`projectConfig?_eq`). And the search starts from the directory that is worked
on, if the path of that directory is not the empty one
(`locate_projectDirectory`).

The empty path has no absolute form. The search takes the path itself and the
paths above it instead, of which there are none, and the names it asks for are
then those of the current directory (`projectConfig?_empty`).
-/

namespace SwiftStyle.CommandLine

/-- The configuration in the directory at a place. -/
def configAt? (tree : Node) (place : Place) : Option Place :=
  (projectNames.map fun name => place ++ [name]).find? tree.hasFile

/-- **The nearest configuration** at or above a place. -/
def nearestConfig? (tree : Node) (place : Place) : Option Place :=
  place.inits.reverse.findSome? (configAt? tree)

/-- The place of the directory that is worked on, given what is asked for. -/
def directoryOf (tree : Node) (place : Place) : Place :=
  if tree.hasFile place then place.dropLast else place

/-- **What a source of a configuration comes to**: the place of a
configuration of projects, or that there is none. -/
inductive ConfigSource.LeadsTo (disk : Disk) :
    ConfigSource → Option Place → Prop
  /-- There is a configuration. -/
  | project {path : Path} {place : Place} (h : disk.locate path = .ok place) :
      LeadsTo disk (.project path) (some place)
  /-- There is none, but the user has one. -/
  | user (path : Path) : LeadsTo disk (.user path) Option.none
  /-- Neither is there one of the user. -/
  | none : LeadsTo disk .none Option.none

/-- Whether a path is a name alone, without a directory. -/
def IsBare (path : Path) : Prop :=
  '/' ∉ path.text.toList

instance (path : Path) : Decidable (IsBare path) :=
  inferInstanceAs (Decidable (_ ∉ _))

variable {disk : Disk} {path p : Path} {place above directory : Place}
  {user : Option Path}

theorem isName_of_mem {name : String} (h : name ∈ projectNames) :
    IsName name := by
  revert name
  decide

/-! ## One directory

A configuration is looked for at two paths, the preferred name first. They
are paths of the directory with a name behind them, and too long a path finds
nothing: hence the assumption that there is room for the names (`HasRoom`).
The directories above have room if the directory has. -/

/-- The configuration in a directory is the first of its names that a file
has. -/
theorem configIn?_eq (hp : disk.locate p = .ok place)
    (hcheck : ∀ name ∈ projectNames,
      Disk.checkPath (p.join name) = .ok ()) :
    configIn? disk p
      = (projectNames.find? fun name => disk.tree.hasFile (place ++ [name])).map
          p.join := by
  unfold configIn?
  rw [List.find?_map]
  refine congrArg _ (List.find?_congr fun name hname => ?_)
  exact Disk.hasFile_join hp (isName_of_mem hname) (hcheck name hname)

theorem configAt?_eq (tree : Node) (place : Place) :
    configAt? tree place
      = (projectNames.find? fun name => tree.hasFile (place ++ [name])).map
          fun name => place ++ [name] :=
  List.find?_map

/-- The paths of the configurations in a directory are short enough to be
paths. -/
def HasRoom (directory : Place) : Prop :=
  ∀ name ∈ projectNames,
    (Disk.pathOf (directory ++ [name])).text.utf8ByteSize ≤ Disk.maxPathBytes

instance (directory : Place) : Decidable (HasRoom directory) :=
  inferInstanceAs (Decidable (∀ name ∈ projectNames, _))

/-- **The search in a directory above finds its configuration** by its
absolute path. -/
theorem configIn?_pathOf (htree : disk.tree.Proper)
    (hdir : disk.tree.hasDirectory directory) (hroom : HasRoom directory)
    (habove : above <+: directory) :
    configIn? disk (Disk.pathOf above)
      = (configAt? disk.tree above).map Disk.pathOf := by
  have hdir := Node.hasDirectory_of_prefix hdir habove
  have hnames := htree.isName_of_isSome (Option.isSome_of_any hdir)
  have hjoin : ∀ name ∈ projectNames,
      Disk.pathOf (above ++ [name]) = (Disk.pathOf above).join name :=
    fun name hname => Disk.pathOf_concat hnames (isName_of_mem hname)
  have hlocate := Disk.locate_pathOf htree
    (Node.hasDirectory_of_prefix hdir List.nil_prefix)
    (Option.isSome_of_any hdir)
  rw [configIn?_eq hlocate, configAt?_eq, Option.map_map]
  · cases hfind : projectNames.find? fun name =>
        disk.tree.hasFile (above ++ [name]) with
    | none => rfl
    | some name =>
      exact congrArg some (hjoin name (List.mem_of_find?_eq_some hfind)).symm
  · intro name hname
    rw [← hjoin name hname]
    refine Disk.checkPath_pathOf ?_
      ((Disk.size_pathOf_le habove name).trans (hroom name hname))
    exact List.forall_mem_append.2
      ⟨hnames, List.forall_mem_singleton.2 (isName_of_mem hname)⟩

/-! ## The directories above

For a path with an absolute form the two searches go up the same directories.
The empty path is the other case, with lemmas of its own. -/

/-- **The search from a directory finds the nearest configuration.** -/
theorem projectConfig?_eq (htree : disk.tree.Proper)
    (hdir : disk.tree.hasDirectory directory) (hroom : HasRoom directory)
    (hp : disk.locate p = .ok directory) (hempty : p.text ≠ "") :
    projectConfig? disk p
      = (nearestConfig? disk.tree directory).map Disk.pathOf := by
  have hnames := htree.isName_of_isSome (Option.isSome_of_any hdir)
  have hcanonical : disk.canonical? p = some (Disk.pathOf directory) := by
    have hname : "stylint.toml" ∈ projectNames := List.mem_cons_self
    have hsize := hroom _ hname
    rw [Disk.pathOf_concat hnames (isName_of_mem hname)] at hsize
    have hsize := (Disk.size_le_join (isName_of_mem hname)).trans hsize
    unfold Disk.canonical?
    rw [hp]
    dsimp only
    rw [if_neg]
    simpa [hempty] using hsize
  have habove : ∀ above ∈ directory.inits.reverse, above <+: directory :=
    fun above h => (List.mem_inits _ _).1 (List.mem_reverse.1 h)
  unfold projectConfig? nearestConfig?
  rw [hcanonical, Option.getD_some]
  dsimp only
  rw [Disk.ancestors_pathOf hnames]
  generalize directory.inits.reverse = places at habove
  induction places with
  | nil => rfl
  | cons above places ih =>
    obtain ⟨hnear, habove⟩ := List.forall_mem_cons.1 habove
    rw [List.map_cons, List.findSome?_cons, List.findSome?_cons, ih habove,
      configIn?_pathOf htree hdir hroom hnear]
    cases configAt? disk.tree above <;> rfl

/-- The empty path leads to the current directory, though it is no path. -/
theorem locate_empty (hdir : disk.tree.hasDirectory disk.current) :
    disk.locate ⟨""⟩ = .ok disk.current := by
  have hidle : ∀ s ∈ [[]], Path.isIdle s := by simp [Path.isIdle]
  exact Disk.follow_idle hidle hdir

theorem join_empty {name : String} (h : name ∈ projectNames) :
    Path.join ⟨""⟩ name = ⟨name⟩ := by
  revert name
  decide

/-- From the empty path it finds the configuration of the current directory
only. -/
theorem projectConfig?_empty (hdir : disk.tree.hasDirectory disk.current) :
    projectConfig? disk ⟨""⟩
      = (projectNames.find? fun name =>
          disk.tree.hasFile (disk.current ++ [name])).map Path.mk := by
  have hcanonical : disk.canonical? ⟨""⟩ = none := by
    unfold Disk.canonical?
    rw [locate_empty hdir]
    rfl
  have hancestors : Path.ancestors ⟨""⟩ = [⟨""⟩] := by decide
  unfold projectConfig?
  rw [hcanonical, Option.getD_none]
  dsimp only
  rw [hancestors, List.findSome?_singleton, configIn?_eq (locate_empty hdir)]
  · cases hfind : projectNames.find? fun name =>
        disk.tree.hasFile (disk.current ++ [name]) with
    | none => rfl
    | some name =>
      exact congrArg some (join_empty (List.mem_of_find?_eq_some hfind))
  · decide

/-! ## What is worked on

A path that leads to a directory asks for that directory, and one that leads
to a file for the directory of the file, which is what is left of the path
without its last component. Only for a bare name nothing is left. A source of
a configuration is compared by what its path leads to
(`ConfigSource.LeadsTo`), since the search spells the same file in two ways:
by its absolute path, or from the empty path by its name. -/

theorem hasFile_eq (hpath : disk.resolve path = .ok place) :
    disk.hasFile path = disk.tree.hasFile place := by
  unfold Disk.hasFile Disk.node? Node.hasFile
  rw [hpath]

theorem hasDirectory_directoryOf (hpath : disk.resolve path = .ok place) :
    disk.tree.hasDirectory (directoryOf disk.tree place) := by
  obtain ⟨hcheck, hlocate⟩ := Disk.resolve_eq_ok.1 hpath
  unfold directoryOf
  split
  next hfile => exact (Disk.locate_parent? hlocate hfile).1
  next hfile =>
    exact Node.hasDirectory_of_not_hasFile
      (Disk.isSome_find?_of_locate hlocate) hfile

/-- **What is worked on is found by its path**, unless that is empty. -/
theorem locate_projectDirectory (hpath : disk.resolve path = .ok place)
    (hbare : disk.hasFile path → ¬ IsBare path) :
    (projectDirectory disk path).text ≠ "" ∧
      disk.locate (projectDirectory disk path)
        = .ok (directoryOf disk.tree place) := by
  obtain ⟨hcheck, hlocate⟩ := Disk.resolve_eq_ok.1 hpath
  rw [hasFile_eq hpath] at hbare
  unfold projectDirectory directoryOf
  rw [hasFile_eq hpath]
  by_cases hfile : disk.tree.hasFile place
  · obtain ⟨-, q, hq, hparent⟩ := Disk.locate_parent? hlocate hfile
    rw [if_pos (not_not.1 (hbare hfile))] at hparent
    rw [if_pos hfile, if_pos hfile, hq]
    exact hparent
  · rw [if_neg hfile, if_neg hfile]
    exact ⟨(Disk.checkPath_eq_ok.1 hcheck).2.2, hlocate⟩

/-- **That of a bare name of a file is empty**, and the directory is the
current one. -/
theorem projectDirectory_bare (hpath : disk.resolve path = .ok place)
    (hfile : disk.hasFile path) (hbare : IsBare path) :
    projectDirectory disk path = ⟨""⟩ ∧
      directoryOf disk.tree place = disk.current := by
  obtain ⟨-, hlocate⟩ := Disk.resolve_eq_ok.1 hpath
  rw [hasFile_eq hpath] at hfile
  unfold projectDirectory directoryOf
  obtain ⟨-, q, hq, hparent⟩ := Disk.locate_parent? hlocate hfile
  rw [if_neg hbare] at hparent
  rw [hasFile_eq hpath, if_pos hfile, if_pos hfile, hq]
  exact hparent

theorem hasFile_nearestConfig {tree : Node} {config : Place}
    (h : nearestConfig? tree place = some config) : tree.hasFile config := by
  obtain ⟨above, -, habove⟩ := List.exists_of_findSome?_eq_some h
  exact List.find?_some habove

/-- Where a search ends: at what it finds, however that is spelled. -/
theorem leadsTo_findConfig {α : Type} {found : Option α} {spell : α → Path}
    (placeOf : α → Place) (h : projectConfig? disk p = found.map spell)
    (hspell : ∀ a, found = some a →
      disk.locate (spell a) = .ok (placeOf a)) (user : Option Path) :
    (findConfig disk user p none).LeadsTo disk (found.map placeOf) := by
  unfold findConfig
  rw [h]
  cases found with
  | some a => exact .project (hspell a rfl)
  | none =>
    dsimp only [Option.map_none]
    split
    · split
      · exact .user _
      · exact .none
    · exact .none

theorem ConfigSource.LeadsTo.unique {s : ConfigSource} {a b : Option Place}
    (ha : s.LeadsTo disk a) (hb : s.LeadsTo disk b) : a = b := by
  cases ha with
  | project h =>
    cases hb with
    | project h' => exact congrArg some (Except.ok.inj (h.symm.trans h'))
  | user => cases hb; rfl
  | none => cases hb; rfl

/-- **From what is worked on the nearest configuration is found**, unless it
is a bare name. -/
theorem projectConfig?_nearest (htree : disk.tree.Proper)
    (hpath : disk.resolve path = .ok place)
    (hroom : HasRoom (directoryOf disk.tree place))
    (hbare : disk.hasFile path → ¬ IsBare path) :
    projectConfig? disk (projectDirectory disk path)
      = (nearestConfig? disk.tree (directoryOf disk.tree place)).map
          Disk.pathOf := by
  obtain ⟨hempty, hlocate⟩ := locate_projectDirectory hpath hbare
  exact projectConfig?_eq htree (hasDirectory_directoryOf hpath) hroom hlocate
    hempty

theorem leadsTo_nearest (htree : disk.tree.Proper)
    (hpath : disk.resolve path = .ok place)
    (hroom : HasRoom (directoryOf disk.tree place))
    (hbare : disk.hasFile path → ¬ IsBare path) (user : Option Path) :
    (findConfig disk user (projectDirectory disk path) none).LeadsTo disk
      (nearestConfig? disk.tree (directoryOf disk.tree place)) := by
  have hroot := Node.hasDirectory_of_prefix (hasDirectory_directoryOf hpath)
    List.nil_prefix
  have := leadsTo_findConfig id
    (projectConfig?_nearest htree hpath hroom hbare)
    (fun config hconfig => ?_) user
  · rwa [Option.map_id_apply] at this
  · exact Disk.locate_pathOf htree hroot
      (Option.isSome_of_any (hasFile_nearestConfig hconfig))

theorem leadsTo_current (hdir : disk.tree.hasDirectory disk.current)
    (user : Option Path) :
    (findConfig disk user ⟨""⟩ none).LeadsTo disk
      (configAt? disk.tree disk.current) := by
  rw [configAt?_eq]
  refine leadsTo_findConfig _ (projectConfig?_empty hdir)
    (fun name hname => ?_) user
  have hmem := List.mem_of_find?_eq_some hname
  have hfile := List.find?_some
    (p := fun name => disk.tree.hasFile (disk.current ++ [name])) hname
  rw [← join_empty hmem]
  exact (Disk.locate_join_name_eq_ok (locate_empty hdir)
    (isName_of_mem hmem)).2 ⟨rfl, Option.isSome_of_any hfile⟩

theorem leadsTo_bare (hpath : disk.resolve path = .ok place)
    (hfile : disk.hasFile path) (hbare : IsBare path) (user : Option Path) :
    (findConfig disk user (projectDirectory disk path) none).LeadsTo disk
      (configAt? disk.tree (directoryOf disk.tree place)) := by
  obtain ⟨hempty, hcurrent⟩ := projectDirectory_bare hpath hfile hbare
  have hdir := hasDirectory_directoryOf hpath
  rw [hcurrent] at hdir
  rw [hempty, hcurrent]
  exact leadsTo_current hdir user

/-- **The nearest configuration is found if and only if** what is worked on is
not a bare name of a file, or nothing but the current directory matters. -/
theorem findConfig_iff_nearest (htree : disk.tree.Proper)
    (hpath : disk.resolve path = .ok place)
    (hroom : HasRoom (directoryOf disk.tree place)) (user : Option Path) :
    let directory := directoryOf disk.tree place
    let found := fun path =>
      findConfig disk user (projectDirectory disk path) none
    ((found path).LeadsTo disk (nearestConfig? disk.tree directory)
      ↔ (disk.hasFile path → IsBare path →
          nearestConfig? disk.tree directory
            = configAt? disk.tree directory)) ∧
    ∀ other, disk.resolve other = .ok place →
      (disk.hasFile path → ¬ IsBare path ∧ ¬ IsBare other) →
      found other = found path := by
  intro directory found
  refine ⟨⟨fun hnearest hfile hbare => ?_, fun h => ?_⟩,
    fun other hother hbare => ?_⟩
  · exact hnearest.unique (leadsTo_bare hpath hfile hbare user)
  · by_cases hbare : disk.hasFile path → ¬ IsBare path
    · exact leadsTo_nearest htree hpath hroom hbare user
    · obtain ⟨hfile, hbare⟩ := Classical.not_imp.1 hbare
      have hbare := not_not.1 hbare
      rw [h hfile hbare]
      exact leadsTo_bare hpath hfile hbare user
  · have hsame : disk.hasFile other = disk.hasFile path :=
      (hasFile_eq hother).trans (hasFile_eq hpath).symm
    unfold found findConfig
    rw [projectConfig?_nearest htree hpath hroom fun hfile => (hbare hfile).1,
      projectConfig?_nearest htree hother hroom fun hfile =>
        (hbare (hsame ▸ hfile)).2]

/-- A file in a directory without a configuration, below one that has both,
asked for from yet another directory and in two spellings. -/
theorem findConfig_iff_nearest_spelled :
    let disk : Disk :=
      { tree := .directory [("p", .directory
          [(".stylint.toml", .file (.text "")),
           ("stylint.toml", .file (.text "")),
           ("a", .directory
             [("b.swift", .file (.text "")), ("c", .directory [])])])]
        current := ["p", "a", "c"] }
    let path : Path := ⟨"..//./b.swift"⟩
    let found := fun path =>
      findConfig disk (some ⟨"/p"⟩) (projectDirectory disk path) none
    disk.tree.Proper ∧ disk.resolve path = .ok ["p", "a", "b.swift"] ∧
    disk.resolve ⟨"/p/a/b.swift"⟩ = .ok ["p", "a", "b.swift"] ∧
    HasRoom ["p", "a"] ∧
    (found path).LeadsTo disk (some ["p", "stylint.toml"]) ∧
    found ⟨"/p/a/b.swift"⟩ = found path := by
  intro disk path found
  have htree : disk.tree.Proper := by decide +kernel
  have hpath : disk.resolve path = .ok ["p", "a", "b.swift"] := by
    decide +kernel
  have hother : disk.resolve ⟨"/p/a/b.swift"⟩ = .ok ["p", "a", "b.swift"] := by
    decide +kernel
  have hroom : HasRoom ["p", "a"] := by decide +kernel
  obtain ⟨hnearest, hspelled⟩ :=
    findConfig_iff_nearest htree hpath hroom (some ⟨"/p"⟩)
  refine ⟨htree, hpath, hother, hroom, hnearest.2 fun _ hbare => ?_,
    hspelled _ hother fun _ => ?_⟩
  · exact absurd hbare (by decide +kernel)
  · decide +kernel

/-- A configuration that stands above the current directory is found for a
file that is given with its directory, and missed for its bare name. -/
theorem findConfig_bare :
    let disk : Disk :=
      { tree := .directory [("p", .directory
          [("stylint.toml", .file (.text "")),
           ("a", .directory [("b.swift", .file (.text ""))])])]
        current := ["p", "a"] }
    let found := fun path =>
      findConfig disk none (projectDirectory disk path) none
    disk.tree.Proper ∧
    disk.resolve ⟨"b.swift"⟩ = disk.resolve ⟨"./b.swift"⟩ ∧
    nearestConfig? disk.tree ["p", "a"] = some ["p", "stylint.toml"] ∧
    found ⟨"./b.swift"⟩ = .project ⟨"/p/stylint.toml"⟩ ∧
    found ⟨"b.swift"⟩ = .none := by
  decide +kernel

end SwiftStyle.CommandLine
