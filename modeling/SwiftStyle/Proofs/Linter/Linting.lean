import Mathlib.Data.List.Basic
import SwiftStyle.CommandLine.Run
import SwiftStyle.Proofs.Linter.Discovery
import SwiftStyle.Proofs.Registry.Configured

/-!
# What a linter reports

A linter looks at every file that can be read, lets every rule look at it,
and sorts what they report by file and offset. Sorting is by an order with
ties, so the result is described by three facts (`LintResult.Gathers`):
nothing is lost or told twice, it is in order, and what is reported at one
place of one file stays in the order of the rules and of their reports.
The last holds because a sort by comparisons keeps every part of a list
that is in order already (`filter_mergeSort`), and because no two files
that are found are alike.

What a rule reports is changed in its severity only, if the configuration
says so (`overrideSeverity_eq`). The severities after that change decide
how a run of the command line ends (`status_lintWith`). All of this is put
together in `lint_gathers`.

That no two files are alike needs the rules to say where they look: a
violation carries the path of a file, and a rule that wrote another path into
it could put its report among those of another file. So `Rule.Locates` is a
hypothesis on the rules of a linter, and a theorem about the built-in ones,
with any parameters a configuration gives them.

The command line lints with a linter that it makes from the arguments and
from the configuration that it finds for the path. Its run has an error where
the configuration cannot be read or the search for files fails, and in no other
case (`error_lintWith`, `run_lint_file`). Where it has none, the exit code is
about the violations, and `LintResult.Gathers.exists_iff` says which
violations there are: those of the files, with the severities that the
configuration gives them.
-/

namespace SwiftStyle

/-! ## The order of violations

Files compare by their paths and a violation in no file comes first, so the
order of violations is a lexicographic one, and its laws are those of its
parts. -/

instance : Std.TransCmp Linter.compareFiles where
  eq_swap {f g} := by
    cases f with
    | none => cases g <;> rfl
    | some p =>
      cases g with
      | none => rfl
      | some q => exact @Std.OrientedCmp.eq_swap _ Path.compare _ p q
  isLE_trans {f g h} hfg hgh := by
    cases f with
    | none => cases h <;> rfl
    | some p =>
      cases g with
      | none => exact nomatch hfg
      | some q =>
        cases h with
        | none => exact nomatch hgh
        | some r =>
          exact @Std.TransCmp.isLE_trans _ Path.compare _ p q r hfg hgh

/-- How two violations compare by their files. -/
def Violation.compareFile (v w : Violation) : Ordering :=
  Linter.compareFiles v.location.file w.location.file

/-- How two violations compare: by file and then by offset. -/
def Violation.compare : Violation → Violation → Ordering :=
  compareLex compareFile (compareOn fun v => v.location.offset)

instance : Std.TransCmp Violation.compareFile :=
  transCmp_on Linter.compareFiles fun v : Violation => v.location.file

instance : Std.TransCmp Violation.compare :=
  inferInstanceAs (Std.TransCmp (compareLex _ _))

theorem Violation.isLE_compare_of_eq {v w : Violation}
    (hfile : v.location.file = w.location.file)
    (hoffset : v.location.offset = w.location.offset) :
    (v.compare w).isLE := by
  have heq : v.compare w = .eq := by
    refine Ordering.then_eq_eq.2 ⟨?_, ?_⟩
    · unfold compareFile
      rw [hfile]
      exact Std.ReflCmp.compare_self
    · unfold compareOn
      dsimp only
      rw [hoffset]
      exact Std.ReflCmp.compare_self
  rw [heq]
  rfl

/-- **A sort keeps what is in order already**: the items that come before
each other, either way, stay in the order they have. -/
theorem filter_mergeSort {α : Type} (cmp : α → α → Ordering)
    [Std.TransCmp cmp] {p : α → Bool} (l : List α)
    (h : ∀ a b, p a → p b → (cmp a b).isLE) :
    (l.mergeSort fun a b => (cmp a b).isLE).filter p = l.filter p := by
  have htied : (l.filter p).Pairwise fun a b => (cmp a b).isLE :=
    List.pairwise_of_forall_mem_list fun a ha b hb =>
      h a b (List.mem_filter.1 ha).2 (List.mem_filter.1 hb).2
  have hsub := (List.sublist_mergeSort (fun _ _ _ => Std.TransCmp.isLE_trans)
    (isLE_total cmp) htied List.filter_sublist).filter p
  simp only [List.filter_filter, Bool.and_self] at hsub
  refine (hsub.eq_of_length ?_).symm
  exact ((List.mergeSort_perm l _).filter p).length_eq.symm

/-! ## What is reported of a file

The report of a file is the reports of its rules one behind the other, with
other severities where the configuration has them. -/

/-- **A rule tells where it looks**: its violations carry the path of the
file that they are found in. -/
def Rule.Locates (rule : Rule) : Prop :=
  ∀ file, ∀ v ∈ rule.validate file, v.location.file = file.path

/-- Whether a violation is at an offset in the file at a path. -/
def Violation.isAt (path : Option Path) (offset : Nat) (v : Violation) :
    Bool :=
  decide (v.location.file = path ∧ v.location.offset = offset)

namespace Linter

variable {l : Linter} {file : SourceFile} {files : List SourceFile}
  {rule : Rule} {v : Violation}

/-- The files at paths that can be read. -/
def readable (disk : Disk) (paths : List Path) : List SourceFile :=
  paths.filterMap fun path => (SourceFile.read disk path).toOption

/-- A configuration changes nothing of a violation but its severity. -/
theorem overrideSeverity_eq (l : Linter) (identifier : String)
    (v : Violation) :
    l.overrideSeverity identifier v
      = { v with severity :=
            (l.config.severityOf? identifier).getD v.severity } := by
  unfold overrideSeverity
  cases l.config.severityOf? identifier <;> rfl

@[simp] theorem location_overrideSeverity (identifier : String) :
    (l.overrideSeverity identifier v).location = v.location := by
  rw [overrideSeverity_eq]

theorem mem_lintFile :
    v ∈ l.lintFile file ↔ ∃ rule ∈ l.rules, ∃ w ∈ rule.validate file,
      l.overrideSeverity rule.identifier w = v := by
  unfold lintFile
  simp only [List.mem_flatMap, List.mem_map]

theorem file_of_mem_lintFile (hl : ∀ rule ∈ l.rules, rule.Locates)
    (h : v ∈ l.lintFile file) : v.location.file = file.path := by
  obtain ⟨rule, hrule, w, hw, rfl⟩ := mem_lintFile.1 h
  rw [location_overrideSeverity]
  exact hl rule hrule file w hw

/-- What is reported of a file at an offset. -/
theorem filter_lintFile (hl : ∀ rule ∈ l.rules, rule.Locates)
    (offset : Nat) :
    (l.lintFile file).filter (·.isAt file.path offset)
      = l.rules.flatMap fun rule =>
          ((rule.validate file).filter (·.location.offset == offset)).map
            (l.overrideSeverity rule.identifier) := by
  unfold lintFile
  rw [List.filter_flatMap]
  refine List.flatMap_congr fun rule hrule => ?_
  rw [List.filter_map]
  refine congrArg _ (List.filter_congr fun v hv => ?_)
  unfold Violation.isAt
  simp only [Function.comp_apply, location_overrideSeverity,
    hl rule hrule file v hv, true_and]
  rfl

/-- Nothing is reported of one file at the path of another. -/
theorem filter_lintFile_of_ne (hl : ∀ rule ∈ l.rules, rule.Locates)
    {path : Option Path} (h : file.path ≠ path) (offset : Nat) :
    (l.lintFile file).filter (·.isAt path offset) = [] := by
  refine List.filter_eq_nil_iff.2 fun v hv hat => h ?_
  rw [← file_of_mem_lintFile hl hv]
  exact (of_decide_eq_true hat).1

/-- **Of files at distinct paths, one is reported at a path.** -/
theorem filter_flatMap_lintFile (hl : ∀ rule ∈ l.rules, rule.Locates)
    (hfiles : files.Pairwise fun f g => f.path ≠ g.path)
    (hfile : file ∈ files) (offset : Nat) :
    (files.flatMap l.lintFile).filter (·.isAt file.path offset)
      = (l.lintFile file).filter (·.isAt file.path offset) := by
  induction hfiles with
  | nil => exact absurd hfile List.not_mem_nil
  | @cons first files hfirst _ ih =>
    rw [List.flatMap_cons, List.filter_append]
    rcases List.mem_cons.1 hfile with rfl | hfile
    · rw [List.filter_flatMap, List.flatMap_eq_nil_iff.2, List.append_nil]
      exact fun g hg => filter_lintFile_of_ne hl (hfirst g hg).symm offset
    · rw [filter_lintFile_of_ne hl (hfirst file hfile), ih hfile,
        List.nil_append]

end Linter

/-! ## What is reported of all files

Three facts describe a sorted list: it is a permutation of what was reported,
it is in order, and what is at one place is in the order it was reported in.
-/

/-- **A result gathers what a linter reports of files.** -/
structure LintResult.Gathers (result : LintResult) (l : Linter)
    (files : List SourceFile) : Prop where
  /-- Nothing is lost, and nothing is told twice. -/
  complete : result.violations.Perm (files.flatMap l.lintFile)
  /-- The violations are in the order of their files and offsets. -/
  ordered : result.violations.Pairwise fun v w =>
    Linter.compareFiles v.location.file w.location.file = .lt ∨
      Linter.compareFiles v.location.file w.location.file = .eq ∧
        v.location.offset ≤ w.location.offset
  /-- At one place they are in the order of the rules and of what each of
  these reports. -/
  stable : ∀ file ∈ files, ∀ offset,
    result.violations.filter (·.isAt file.path offset)
      = l.rules.flatMap fun rule =>
          ((rule.validate file).filter (·.location.offset == offset)).map
            (l.overrideSeverity rule.identifier)
  /-- Each is what a rule reports, but for its severity if the
  configuration has another. -/
  faithful : ∀ v ∈ result.violations, ∃ file ∈ files, ∃ rule ∈ l.rules,
    ∃ w ∈ rule.validate file,
      v = { w with severity :=
            (l.config.severityOf? rule.identifier).getD w.severity }
  /-- The files are counted. -/
  filesChecked : result.filesChecked = files.length

/-- A result holds a violation of a kind if one of the files has it. -/
theorem LintResult.Gathers.exists_iff {result : LintResult} {l : Linter}
    {files : List SourceFile} (h : result.Gathers l files)
    {p : Violation → Prop} :
    (∃ v ∈ result.violations, p v)
      ↔ ∃ file ∈ files, ∃ v ∈ l.lintFile file, p v := by
  simp only [h.complete.mem_iff, List.mem_flatMap]
  constructor
  · rintro ⟨v, ⟨file, hfile, hv⟩, hp⟩
    exact ⟨file, hfile, v, hv, hp⟩
  · rintro ⟨file, hfile, v, hv, hp⟩
    exact ⟨v, ⟨file, hfile, hv⟩, hp⟩

namespace Linter

variable {l : Linter} {files : List SourceFile} {disk : Disk}
  {paths : List Path}

/-- **The result of files at distinct paths gathers what is reported of
them.** -/
theorem gathers_lintFiles (hl : ∀ rule ∈ l.rules, rule.Locates)
    (hfiles : files.Pairwise fun f g => f.path ≠ g.path) :
    (l.lintFiles files).Gathers l files where
  complete := List.mergeSort_perm _ _
  ordered :=
    (List.pairwise_mergeSort (fun _ _ _ => Std.TransCmp.isLE_trans)
      (isLE_total Violation.compare) _).imp fun h =>
        (Ordering.isLE_then_iff_or.1 h).imp_right fun h =>
          ⟨h.1, Nat.isLE_compare.1 h.2⟩
  stable file hfile offset := by
    rw [← filter_lintFile hl, ← filter_flatMap_lintFile hl hfiles hfile]
    refine filter_mergeSort Violation.compare _ fun v w hv hw => ?_
    obtain ⟨hv, hv'⟩ := of_decide_eq_true hv
    obtain ⟨hw, hw'⟩ := of_decide_eq_true hw
    exact Violation.isLE_compare_of_eq (hv.trans hw.symm)
      (hv'.trans hw'.symm)
  faithful v hv := by
    obtain ⟨file, hfile, hv⟩ :=
      List.mem_flatMap.1 ((List.mergeSort_perm _ _).mem_iff.1 hv)
    obtain ⟨rule, hrule, w, hw, rfl⟩ := mem_lintFile.1 hv
    exact ⟨file, hfile, rule, hrule, w, hw,
      l.overrideSeverity_eq rule.identifier w⟩
  filesChecked := rfl

theorem path_of_read {path : Path} {file : SourceFile}
    (h : (SourceFile.read disk path).toOption = some file) :
    file.path = some path := by
  unfold SourceFile.read at h
  split at h
  · obtain rfl := Option.some.inj h
    rfl
  · exact nomatch h

/-- The files at ascending paths have distinct paths. -/
theorem Ascending.readable (h : Ascending paths) :
    (readable disk paths).Pairwise fun f g => f.path ≠ g.path := by
  refine List.pairwise_filterMap.2 (h.imp fun {p q} hlt f hf g hg heq => ?_)
  obtain rfl : q = p := Option.some.inj <|
    (path_of_read hg).symm.trans (heq.symm.trans (path_of_read hf))
  exact nomatch hlt.symm.trans Std.ReflCmp.compare_self

/-- The files that are linted are those that can be read. -/
theorem readAll_fst (disk : Disk) (paths : List Path) :
    (readAll disk paths).1 = readable disk paths :=
  List.filterMap_map

/-- To lint is to find the files, and to lint those that can be read. -/
theorem lint_eq (l : Linter) (disk : Disk) :
    l.lint disk = (l.discover disk).map fun paths =>
      (l.lintFiles (readable disk paths), (readAll disk paths).2) := by
  unfold lint
  cases l.discover disk with
  | error e => rfl
  | ok paths =>
    change Except.ok
      (l.lintFiles (readAll disk paths).1, (readAll disk paths).2) = _
    rw [readAll_fst]
    rfl

/-- What is linted was found. -/
theorem exists_discover_of_lint {result : LintResult}
    {warnings : List Warning} (h : l.lint disk = .ok (result, warnings)) :
    ∃ paths, l.discover disk = .ok paths ∧
      l.lintFiles (readable disk paths) = result := by
  rw [lint_eq] at h
  cases hfound : l.discover disk with
  | error e =>
    rw [hfound] at h
    exact nomatch h
  | ok paths =>
    rw [hfound] at h
    exact ⟨paths, rfl, congrArg Prod.fst (Except.ok.inj h)⟩

/-- **What is linted of found files gathers what is reported of those that
can be read.** -/
theorem gathers_readable (hl : ∀ rule ∈ l.rules, rule.Locates)
    (h : l.discover disk = .ok paths) :
    (l.lintFiles (readable disk paths)).Gathers l (readable disk paths) :=
  gathers_lintFiles hl (ascending_discover h).readable

end Linter

/-! ## The built-in rules tell where they look

Each of them makes the location of a violation from the file it is given. -/

theorem StatementPosition.locates : rule.Locates := by
  intro file v hv
  obtain ⟨m, -, hv⟩ := List.mem_filterMap.1 hv
  obtain ⟨keyword, -, rfl⟩ := Option.map_eq_some_iff.1 hv
  rfl

theorem CollectionShorthand.locates : rule.Locates := by
  intro file v hv
  obtain ⟨m, -, rfl⟩ := List.mem_map.1 (List.mem_mergeSort.1 hv)
  rfl

theorem EmptyCount.locates : rule.Locates := by
  intro file v hv
  obtain ⟨m, -, rfl⟩ := List.mem_map.1 hv
  rfl

theorem LineLength.locates (limits : List Nat) :
    (withLimits limits).Locates := by
  intro file v hv
  obtain ⟨line, -, hv⟩ := List.mem_filterMap.1 hv
  obtain ⟨limit, -, rfl⟩ := Option.map_eq_some_iff.1 hv
  rfl

/-- A line of more than 200 characters is an error by default. -/
theorem LineLength.exists_error {file : SourceFile} {line : Line}
    (hline : line ∈ file.lines) (hlong : 200 < line.content.length) :
    ∃ v ∈ (withLimits defaultLimits).validate file,
      v.severity = .error := by
  have hexceeded : exceeded? (Parameter.ofValues defaultLimits)
      line.content.length = some ⟨.error, 200⟩ := by
    have hwarning : 100 < line.content.length := by omega
    simp [exceeded?, Parameter.ofValues, Parameter.ofLater, defaultLimits,
      hlong, hwarning, greater]
  obtain ⟨v, hv, hseverity⟩ : ∃ v,
      violation? (Parameter.ofValues defaultLimits) file line = some v ∧
        v.severity = .error := by
    unfold violation?
    dsimp only
    rw [hexceeded]
    exact ⟨_, rfl, rfl⟩
  exact ⟨v, List.mem_filterMap.2 ⟨line, hline, hv⟩, hseverity⟩

/-- **What a configuration takes from the built-in registry tells where it
looks.** -/
theorem BuiltIn.locates_configuredRules {c : Config} {rule : Rule}
    (h : rule ∈ registry.configuredRules c) : rule.Locates := by
  obtain ⟨t, ht, hmakes⟩ := Config.exists_makes_of_mem h
  have htypes : registry.types
      = [⟨StatementPosition.rule, none⟩, ⟨CollectionShorthand.rule, none⟩,
         LineLength.type, ⟨EmptyCount.rule, none⟩] := rfl
  rw [htypes] at ht
  simp only [List.mem_cons, List.not_mem_nil, or_false] at ht
  rcases ht with rfl | rfl | rfl | rfl
  · exact hmakes.eq_default rfl ▸ StatementPosition.locates
  · exact hmakes.eq_default rfl ▸ CollectionShorthand.locates
  · obtain ⟨limits, rfl⟩ := Family.exists_of_makes hmakes
    exact LineLength.locates limits
  · exact hmakes.eq_default rfl ▸ EmptyCount.locates

namespace CommandLine

variable {disk : Disk} {path : Path} {exclude : List String}
  {config : Config}

@[simp] theorem failOn_restrict (names : Option String) :
    (restrict names config).failOn = config.failOn := by
  cases names <;> rfl

/-- A result makes a run fail if one of its violations is serious. -/
theorem fails_linterFor {result : LintResult} :
    (linterFor disk path exclude config).fails result
      ↔ ∃ v ∈ result.violations,
          config.failOn.getD .error ≤ v.severity := by
  unfold Linter.fails LintResult.hasViolationsAt
  rw [List.any_eq_true]
  simp only [decide_eq_true_eq]
  rfl

/-- **How linting ends that no error stops**: with 1 if and only if a
violation is as serious as the configuration asks for, or more. If it does
not ask for a severity, an error is serious. -/
theorem status_lintWith {format : Format}
    (h : (lintWith disk path format exclude config).error = none) :
    ∃ result warnings,
      (linterFor disk path exclude config).lint disk
        = .ok (result, warnings) ∧
      ((lintWith disk path format exclude config).status = 1
        ↔ ∃ v ∈ result.violations,
            config.failOn.getD .error ≤ v.severity) := by
  unfold lintWith at h ⊢
  cases hlint : (linterFor disk path exclude config).lint disk with
  | error e =>
    simp only [hlint] at h
    exact nomatch h
  | ok r =>
    refine ⟨r.1, r.2, rfl, ?_⟩
    simp only [hlint]
    rw [← @fails_linterFor disk path exclude config]
    cases (linterFor disk path exclude config).fails r.1 <;> simp

/-- No error stops linting once the files are found. -/
theorem error_lintWith {format : Format} {paths : List Path}
    (h : (linterFor disk path exclude config).discover disk = .ok paths) :
    (lintWith disk path format exclude config).error = none := by
  unfold lintWith
  simp only [Linter.lint_eq, h]
  rfl

/-- Work that no error stops has read a configuration. -/
theorem exists_load_of_withConfig {env : Environment} {asked : Option Path}
    {work : Config → Outcome}
    (h : (withConfig env disk asked path work).error = none) :
    ∃ config,
      (findConfig disk env.userDirectory (projectDirectory disk path)
        asked).load disk = .ok config ∧
      withConfig env disk asked path work = work config := by
  unfold withConfig at h ⊢
  cases hload : (findConfig disk env.userDirectory
      (projectDirectory disk path) asked).load disk with
  | error e =>
    simp only [hload] at h
    exact nomatch h
  | ok config => exact ⟨config, rfl, by simp only [hload]⟩

/-- A run that is asked to lint does so with a configuration. -/
theorem run_lint {env : Environment} {arguments : List String}
    {asked : Option Path} {format : Format} {names : Option String}
    (h : request? env.config arguments
      = some (.run asked (.lint path format names exclude))) :
    run env disk arguments
      = withConfig env disk asked path fun config =>
          lintWith disk path format exclude (restrict names config) := by
  unfold run
  rw [h]
  rfl

theorem load_of_findConfig_none {userDirectory asked : Option Path}
    (h : findConfig disk userDirectory path asked = .none) :
    (findConfig disk userDirectory path asked).load disk = .ok {} := by
  rw [h]
  rfl

/-- **A run over one file** finds that file, and no error stops it once it
has a configuration. -/
theorem run_lint_file (env : Environment) {arguments : List String}
    {asked : Option Path} {format : Format} {names : Option String}
    (hrequest : request? env.config arguments
      = some (.run asked (.lint path format names exclude)))
    (hload : (findConfig disk env.userDirectory
      (projectDirectory disk path) asked).load disk = .ok config)
    (hfile : disk.hasFile (disk.currentPath.join path.text)) :
    (linterFor disk path exclude (restrict names config)).discover disk
        = .ok [disk.currentPath.join path.text] ∧
      (run env disk arguments).error = none := by
  have hdiscover : (linterFor disk path exclude
      (restrict names config)).discover disk
        = .ok [disk.currentPath.join path.text] :=
    Linter.discover_of_file hfile
  refine ⟨hdiscover, ?_⟩
  rw [run_lint hrequest, withConfig, hload]
  exact error_lintWith hdiscover

end CommandLine

/-! ## A disk to lint

It has a directory with a file that cannot be read, a directory with a
configuration, and a file of one long line. A warning makes no run fail that
has no configuration (`mild_lintedDisk`); an error does (`severe_lintedDisk`),
and so does a warning where the configuration asks for it
(`asked_lintedDisk`). -/

/-- The disk. -/
def lintedDisk : Disk where
  tree := .directory
    [("p", .directory
      [("a.swift", .file (.text "")),
       ("b.swift", .file (.text "\x7d\nelse")),
       ("c.swift", .file (.binary [255]))]),
     ("w", .directory
      [("b.swift", .file (.text "\x7d\nelse")),
       ("stylint.toml", .file (.text "fail_on = \"warning\"\n"))]),
     ("long.swift", .file (.text (String.ofList (List.replicate 201 'x'))))]
  current := []

/-- Three files are found in the first directory. -/
theorem discover_lintedDisk {l : Linter} (hroot : l.root = ⟨"/p"⟩)
    (hextensions : l.config.scope.extensions = ["swift"])
    (hexclude : l.exclude = []) :
    l.discover lintedDisk
      = .ok [⟨"/p/a.swift"⟩, ⟨"/p/b.swift"⟩, ⟨"/p/c.swift"⟩] := by
  refine Linter.discover_of_walk ?_ ?_ ?_ hextensions ⟨by decide, by decide⟩
    ?_ (fun p _ => ?_) (by decide +kernel)
  · rw [hroot]
    decide +kernel
  · rw [hroot]
    decide +kernel
  · rw [hroot]
    decide +kernel
  · rw [hroot]
    decide +kernel
  · unfold Linter.isExcluded
    rw [hexclude]
    rfl

namespace CommandLine

/-- **The lint of a path on this disk, with a configuration, has a violation
of a severity or above.** -/
def Severe (path : Path) (config : Config) (severity : Severity) : Prop :=
  ∃ file ∈ Linter.readable lintedDisk [lintedDisk.currentPath.join path.text],
    ∃ v ∈ (linterFor lintedDisk path [] config).lintFile file,
      severity ≤ v.severity

instance (path : Path) (config : Config) (severity : Severity) :
    Decidable (Severe path config severity) :=
  inferInstanceAs (Decidable (∃ file ∈ _, ∃ v ∈ _, _))

/-- The long line is an error by default. -/
theorem severe_lintedDisk : Severe ⟨"/long.swift"⟩ {} .error := by
  have htext : ∀ text path,
      ((SourceFile.ofContents (String.ofList text)).withPath path).text
        = text := fun _ _ => String.toList_ofList
  obtain ⟨file, hfile, htext⟩ : ∃ file,
      Linter.readable lintedDisk [⟨"/long.swift"⟩] = [file] ∧
        file.text = List.replicate 201 'x' :=
    ⟨_, rfl, htext _ _⟩
  have hline : (⟨1, 0, List.replicate 201 'x'⟩ : Line) ∈ file.lines := by
    unfold SourceFile.lines
    rw [file.starts_eq, htext]
    decide +kernel
  obtain ⟨v, hv, hseverity⟩ :=
    LineLength.exists_error hline (by rw [List.length_replicate]; decide)
  refine ⟨file, ?_, v, Linter.mem_lintFile.2
    ⟨LineLength.withLimits LineLength.defaultLimits,
     List.mem_cons_of_mem _ (List.mem_cons_of_mem _ List.mem_cons_self),
     v, hv, rfl⟩, ?_⟩
  · exact hfile ▸ List.mem_cons_self
  · rw [hseverity]
    decide

/-- A keyword on a line of its own is a warning. -/
theorem mild_lintedDisk :
    ¬ Severe ⟨"/p/b.swift"⟩ {} .error := by
  decide +kernel

/-- The configuration in the second directory asks for warnings, and there
is one. -/
theorem asked_lintedDisk :
    ∃ config, (findConfig lintedDisk none
      (projectDirectory lintedDisk ⟨"/w/b.swift"⟩) none).load lintedDisk
        = .ok config ∧ config.failOn = some .warning ∧
      Severe ⟨"/w/b.swift"⟩ config .warning := by
  have hasked : ((findConfig lintedDisk none
      (projectDirectory lintedDisk ⟨"/w/b.swift"⟩) none).load
        lintedDisk).toOption.any fun config =>
          decide (config.failOn = some .warning ∧
            Severe ⟨"/w/b.swift"⟩ config .warning) := by
    decide +kernel
  cases hload : (findConfig lintedDisk none
      (projectDirectory lintedDisk ⟨"/w/b.swift"⟩) none).load lintedDisk with
  | error cause =>
    rw [hload] at hasked
    exact nomatch hasked
  | ok config =>
    rw [hload] at hasked
    exact ⟨config, rfl, of_decide_eq_true hasked⟩

end CommandLine

/-! ## Linting

The first half of the statement is about any linter of rules that tell where
they look, and the second about the linter of a run. -/

/-- **To lint is to gather what is reported of the files that can be
read**, for rules that tell where they look. The built-in rules do, and a
run of the command line that lints and that no error stops ends with 1 if
and only if one of the violations is as serious as the configuration asks
for, or more. -/
theorem lint_gathers :
    (∀ (l : Linter) (disk : Disk) (paths : List Path),
      (∀ rule ∈ l.rules, rule.Locates) → l.discover disk = .ok paths →
      ∃ result warnings, l.lint disk = .ok (result, warnings) ∧
        result.Gathers l (Linter.readable disk paths)) ∧
    ∀ (env : CommandLine.Environment) (disk : Disk)
      (arguments : List String) (asked : Option Path) (path : Path)
      (format : CommandLine.Format) (names : Option String)
      (exclude : List String),
      CommandLine.request? env.config arguments
        = some (.run asked (.lint path format names exclude)) →
      (CommandLine.run env disk arguments).error = none →
      ∃ config paths result warnings,
        (CommandLine.findConfig disk env.userDirectory
          (CommandLine.projectDirectory disk path) asked).load disk
            = .ok config ∧
        let l := CommandLine.linterFor disk path exclude
          (CommandLine.restrict names config)
        l.discover disk = .ok paths ∧
        l.lint disk = .ok (result, warnings) ∧
        result.Gathers l (Linter.readable disk paths) ∧
        ((CommandLine.run env disk arguments).status = 1
          ↔ ∃ v ∈ result.violations,
              config.failOn.getD .error ≤ v.severity) := by
  constructor
  · intro l disk paths hl h
    refine ⟨_, (Linter.readAll disk paths).2, ?_,
      Linter.gathers_readable hl h⟩
    rw [Linter.lint_eq, h]
    rfl
  · intro env disk arguments asked path format names exclude hrequest herror
    rw [CommandLine.run_lint hrequest] at herror ⊢
    obtain ⟨config, hload, hwork⟩ :=
      CommandLine.exists_load_of_withConfig herror
    rw [hwork] at herror ⊢
    obtain ⟨result, warnings, hlint, hstatus⟩ :=
      CommandLine.status_lintWith herror
    obtain ⟨paths, hpaths, rfl⟩ := Linter.exists_discover_of_lint hlint
    refine ⟨config, paths, _, warnings, hload, hpaths, hlint,
      Linter.gathers_readable ?_ hpaths, ?_⟩
    · exact fun rule hrule => BuiltIn.locates_configuredRules hrule
    · rw [hstatus, CommandLine.failOn_restrict]

/-- A file that cannot be read among others, and two rules that report the
same place, one of them with another severity; a run that an error makes
fail, one that a warning does not, and one whose configuration has warnings
make it fail. -/
theorem lint_gathers_unreadable :
    let l : Linter :=
      ⟨⟨"/p"⟩, [StatementPosition.rule, LineLength.withLimits [3]], [],
       { severities := [("statement_position", .error)] }⟩
    let lint := fun path => CommandLine.run {} lintedDisk ["lint", path]
    (∃ result warnings, l.lint lintedDisk = .ok (result, warnings) ∧
      result.filesChecked = 2 ∧
      (result.violations.filter (·.isAt (some ⟨"/p/b.swift"⟩) 2)).map
          (fun v => (v.rule.identifier, v.severity))
        = [("statement_position", .error), ("line_length", .warning)]) ∧
    ((lint "/long.swift").error = none ∧ (lint "/long.swift").status = 1) ∧
    ((lint "/p/b.swift").error = none ∧ (lint "/p/b.swift").status ≠ 1) ∧
    (lint "/w/b.swift").error = none ∧ (lint "/w/b.swift").status = 1 := by
  intro l lint
  obtain ⟨hgathers, hrun⟩ := lint_gathers
  -- a run over one file, by what its configuration asks for
  have hlint : ∀ text config,
      CommandLine.request? none ["lint", text]
        = some (.run none (.lint ⟨text⟩ .text none [])) →
      (CommandLine.findConfig lintedDisk none
        (CommandLine.projectDirectory lintedDisk ⟨text⟩) none).load lintedDisk
          = .ok config →
      lintedDisk.hasFile (lintedDisk.currentPath.join text) →
      (lint text).error = none ∧
        ((lint text).status = 1 ↔ CommandLine.Severe ⟨text⟩ config
          (config.failOn.getD .error)) := by
    intro text config hrequest hload hfile
    obtain ⟨hdiscover, herror⟩ :=
      CommandLine.run_lint_file {} hrequest hload hfile
    obtain ⟨config', paths, result, warnings, hload', hpaths, -, h, hs⟩ :=
      hrun {} lintedDisk _ _ _ _ _ _ hrequest herror
    obtain rfl := Except.ok.inj (hload.symm.trans hload')
    obtain rfl := Except.ok.inj (hdiscover.symm.trans hpaths)
    exact ⟨herror, hs.trans h.exists_iff⟩
  refine ⟨?_, ?_, ?_, ?_⟩
  · have hl : ∀ rule ∈ l.rules, rule.Locates :=
      List.forall_mem_cons.2 ⟨StatementPosition.locates,
        List.forall_mem_singleton.2 (LineLength.locates [3])⟩
    obtain ⟨result, warnings, hlint, h⟩ :=
      hgathers l lintedDisk _ hl (discover_lintedDisk rfl rfl rfl)
    have hstable :=
      h.stable _ (List.mem_cons_of_mem _ List.mem_cons_self) 2
    exact ⟨result, warnings, hlint,
      h.filesChecked.trans (by decide +kernel),
      (congrArg _ hstable).trans (by decide +kernel)⟩
  · obtain ⟨herror, hstatus⟩ := hlint "/long.swift" {} (by decide +kernel)
      (CommandLine.load_of_findConfig_none (by decide +kernel))
      (by decide +kernel)
    exact ⟨herror, hstatus.2 CommandLine.severe_lintedDisk⟩
  · obtain ⟨herror, hstatus⟩ := hlint "/p/b.swift" {} (by decide +kernel)
      (CommandLine.load_of_findConfig_none (by decide +kernel))
      (by decide +kernel)
    exact ⟨herror, mt hstatus.1 CommandLine.mild_lintedDisk⟩
  · obtain ⟨config, hload, hasked, hsevere⟩ := CommandLine.asked_lintedDisk
    obtain ⟨herror, hstatus⟩ := hlint "/w/b.swift" config (by decide +kernel)
      hload (by decide +kernel)
    rw [hasked] at hstatus
    exact ⟨herror, hstatus.2 hsevere⟩

end SwiftStyle
