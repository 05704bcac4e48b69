import SwiftStyle.Proofs.Glob.Walk
import SwiftStyle.Proofs.Linter.Discovery

/-!
# Which files a linter finds

The **sources** of a linter are the entries at any depth below its root whose
names end with a dot and one of its extensions (`Linter.IsSource`). If the
characters of the root stand for themselves in a pattern, the linter finds
the sources that are not passed over, each once and in order
(`discover_eq_sources`). A root with a character that means something else
is read as a pattern for other directories, and no source below it is found
(`discover_bracket`).

A file is collected once for each extension that its name ends with, and the
sort leaves one of the equal paths. No source is lost in that, because paths
with the same components below one root lead to the same place
(`IsSource.eq_of_same`): this is where the names on a disk have to be names,
with no slash in them and none of them a dot or two dots.
-/

namespace SwiftStyle.Linter

variable {l : Linter} {disk : Disk} {p : Path} {place : Place}
  {paths : List Path} {extension : String}

/-- **An entry to find**, by its place below the root. -/
structure IsSource (l : Linter) (disk : Disk) (place : Place) : Prop where
  /-- Something stands there. -/
  found : disk.hasBelow l.root place
  /-- Its name ends with a dot and an extension. -/
  named : ∃ name ∈ place.getLast?, ∃ extension ∈ l.config.scope.extensions,
    '.' :: extension.toList <:+ name.toList

/-! ## Sorting

Of equal neighbours one is kept. If no two paths are the same but equal ones,
nothing is lost by that. -/

theorem mem_keep_iff {r : Path} (h : ∀ q ∈ paths, p.same q → p = q) :
    r ∈ keep p paths ↔ r = p ∨ r ∈ paths := by
  cases paths with
  | nil => simp [keep]
  | cons q rest =>
    rw [keep]
    split
    next hsame =>
      obtain rfl := h q List.mem_cons_self hsame
      simp
    next => exact List.mem_cons

/-- Paths of which no two are the same are all kept. -/
theorem mem_foldr_keep (h : ∀ p ∈ paths, ∀ q ∈ paths, p.same q → p = q) :
    p ∈ paths.foldr keep [] ↔ p ∈ paths := by
  induction paths generalizing p with
  | nil => rfl
  | cons first paths ih =>
    have ih := fun {p} => ih (p := p) fun p hp q hq =>
      h p (List.mem_cons_of_mem _ hp) q (List.mem_cons_of_mem _ hq)
    rw [List.foldr_cons, mem_keep_iff, ih, List.mem_cons]
    exact fun q hq => h first List.mem_cons_self q
      (List.mem_cons_of_mem _ (ih.1 hq))

/-- **Nothing is lost by sorting** paths of which no two are the same. -/
theorem mem_sortPaths (h : ∀ p ∈ paths, ∀ q ∈ paths, p.same q → p = q) :
    p ∈ sortPaths paths ↔ p ∈ paths := by
  rw [sortPaths_eq, mem_foldr_keep, List.mem_mergeSort]
  simpa only [List.mem_mergeSort] using h

/-! ## Collecting

The paths for all extensions are collected before they are sorted, and one
that cannot be had would stop the rest. -/

theorem mem_filesWith (htree : disk.tree.Proper) (hroot : l.root.isAbsolute)
    (hdir : disk.hasDirectory l.root) (hplain : Glob.IsPlain l.root.text.toList)
    (hextension : Glob.IsPlainName extension) :
    ∃ paths, l.filesWith disk extension = .ok paths ∧
      ∀ p, p ∈ paths ↔ (∃ above name, disk.hasBelow l.root (above ++ [name]) ∧
        '.' :: extension.toList <:+ name.toList ∧
        p = l.root.squeeze.below (above ++ [name])) ∧ ¬ l.isExcluded p := by
  obtain ⟨paths, hpaths, hmem⟩ :=
    Glob.mem_paths?_extension htree hroot hdir hplain hextension
  refine ⟨paths.filter fun p => !l.isExcluded p, ?_, fun p => ?_⟩
  · unfold filesWith patternOf
    rw [hpaths]
  · rw [List.mem_filter, hmem]
    simp

/-- What is collected one by one. -/
theorem mem_flatten_mapM {α β ε : Type} {f : α → Except ε (List β)}
    {P : α → β → Prop} {all : List α}
    (h : ∀ a ∈ all, ∃ found, f a = .ok found ∧ ∀ b, b ∈ found ↔ P a b) :
    ∃ found, all.mapM f = .ok found ∧
      ∀ b, b ∈ found.flatten ↔ ∃ a ∈ all, P a b := by
  induction all with
  | nil => exact ⟨[], rfl, by simp⟩
  | cons a all ih =>
    obtain ⟨ha, h⟩ := List.forall_mem_cons.1 h
    obtain ⟨first, hfirst, hmem⟩ := ha
    obtain ⟨others, hothers, hrest⟩ := ih h
    refine ⟨first :: others, ?_, fun b => ?_⟩
    · rw [List.mapM_cons, hfirst, hothers]
      rfl
    · rw [List.flatten_cons, List.mem_append, hmem, hrest,
        List.exists_mem_cons_iff]

/-- The names on the way to an entry below a path are names. -/
theorem isName_of_hasBelow (htree : disk.tree.Proper)
    (h : disk.hasBelow p place) : ∀ name ∈ place, IsName name := by
  obtain ⟨node, hnode⟩ := Option.isSome_iff_exists.1 h
  obtain ⟨base, hbase, hnode⟩ := Option.bind_eq_some_iff.1 hnode
  obtain ⟨_, -, -, hfind⟩ := Disk.node?_eq_some.1 hbase
  exact ((htree.of_find? hfind).2.of_find? hnode).1

/-- **What is collected for all extensions** are the paths of the sources. -/
theorem mem_collected (htree : disk.tree.Proper) (hroot : l.root.isAbsolute)
    (hdir : disk.hasDirectory l.root) (hplain : Glob.IsPlain l.root.text.toList)
    (hextensions : ∀ extension ∈ l.config.scope.extensions,
      Glob.IsPlainName extension) :
    ∃ found, l.config.scope.extensions.mapM (l.filesWith disk) = .ok found ∧
      ∀ p, p ∈ found.flatten ↔ ∃ place, l.IsSource disk place ∧
        p = l.root.squeeze.below place ∧ ¬ l.isExcluded p := by
  obtain ⟨found, hfound, hmem⟩ := mem_flatten_mapM fun extension hextension =>
    mem_filesWith htree hroot hdir hplain (hextensions extension hextension)
  refine ⟨found, hfound, fun p => (hmem p).trans ⟨?_, ?_⟩⟩
  · rintro ⟨extension, hextension, ⟨above, name, hbelow, hname, hp⟩, hkept⟩
    exact ⟨above ++ [name], ⟨hbelow, name, List.getLast?_concat,
      extension, hextension, hname⟩, hp, hkept⟩
  · rintro ⟨place, ⟨hbelow, name, hlast, extension, hextension, hname⟩,
      hp, hkept⟩
    obtain ⟨above, rfl⟩ := List.getLast?_eq_some_iff.1 hlast
    exact ⟨extension, hextension, ⟨above, name, hbelow, hname, hp⟩, hkept⟩

/-- Sources with the same path are the same. -/
theorem IsSource.eq_of_same {other : Place} (htree : disk.tree.Proper)
    (h : l.IsSource disk place) (hother : l.IsSource disk other)
    (hsame : (l.root.squeeze.below place).same (l.root.squeeze.below other)) :
    place = other := by
  have habsolute : l.root.squeeze.isAbsolute :=
    Path.isAbsolute_below rfl fun _ => Path.not_mem_of_mem_map_segments
  exact Path.eq_of_same_below habsolute (isName_of_hasBelow htree h.found)
    (isName_of_hasBelow htree hother.found) hsame

/-- **A linter finds the sources below its root** that are not passed over,
each once and in ascending order. -/
theorem discover_eq_sources (htree : disk.tree.Proper)
    (hroot : l.root.isAbsolute) (hdir : disk.hasDirectory l.root)
    (hplain : Glob.IsPlain l.root.text.toList)
    (hextensions : ∀ extension ∈ l.config.scope.extensions,
      Glob.IsPlainName extension) :
    ∃ paths, l.discover disk = .ok paths ∧ Ascending paths ∧
      ∀ p, p ∈ paths ↔ ∃ place, l.IsSource disk place ∧
        p = l.root.squeeze.below place ∧ ¬ l.isExcluded p := by
  obtain ⟨found, hfound, hmem⟩ :=
    mem_collected htree hroot hdir hplain hextensions
  have hfile : disk.hasFile l.root = false := by
    obtain ⟨node, hnode, hdir⟩ := (Option.any_eq_true _ _).1 hdir
    unfold Disk.hasFile
    rw [hnode]
    simpa using hdir
  have hdiscover : l.discover disk = .ok (sortPaths found.flatten) := by
    unfold discover
    rw [hfile, hfound]
    rfl
  refine ⟨_, hdiscover, ascending_sortPaths _, fun p => ?_⟩
  rw [mem_sortPaths, hmem]
  intro p hp q hq hsame
  obtain ⟨place, hplace, rfl, -⟩ := (hmem p).1 hp
  obtain ⟨other, hother, rfl, -⟩ := (hmem q).1 hq
  rw [hplace.eq_of_same htree hother hsame]

/-- Two files and a directory with an extension that is given twice, one of
the files in a directory that is passed over. -/
theorem discover_eq_sources_twice :
    let disk : Disk :=
      { tree := .directory [("p", .directory
          [("b.swift", .file (.text "")),
           ("a", .directory [("c.swift", .directory [])]),
           ("Pods", .directory [("d.swift", .file (.text ""))])])]
        current := [] }
    let l : Linter := ⟨⟨"/p//"⟩, [], ["**/Pods/**"],
      { scope := { extensions := ["swift", "swift"] } }⟩
    ∃ paths, l.discover disk = .ok paths ∧ Ascending paths ∧
      ⟨"/p/b.swift"⟩ ∈ paths ∧ ⟨"/p/a/c.swift"⟩ ∈ paths ∧
      ⟨"/p/Pods/d.swift"⟩ ∉ paths := by
  intro disk l
  have htree : disk.tree.Proper := by decide +kernel
  have hplain : Glob.IsPlain l.root.text.toList := by decide
  have hextensions : ∀ extension ∈ l.config.scope.extensions,
      Glob.IsPlainName extension := by
    intro extension hextension
    obtain rfl : extension = "swift" := by
      simpa [l] using hextension
    exact ⟨by decide, by decide⟩
  obtain ⟨paths, hpaths, hascending, hmem⟩ :=
    discover_eq_sources (l := l) htree (by decide) (by decide +kernel) hplain
      hextensions
  have hb : l.IsSource disk ["b.swift"] :=
    ⟨by decide +kernel, "b.swift", rfl, "swift", by decide, by decide⟩
  have hc : l.IsSource disk ["a", "c.swift"] :=
    ⟨by decide +kernel, "c.swift", rfl, "swift", by decide, by decide⟩
  refine ⟨paths, hpaths, hascending,
    (hmem _).2 ⟨_, hb, by decide, by decide +kernel⟩,
    (hmem _).2 ⟨_, hc, by decide, by decide +kernel⟩, fun hd => ?_⟩
  obtain ⟨place, -, -, hkept⟩ := (hmem _).1 hd
  exact hkept (by decide +kernel)

/-- A root with a bracket in its name is read as a pattern, and a file that
stands below it is missed. -/
theorem discover_bracket :
    let disk : Disk :=
      { tree := .directory [("a[b]", .directory
          [("x.swift", .file (.text ""))])]
        current := [] }
    let l : Linter := ⟨⟨"/a[b]"⟩, [], [], default⟩
    disk.tree.Proper ∧ l.root.isAbsolute ∧ disk.hasDirectory l.root ∧
    l.IsSource disk ["x.swift"] ∧
    ¬ l.isExcluded (l.root.squeeze.below ["x.swift"]) ∧
    l.discover disk = .ok [] := by
  refine ⟨by decide +kernel, by decide, by decide +kernel,
    ⟨by decide +kernel, "x.swift", rfl, "swift", by decide, by decide⟩,
    by decide, ?_⟩
  decide +kernel

end SwiftStyle.Linter
