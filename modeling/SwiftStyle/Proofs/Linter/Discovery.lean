import SwiftStyle.Linter
import SwiftStyle.Proofs.Glob.Walk
import SwiftStyle.Proofs.Path.Order

/-!
# The files that a linter finds

Whatever the patterns find, the files come in ascending order and each of
them once: the paths are sorted, and of those that are next to each other
and have the same components one is kept (`ascending_discover`). Paths in
that order are left as they are (`sortPaths_of_ascending`), so that the
files that a walk finds in order are the files that the linter finds
(`discover_of_walk`).

The order is one of components, not of spellings: two paths that differ in
their slashes only are the same for it, and of those the first is kept. That
`Ascending` is strict on components is what makes the paths of different files
different, and what the reports of a run are put in order by.
-/

namespace SwiftStyle.Linter

/-- **Paths in ascending order**, with no two alike. -/
def Ascending (paths : List Path) : Prop :=
  paths.Pairwise fun p q => p.compare q = .lt

instance (paths : List Path) : Decidable (Ascending paths) :=
  inferInstanceAs (Decidable (paths.Pairwise _))

/-- A path in front of paths that are kept; it takes the place of the
first if that is the same. -/
def keep (p : Path) : List Path → List Path
  | [] => [p]
  | q :: rest => if p.same q then p :: rest else p :: q :: rest

theorem sortPaths_eq (paths : List Path) :
    sortPaths paths = (paths.mergeSort Path.le).foldr keep [] := by
  unfold sortPaths
  congr

theorem mem_keep {p r : Path} {kept : List Path} (h : r ∈ keep p kept) :
    r = p ∨ r ∈ kept := by
  cases kept with
  | nil => simpa [keep] using h
  | cons q rest =>
    rw [keep] at h
    split at h
    · exact (List.mem_cons.1 h).imp_right (List.mem_cons_of_mem q)
    · exact List.mem_cons.1 h

/-- **One more path in front keeps the order**, if it is not behind any
other. -/
theorem Ascending.keep {p : Path} {kept : List Path} (h : Ascending kept)
    (hle : ∀ q ∈ kept, p.le q) : Ascending (keep p kept) := by
  cases kept with
  | nil => exact List.pairwise_singleton _ p
  | cons q rest =>
    obtain ⟨hq, hrest⟩ := List.pairwise_cons.1 h
    rw [Linter.keep]
    split
    next hsame =>
      -- what is behind the one is behind the other
      refine List.pairwise_cons.2 ⟨fun r hr => ?_, hrest⟩
      have heq : p.compare q = .eq := by simpa [Path.same] using hsame
      exact Std.TransCmp.lt_of_eq_of_lt heq (hq r hr)
    next hsame =>
      have hlt : p.compare q = .lt :=
        Path.lt_of_le (hle q List.mem_cons_self) hsame
      refine List.pairwise_cons.2
        ⟨List.forall_mem_cons.2 ⟨hlt, fun r hr => ?_⟩, h⟩
      exact Std.TransCmp.lt_trans hlt (hq r hr)

/-- **Sorted paths are in ascending order.** -/
theorem ascending_sortPaths (paths : List Path) :
    Ascending (sortPaths paths) := by
  have hsorted : (paths.mergeSort Path.le).Pairwise fun p q => p.le q :=
    List.pairwise_mergeSort (fun _ _ _ => Std.TransCmp.isLE_trans)
      (isLE_total Path.compare) paths
  rw [sortPaths_eq]
  generalize paths.mergeSort Path.le = sorted at hsorted
  suffices h : Ascending (sorted.foldr keep []) ∧
      ∀ q ∈ sorted.foldr keep [], q ∈ sorted from h.1
  induction hsorted with
  | nil => exact ⟨List.Pairwise.nil, fun q hq => hq⟩
  | @cons p sorted hp _ ih =>
    rw [List.foldr_cons]
    refine ⟨ih.1.keep fun q hq => hp q (ih.2 q hq), fun q hq => ?_⟩
    exact List.mem_cons.2 ((mem_keep hq).imp_right (ih.2 q))

/-- Paths in ascending order stay as they are. -/
theorem sortPaths_of_ascending {paths : List Path} (h : Ascending paths) :
    sortPaths paths = paths := by
  have hsorted : paths.Pairwise fun p q => p.le q := h.imp fun hlt => by
    unfold Path.le
    rw [hlt]
    rfl
  rw [sortPaths_eq, List.mergeSort_of_pairwise hsorted]
  clear hsorted
  induction h with
  | nil => rfl
  | @cons p paths hp _ ih =>
    rw [List.foldr_cons, ih]
    cases paths with
    | nil => rfl
    | cons q paths =>
      have hsame : ¬ p.same q := by
        simp [Path.same, hp q List.mem_cons_self]
      rw [keep, if_neg hsame]

/-- **A linter finds files in ascending order.** -/
theorem ascending_discover {l : Linter} {disk : Disk} {paths : List Path}
    (h : l.discover disk = .ok paths) : Ascending paths := by
  unfold discover at h
  split at h
  · obtain rfl := Except.ok.inj h
    exact List.pairwise_singleton _ _
  · cases hfound : l.config.scope.extensions.mapM (l.filesWith disk) with
    | error e => rw [hfound] at h; exact nomatch h
    | ok found =>
      rw [hfound] at h
      obtain rfl := Except.ok.inj h
      exact ascending_sortPaths _

theorem discover_of_file {l : Linter} {disk : Disk}
    (h : disk.hasFile l.root) : l.discover disk = .ok [l.root] :=
  if_pos h

/-- **A linter of the files with one extension** below a directory finds what
a walk from there leads to, if that is in order and nothing of it is passed
over. -/
theorem discover_of_walk {l : Linter} {disk : Disk} {extension : String}
    {paths : List Path} (hroot : l.root.isAbsolute)
    (hplain : Glob.IsPlain l.root.text.toList)
    (hdirectory : (disk.node? l.root).any Node.isDirectory)
    (hextensions : l.config.scope.extensions = [extension])
    (hextension : Glob.IsPlainName extension)
    (hwalk : Glob.walk disk
      [.tree, .wild (Glob.endsWith extension.toList)] l.root.squeeze = paths)
    (hexcluded : ∀ p ∈ paths, !l.isExcluded p) (h : Ascending paths) :
    l.discover disk = .ok paths := by
  obtain ⟨node, hnode, hdirectory⟩ := (Option.any_eq_true _ _).1 hdirectory
  have hfound : l.filesWith disk extension = .ok paths := by
    unfold filesWith patternOf
    rw [Glob.paths?_extension hroot hnode hplain hextension, hwalk]
    exact congrArg Except.ok (List.filter_eq_self.2 hexcluded)
  have hsorted : sortPaths [paths].flatten = paths :=
    (congrArg sortPaths (List.append_nil _)).trans
      (sortPaths_of_ascending h)
  have hfile : disk.hasFile l.root = false := by
    unfold Disk.hasFile
    rw [hnode, Option.any_some, hdirectory]
    rfl
  unfold discover
  rw [hfile, hextensions]
  simp only [List.mapM_cons, List.mapM_nil, hfound]
  exact congrArg Except.ok hsorted

end SwiftStyle.Linter
