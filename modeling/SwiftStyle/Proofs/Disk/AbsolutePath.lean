import Mathlib.Data.List.Infix
import SwiftStyle.Proofs.Disk.Following
import SwiftStyle.Text.Utf8

/-!
# The paths of places

The absolute path of a place is its names with a slash before each, and the
path of the root is a slash. It leads to the place (`Disk.locate_pathOf`), a
name more in the place is a name more in the path (`Disk.pathOf_concat`), and
the paths above it are the paths of the places above (`Disk.ancestors_pathOf`).

The lemmas go from the text of such a path to what it does. As characters it
is a slash and the names with slashes between them (`Disk.toList_pathOf`), so
its segments are an empty one and the names, and to follow them is to make a
step for each name from the root. This needs a proper tree, in which a name
cannot be mistaken for an idle segment or a step upwards.

The search for configurations asks for names in one directory after the other.
So there are also lemmas on the size of a path with a name behind it: it grows
with the place (`Disk.size_pathOf_le`), and if the lowest directory has room
for a name, each one above has.
-/

namespace SwiftStyle.Disk

variable {d : Disk} {place : Place} {name : String}

theorem toList_pathOf (place : Place) :
    (pathOf place).text.toList
      = '/' :: Path.joinSegments (place.map String.toList) := by
  unfold pathOf
  rw [String.toList_append, String.toList_intercalate,
    Path.joinSegments_eq_intercalate]
  rfl

/-- **The path of a place below the root** is its names, each behind a
slash. -/
theorem toList_pathOf_eq_flatMap (hplace : place ≠ []) :
    (pathOf place).text.toList
      = place.flatMap fun name => '/' :: name.toList := by
  rw [toList_pathOf, Path.slash_joinSegments (by simpa using hplace),
    List.flatMap_map]

/-- The path of a place with short enough a spelling is a path. -/
theorem checkPath_pathOf (hplace : ∀ name ∈ place, IsName name)
    (hsize : (pathOf place).text.utf8ByteSize ≤ maxPathBytes) :
    checkPath (pathOf place) = .ok () := by
  refine checkPath_eq_ok.2 ⟨?_, hsize, ?_⟩
  · by_cases hnil : place = []
    · subst hnil
      decide
    · rw [toList_pathOf_eq_flatMap hnil, List.mem_flatMap]
      rintro ⟨name, hname, hnul⟩
      rcases List.mem_cons.1 hnul with hslash | hnul
      · exact absurd hslash (by decide)
      · exact (hplace name hname).not_nul hnul
  · intro hempty
    have := toList_pathOf place
    rw [hempty] at this
    exact nomatch this

theorem size_le_join {p : Path} (hname : IsName name) :
    p.text.utf8ByteSize ≤ (p.join name).text.utf8ByteSize := by
  rw [← Text.size_toList, ← Text.size_toList,
    Path.toList_join hname.not_isAbsolute]
  split <;> simp only [Text.size_append] <;> omega

/-- The path of a name in a directory is not longer than that of the same
name further down. -/
theorem size_pathOf_le {above : Place} (h : above <+: place) (name : String) :
    (pathOf (above ++ [name])).text.utf8ByteSize
      ≤ (pathOf (place ++ [name])).text.utf8ByteSize := by
  obtain ⟨rest, rfl⟩ := h
  rw [← Text.size_toList, ← Text.size_toList,
    toList_pathOf_eq_flatMap (by simp), toList_pathOf_eq_flatMap (by simp)]
  simp only [List.flatMap_append, Text.size_append]
  omega

theorem isAbsolute_pathOf (place : Place) : (pathOf place).isAbsolute := by
  rw [Path.isAbsolute, toList_pathOf]
  rfl

theorem exists_pathOf_concat (place : Place) (name : String) :
    ∃ front, (pathOf (place ++ [name])).text.toList
      = front ++ '/' :: name.toList := by
  rw [toList_pathOf, List.map_append, List.map_singleton]
  by_cases hplace : place = []
  · subst hplace
    exact ⟨[], rfl⟩
  · rw [Path.joinSegments_concat (by simpa using hplace)]
    exact ⟨_ :: _, rfl⟩

/-- **A name more in a place is a name more in its path.** -/
theorem pathOf_concat (hplace : ∀ name ∈ place, IsName name)
    (hname : IsName name) :
    pathOf (place ++ [name]) = (pathOf place).join name := by
  refine Path.eq_of_toList_eq ?_
  rw [Path.toList_join hname.not_isAbsolute, toList_pathOf, List.map_append,
    List.map_singleton]
  rcases List.eq_nil_or_concat place with rfl | ⟨above, last, rfl⟩
  · rfl
  rw [List.concat_eq_append] at hplace ⊢
  have hlast : IsName last := hplace last (by simp)
  rw [Path.joinSegments_concat (by simp), ← List.cons_append, ← toList_pathOf,
    if_neg]
  obtain ⟨front, hfront⟩ := exists_pathOf_concat above last
  obtain ⟨c, hc⟩ := Option.ne_none_iff_exists'.1
    (mt List.getLast?_eq_none_iff.1 hlast.ne_nil)
  have hslash : c ≠ '/' :=
    fun h => hlast.not_slash (h ▸ List.mem_of_getLast? hc)
  rw [hfront, List.getLast?_append_cons, List.getLast?_cons, hc]
  simpa using hslash

/-- **The path of a place leads to it**, if something stands there. -/
theorem locate_pathOf (htree : d.tree.Proper) (hroot : d.tree.hasDirectory [])
    (h : (d.tree.find? place).isSome) :
    d.locate (pathOf place) = .ok place := by
  induction place using List.reverseRecOn with
  | nil => exact locate_slash hroot
  | append_singleton place name ih =>
    obtain ⟨hplace, hname⟩ :=
      List.forall_mem_append.1 (htree.isName_of_isSome h)
    have hname : IsName name := hname name (List.mem_singleton_self name)
    rw [pathOf_concat hplace hname]
    exact (locate_join_name_eq_ok (ih (Node.isSome_find?_of_append h))
      hname).2 ⟨rfl, h⟩

/-- What a disk has at the path of a place in a directory is what it has
there. -/
theorem hasFile_join {p : Path} (hp : d.locate p = .ok place)
    (hname : IsName name) (hcheck : checkPath (p.join name) = .ok ()) :
    d.hasFile (p.join name) = d.tree.hasFile (place ++ [name]) := by
  unfold hasFile Node.hasFile
  rw [node?_join hp hname hcheck]

theorem parent?_pathOf_nil : (pathOf []).parent? = none := by
  decide

theorem parent?_pathOf_concat (hplace : ∀ name ∈ place, IsName name)
    (hname : IsName name) :
    (pathOf (place ++ [name])).parent? = some (pathOf place) := by
  have hslash : ∀ s ∈ place.map String.toList ++ [name.toList], '/' ∉ s := by
    intro s hs
    rcases List.mem_append.1 hs with hs | hs
    · obtain ⟨name, hmem, rfl⟩ := List.mem_map.1 hs
      exact (hplace name hmem).not_slash
    · exact List.mem_singleton.1 hs ▸ hname.not_slash
  have hsegments : Path.segments (pathOf (place ++ [name])).text.toList
      = [] :: (place.map String.toList ++ [name.toList]) := by
    rw [toList_pathOf, List.map_append]
    exact congrArg ([] :: ·) (Path.segments_joinSegments hslash (by simp))
  have hidle : Path.dropIdle (place.map String.toList)
      = place.map String.toList := by
    rw [Path.dropIdle_eq_rdropWhile, List.rdropWhile_eq_self_iff]
    intro hne hidle
    obtain ⟨last, hmem, hlast⟩ := List.mem_map.1 (List.getLast_mem hne)
    exact (hplace last hmem).not_idle (hlast ▸ hidle)
  rw [Path.parent?_absolute hsegments hname.not_idle, hidle, ← toList_pathOf,
    String.ofList_toList]

/-- **The paths above the path of a place** are those of the places above. -/
theorem ancestors_pathOf (hplace : ∀ name ∈ place, IsName name) :
    (pathOf place).ancestors = place.inits.reverse.map pathOf := by
  have hlength : place.length ≤ (pathOf place).text.length := by
    have := Path.length_le_joinSegments (place.map String.toList)
    rw [← String.length_toList, toList_pathOf, List.length_cons]
    rwa [List.length_map] at this
  unfold Path.ancestors
  generalize (pathOf place).text.length = n at hlength
  induction place using List.reverseRecOn generalizing n with
  | nil => rw [Path.ancestorsUpTo, parent?_pathOf_nil]; rfl
  | append_singleton place name ih =>
    obtain ⟨hplace, hname⟩ := List.forall_mem_append.1 hplace
    have hname : IsName name := hname name (List.mem_singleton_self name)
    rw [List.length_append, List.length_singleton] at hlength
    obtain ⟨m, rfl⟩ : ∃ m, n = m + 1 := ⟨n - 1, by omega⟩
    rw [Path.ancestorsUpTo, parent?_pathOf_concat hplace hname]
    dsimp only
    rw [ih hplace m (by omega)]
    simp

end SwiftStyle.Disk
