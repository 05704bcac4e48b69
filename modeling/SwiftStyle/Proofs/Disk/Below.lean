import SwiftStyle.Glob.Walk
import SwiftStyle.Proofs.Path.Below

/-!
# What stands below a path

The entries at any depth below a node of a proper tree are what is found at
the places below it (`Node.Proper.mem_descendants`), each with the path of its
place. Paths below a path lead on from where it leads to, name by name
(`Disk.locate_below_eq_ok`), and to write each slash of an absolute path once
leads to the same place (`Disk.locate_squeeze`).

A walk lists the entries below a node by recursion on the tree, and what is
wanted of it is stated by places. Both sides go down by one child at a time,
so the proof is an induction on proper nodes; that names are distinct is what
makes the child that a name finds the entry itself.

The other lemmas relate spellings. A path and what is written behind it are
followed one after the other, and a path with its slashes written once has the
same segments but for idle ones. It is also no longer, and has no other
characters, so it is a path if the first one is (`Disk.checkPath_of_sublist`).
-/

namespace SwiftStyle.Node

variable {node child : Node} {entries : List (String × Node)} {name : String}
  {p : Path} {e : Entry}

theorem child?_eq_some (hdistinct : (entries.map Prod.fst).Nodup) :
    (directory entries).child? name = some child ↔ (name, child) ∈ entries := by
  refine ⟨mem_entries_of_child?, fun hmem => ?_⟩
  induction entries with
  | nil => exact nomatch hmem
  | cons entry entries ih =>
    obtain ⟨hentry, hdistinct⟩ := List.nodup_cons.1 hdistinct
    rcases List.mem_cons.1 hmem with rfl | hmem
    · simp [child?, Node.entries]
    · have hne : entry.1 ≠ name := by
        rintro rfl
        exact hentry (List.mem_map.2 ⟨_, hmem, rfl⟩)
      simpa [child?, Node.entries, hne] using ih hdistinct hmem

/-- The entry of a named node at a path, and those below it. -/
theorem mem_allDescendants :
    e ∈ allDescendants p entries ↔ ∃ name child, (name, child) ∈ entries ∧
      (e = ⟨p.join name, name, child.isDirectory⟩ ∨
        e ∈ child.descendants (p.join name)) := by
  induction entries with
  | nil => simp [allDescendants]
  | cons entry entries ih =>
    rw [allDescendants, List.mem_cons, List.mem_append, ih]
    simp only [List.mem_cons]
    grind

/-- **The entries below a node** are what is found at the places below it. -/
theorem Proper.mem_descendants (h : node.Proper) :
    e ∈ node.descendants p ↔ ∃ above name child,
      node.find? (above ++ [name]) = some child ∧
      e = ⟨p.below (above ++ [name]), name, child.isDirectory⟩ := by
  induction h generalizing p with
  | file data =>
    have hfind : ∀ above name,
        Node.find? (.file data) (above ++ [name]) = none := by
      intro above name
      cases above <;> rfl
    simp [descendants, hfind]
  | @directory entries hnames hdistinct hbelow ih =>
    have hchild : ∀ name child,
        (Node.directory entries).child? name = some child
          ↔ (name, child) ∈ entries :=
      fun name child => child?_eq_some hdistinct
    rw [descendants, mem_allDescendants]
    constructor
    · rintro ⟨name, child, hmem, rfl | he⟩
      · refine ⟨[], name, child, ?_, rfl⟩
        rw [List.nil_append, find?_cons, (hchild name child).2 hmem]
        rfl
      · obtain ⟨above, last, found, hfound, rfl⟩ := (ih _ hmem).1 he
        refine ⟨name :: above, last, found, ?_, rfl⟩
        rw [List.cons_append, find?_cons, (hchild name child).2 hmem]
        exact hfound
    · rintro ⟨above, last, found, hfound, rfl⟩
      cases above with
      | nil =>
        rw [List.nil_append, find?_cons] at hfound
        obtain ⟨child, hmem, hfound⟩ := Option.bind_eq_some_iff.1 hfound
        obtain rfl := Option.some.inj hfound
        exact ⟨last, child, (hchild last child).1 hmem, .inl rfl⟩
      | cons name above =>
        rw [List.cons_append, find?_cons] at hfound
        obtain ⟨child, hmem, hfound⟩ := Option.bind_eq_some_iff.1 hfound
        have hmem := (hchild name child).1 hmem
        exact ⟨name, child, hmem,
          .inr ((ih _ hmem).2 ⟨above, last, found, hfound, rfl⟩)⟩

end SwiftStyle.Node

namespace SwiftStyle.Disk

variable {d : Disk} {p q : Path} {place last : Place} {names : List String}

/-- **Whether something stands at a place below a path.** -/
def hasBelow (d : Disk) (p : Path) (place : Place) : Bool :=
  ((d.node? p).bind fun node => node.find? place).isSome

/-- **A path below another leads on name by name.** -/
theorem locate_below_eq_ok (hnames : ∀ name ∈ names, '/' ∉ name.toList) :
    d.locate (p.below names) = .ok last
      ↔ ∃ place, d.locate p = .ok place ∧
          follow d.tree (names.map String.toList) place = .ok last := by
  induction names generalizing p with
  | nil => simp [Path.below, follow]
  | cons name names ih =>
    obtain ⟨hname, hnames⟩ := List.forall_mem_cons.1 hnames
    have hjoin := Path.not_isAbsolute_of_not_mem hname
    have hcons : d.locate (p.below (name :: names)) = .ok last
        ↔ ∃ next, d.locate (p.join name) = .ok next ∧
          follow d.tree (names.map String.toList) next = .ok last :=
      ih hnames
    rw [hcons, List.map_cons, ← List.singleton_append]
    simp only [locate_join_eq_ok hjoin, Path.segments_of_not_mem hname,
      follow_append_eq_ok]
    grind

/-- **To write each slash once leads to the same place.** -/
theorem locate_squeeze (hp : p.isAbsolute) (h : d.locate p = .ok place) :
    d.locate p.squeeze = .ok place := by
  have hfollow := h
  unfold locate at hfollow
  rw [Path.segments_of_isAbsolute hp, if_pos hp, follow_cons_eq_ok] at hfollow
  obtain ⟨next, hstep, hfollow⟩ := hfollow
  obtain rfl : next = [] := by
    cases hstep with
    | idle => rfl
    | name _ hidle => exact absurd rfl hidle
  refine (locate_below_eq_ok fun _ => Path.not_mem_of_mem_map_segments).2
    ⟨[], locate_slash hstep.hasDirectory, ?_⟩
  simpa using hfollow

/-- A path that is spelled with characters of a path is one. -/
theorem checkPath_of_sublist (hp : p.isAbsolute)
    (h : p.text.toList.Sublist q.text.toList) (hq : checkPath q = .ok ()) :
    checkPath p = .ok () := by
  obtain ⟨hnul, hsize, -⟩ := checkPath_eq_ok.1 hq
  refine checkPath_eq_ok.2 ⟨fun hmem => hnul (h.subset hmem), ?_, ?_⟩
  · rw [← Text.size_toList] at hsize ⊢
    exact (Text.size_le_of_sublist h).trans hsize
  · intro hempty
    simp [Path.isAbsolute, hempty] at hp

/-- **The paths on the way to an absolute path** are paths if it is one. -/
theorem checkPath_below (hp : p.isAbsolute) (hcheck : checkPath p = .ok ())
    (hnames : names <+: (Path.segments p.text.toList.tail).map String.ofList) :
    checkPath (Path.below ⟨"/"⟩ names) = .ok () := by
  have hslash : ∀ name ∈ names, '/' ∉ name.toList :=
    fun name hname => Path.not_mem_of_mem_map_segments (hnames.subset hname)
  refine checkPath_of_sublist (Path.isAbsolute_below rfl hslash) ?_ hcheck
  have hfront : names.map String.toList
      <+: Path.segments p.text.toList.tail := by
    simpa using hnames.map String.toList
  have hfront := Path.joinSegments_prefix hfront
  rw [Path.joinSegments_segments] at hfront
  rw [Path.toList_of_isAbsolute hp]
  exact (Path.below_sublist hslash).trans (hfront.sublist.cons_cons '/')

theorem node?_squeeze {node : Node} (hp : p.isAbsolute)
    (h : d.node? p = some node) : d.node? p.squeeze = some node := by
  obtain ⟨place, hcheck, hlocate, hfind⟩ := node?_eq_some.1 h
  exact node?_eq_some.2 ⟨place, checkPath_below hp hcheck List.prefix_rfl,
    locate_squeeze hp hlocate, hfind⟩

end SwiftStyle.Disk
