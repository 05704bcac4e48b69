import SwiftStyle.Proofs.Disk.AbsolutePath
import SwiftStyle.Proofs.Path.Order

/-!
# Paths below a path

To write names behind a path, one after the other, is to go down to what
stands below it (`Path.below`). The names become components of the path
(`Path.components_below`), so paths with the same components below one path
have the same names (`Path.eq_of_same_below`). An absolute path is itself what
stands below the root, if each of its slashes is written once
(`Path.squeeze`).

How a path below another is spelled depends on whether the other ends with a
slash, but what it leads to does not. So the lemmas here are about components
and segments, and about the spelling only as much as the checks on its length
need: a path is never longer than with one slash before each of its names
(`Path.below_sublist`).
-/

namespace SwiftStyle.Path

variable {p q : Path} {name : String} {names more : List String}

/-- **The path of what stands below a path**, name by name. -/
def below (p : Path) (names : List String) : Path :=
  names.foldl join p

/-- **An absolute path with each slash written once**. A step to a directory
itself or to the one above stays. -/
def squeeze (p : Path) : Path :=
  below ⟨"/"⟩ ((segments p.text.toList.tail).map String.ofList)

theorem below_append (p : Path) (names more : List String) :
    p.below (names ++ more) = (p.below names).below more :=
  List.foldl_append

theorem isAbsolute_below (hp : p.isAbsolute)
    (hnames : ∀ name ∈ names, '/' ∉ name.toList) :
    (p.below names).isAbsolute := by
  induction names generalizing p with
  | nil => exact hp
  | cons name names ih =>
    obtain ⟨hname, hnames⟩ := List.forall_mem_cons.1 hnames
    refine ih ?_ hnames
    rw [isAbsolute_join (not_isAbsolute_of_not_mem hname), hp]

/-! ## Components

A name without slashes is one segment, and it is a component unless it is
empty, a dot or two dots. -/

theorem components_join (hp : p.isAbsolute) (hname : '/' ∉ name.toList) :
    (p.join name).components = p.components ++
      ([name.toList].filter fun s => !isIdle s).map componentOf := by
  have habsolute := not_isAbsolute_of_not_mem hname
  unfold components
  dsimp only
  rw [isAbsolute_join habsolute, if_pos hp, if_pos hp]
  obtain h | ⟨front, hfront, h⟩ := segments_join (p := p) habsolute
  · rw [h, segments_of_not_mem hname, List.filter_append, List.map_append]
    rfl
  · -- the empty segment at the end of the path is no component
    have hempty : [[]].filter (fun s => !isIdle s) = [] := rfl
    rw [h, hfront, segments_of_not_mem hname, List.filter_append,
      List.filter_append, hempty, List.append_nil, List.map_append]
    rfl

/-- **What is below an absolute path has its components** and those of the
names. -/
theorem components_below (hp : p.isAbsolute)
    (hnames : ∀ name ∈ names, '/' ∉ name.toList) :
    (p.below names).components = p.components ++
      ((names.map String.toList).filter fun s => !isIdle s).map
        componentOf := by
  induction names generalizing p with
  | nil => exact (List.append_nil _).symm
  | cons name names ih =>
    obtain ⟨hname, hnames⟩ := List.forall_mem_cons.1 hnames
    have habsolute : (p.join name).isAbsolute := by
      rw [isAbsolute_join (not_isAbsolute_of_not_mem hname), hp]
    refine (ih habsolute hnames).trans ?_
    rw [components_join hp hname, List.append_assoc, ← List.map_append,
      ← List.filter_append, List.singleton_append, List.map_cons]

theorem components_below_names (hp : p.isAbsolute)
    (hnames : ∀ name ∈ names, IsName name) :
    (p.below names).components
      = p.components ++ names.map Component.name := by
  have hkept : (names.map String.toList).filter (fun s => !isIdle s)
      = names.map String.toList := by
    simpa using fun name hname => (hnames name hname).not_idle
  rw [components_below hp fun name hname => (hnames name hname).not_slash,
    hkept, List.map_map]
  congr 1
  refine List.map_congr_left fun name hname => ?_
  rw [Function.comp_apply, componentOf, if_neg (hnames name hname).ne_parent,
    String.ofList_toList]

instance : Std.LawfulEqCmp Component.compare where
  eq_of_compare {a b} h := by
    rw [Component.compare_eq, compareLex_eq_eq] at h
    obtain ⟨hrank, hlabel⟩ := h
    have hrank : a.rank = b.rank := Std.LawfulEqCmp.eq_of_compare hrank
    have hlabel : a.label = b.label := Std.LawfulEqCmp.eq_of_compare hlabel
    cases a <;> cases b <;> simp_all [Component.rank, Component.label]

theorem same_iff : p.same q ↔ p.components = q.components := by
  unfold same compare
  rw [compareComponents_eq, beq_iff_eq, Std.LawfulEqCmp.compare_eq_iff_eq]

/-- **Paths below an absolute path are the same only if they are equal.** -/
theorem eq_of_same_below (hp : p.isAbsolute)
    (hnames : ∀ name ∈ names, IsName name)
    (hmore : ∀ name ∈ more, IsName name)
    (h : (p.below names).same (p.below more)) : names = more := by
  rw [same_iff, components_below_names hp hnames,
    components_below_names hp hmore] at h
  refine (List.map_injective_iff.2 fun a b hab => ?_)
    (List.append_cancel_left h)
  exact Component.name.inj hab

/-! ## Absolute paths

A path with each slash written once is shorter, or as long, so it passes every
check that the path passes. -/

theorem not_mem_of_mem_map_segments {text : List Char}
    (h : name ∈ (segments text).map String.ofList) : '/' ∉ name.toList := by
  obtain ⟨s, hs, rfl⟩ := List.mem_map.1 h
  rw [String.toList_ofList]
  exact not_mem_of_mem_segments hs

theorem join_sublist (p : Path) (h : '/' ∉ name.toList) :
    (p.join name).text.toList.Sublist
      (p.text.toList ++ '/' :: name.toList) := by
  rw [toList_join (not_isAbsolute_of_not_mem h)]
  split
  · exact (List.sublist_cons_self '/' _).append_left _
  · exact List.Sublist.refl _

/-- **What stands below the root** is spelled with no more than one slash
before each name. -/
theorem below_sublist (hnames : ∀ name ∈ names, '/' ∉ name.toList) :
    (below ⟨"/"⟩ names).text.toList.Sublist
      ('/' :: joinSegments (names.map String.toList)) := by
  induction names using List.reverseRecOn with
  | nil => exact List.Sublist.refl _
  | append_singleton names name ih =>
    obtain ⟨hnames, hname⟩ := List.forall_mem_append.1 hnames
    have hname := hname name (List.mem_singleton_self name)
    rw [below_append, List.map_append, List.map_singleton]
    by_cases hempty : names = []
    · subst hempty
      have hjoin : below (below ⟨"/"⟩ []) [name] = Path.join ⟨"/"⟩ name := rfl
      rw [hjoin, toList_join (not_isAbsolute_of_not_mem hname)]
      exact List.Sublist.refl _
    · rw [joinSegments_concat (by simpa using hempty), ← List.cons_append]
      exact (join_sublist _ hname).trans ((ih hnames).append_right _)

end SwiftStyle.Path
