import SwiftStyle.Disk.Basic
import SwiftStyle.Proofs.Path.Segments

/-!
# Trees as a disk has them

A node is any nesting of named nodes. **Proper** nodes are those that a
disk can hold (`Node.Proper`): the entries of a directory have names that a
path can spell, and no two of them the same. What is found in a proper tree
is proper, and so are the names on the way to it (`Node.Proper.of_find?`);
on the way there are only directories (`Node.hasDirectory_of_find?`).

Whether a node is proper can be computed (`Node.proper_iff`), so that trees
that are written out are shown to be proper by evaluation. The lemmas on
`Node.find?` hold of any tree: a search goes on from any place on the way
(`Node.find?_append`), and all else about prefixes of places follows from
that.
-/

namespace SwiftStyle

/-- **A name that an entry of a directory may have**: it is neither empty
nor one of the two that stand for directories, holds no slash and no NUL
character, and is not too long. -/
structure IsName (name : String) : Prop where
  /-- It is a component of a path. -/
  not_idle : ¬ Path.isIdle name.toList
  /-- It does not stand for the parent directory. -/
  ne_parent : name.toList ≠ ['.', '.']
  /-- It has no slash in it. -/
  not_slash : '/' ∉ name.toList
  /-- It has no NUL character in it. -/
  not_nul : '\x00' ∉ name.toList
  /-- It is not too long. -/
  not_long : ¬ Disk.isLongName name

theorem isName_iff {name : String} :
    IsName name ↔ ¬ Path.isIdle name.toList ∧ name.toList ≠ ['.', '.'] ∧
      '/' ∉ name.toList ∧ '\x00' ∉ name.toList ∧ ¬ Disk.isLongName name :=
  ⟨fun ⟨a, b, c, d, e⟩ => ⟨a, b, c, d, e⟩,
   fun ⟨a, b, c, d, e⟩ => ⟨a, b, c, d, e⟩⟩

instance (name : String) : Decidable (IsName name) :=
  decidable_of_iff' _ isName_iff

theorem IsName.ne_nil {name : String} (h : IsName name) :
    name.toList ≠ [] := by
  intro hnil
  have hidle := h.not_idle
  rw [hnil] at hidle
  exact hidle rfl

theorem IsName.not_isAbsolute {name : String} (h : IsName name) :
    (⟨name⟩ : Path).isAbsolute = false :=
  Path.not_isAbsolute_of_not_mem h.not_slash

namespace Node

variable {tree node child : Node} {place rest : Place} {name : String}

/-- **A node that a disk can hold**, with all that is below it. -/
inductive Proper : Node → Prop
  /-- A file is proper. -/
  | file (data : FileData) : Proper (.file data)
  /-- So is a directory of proper nodes with names of their own. -/
  | directory {entries : List (String × Node)}
      (hnames : ∀ e ∈ entries, IsName e.1)
      (hdistinct : (entries.map Prod.fst).Nodup)
      (hbelow : ∀ e ∈ entries, e.2.Proper) : Proper (.directory entries)

mutual

/-- Whether a node is proper. -/
def isProper : Node → Bool
  | file _ => true
  | directory entries =>
    decide (entries.map Prod.fst).Nodup && areProper entries

/-- Whether named nodes are proper, with names that they may have. -/
def areProper : List (String × Node) → Bool
  | [] => true
  | (name, node) :: rest =>
    decide (IsName name) && node.isProper && areProper rest

end

mutual

theorem proper_iff : (node : Node) → (node.Proper ↔ node.isProper)
  | .file data => ⟨fun _ => rfl, fun _ => .file data⟩
  | .directory entries => by
    have hentries := forall_proper_iff entries
    constructor
    · intro h
      cases h with
      | directory hnames hdistinct hbelow =>
        rw [isProper, Bool.and_eq_true, decide_eq_true_eq, ← hentries]
        exact ⟨hdistinct, fun e he => ⟨hnames e he, hbelow e he⟩⟩
    · intro h
      rw [isProper, Bool.and_eq_true, decide_eq_true_eq, ← hentries] at h
      exact .directory (fun e he => (h.2 e he).1) h.1
        fun e he => (h.2 e he).2

theorem forall_proper_iff : (entries : List (String × Node)) →
    ((∀ e ∈ entries, IsName e.1 ∧ e.2.Proper) ↔ areProper entries)
  | [] => by simp [areProper]
  | (name, node) :: rest => by
    rw [areProper, List.forall_mem_cons, forall_proper_iff rest,
      proper_iff node]
    simp

end

instance (node : Node) : Decidable node.Proper :=
  decidable_of_iff' _ (proper_iff node)

/-- Whether a file stands at a place. -/
def hasFile (tree : Node) (place : Place) : Bool :=
  (tree.find? place).any fun node => !node.isDirectory

/-- Whether a directory stands at a place. -/
def hasDirectory (tree : Node) (place : Place) : Bool :=
  (tree.find? place).any isDirectory

theorem find?_cons (node : Node) (name : String) (rest : Place) :
    node.find? (name :: rest)
      = (node.child? name).bind fun child => child.find? rest := by
  rw [find?]
  cases node.child? name <;> rfl

/-- **What stands at a place is found from any place on the way.** -/
theorem find?_append (node : Node) (place rest : Place) :
    node.find? (place ++ rest)
      = (node.find? place).bind fun between => between.find? rest := by
  induction place generalizing node with
  | nil => rfl
  | cons name place ih =>
    rw [List.cons_append, find?_cons, find?_cons, Option.bind_assoc]
    exact congrArg _ (funext fun child => ih child)

theorem mem_entries_of_child? (h : node.child? name = some child) :
    (name, child) ∈ node.entries := by
  obtain ⟨entry, hentry, rfl⟩ := Option.map_eq_some_iff.1 h
  obtain rfl : entry.1 = name := by simpa using List.find?_some hentry
  exact List.mem_of_find?_eq_some hentry

theorem isDirectory_of_child? (h : (node.child? name).isSome) :
    node.isDirectory := by
  cases node with
  | file data => exact absurd h (by simp [child?, entries])
  | directory entries => rfl

/-- **On the way to a node there are directories.** -/
theorem hasDirectory_of_find? (hrest : rest ≠ [])
    (h : (tree.find? (place ++ rest)).isSome) : tree.hasDirectory place := by
  obtain ⟨name, rest, rfl⟩ := List.exists_cons_of_ne_nil hrest
  rw [find?_append] at h
  unfold hasDirectory
  cases hbetween : tree.find? place with
  | none => simp [hbetween] at h
  | some between =>
    rw [hbetween, Option.bind_some, find?_cons] at h
    exact isDirectory_of_child? (Option.isSome_of_isSome_bind h)

/-- Something stands at every place on the way to a node. -/
theorem isSome_find?_of_append (h : (tree.find? (place ++ rest)).isSome) :
    (tree.find? place).isSome := by
  rw [find?_append] at h
  exact Option.isSome_of_isSome_bind h

/-- **Directories stand above a directory.** -/
theorem hasDirectory_of_prefix {above : Place} (h : tree.hasDirectory place)
    (habove : above <+: place) : tree.hasDirectory above := by
  obtain ⟨rest, rfl⟩ := habove
  rcases List.eq_nil_or_concat rest with rfl | ⟨rest, name, rfl⟩
  · rwa [List.append_nil] at h
  · exact hasDirectory_of_find? (by simp) (Option.isSome_of_any h)

theorem hasDirectory_of_not_hasFile (h : (tree.find? place).isSome)
    (hfile : ¬ tree.hasFile place) : tree.hasDirectory place := by
  unfold hasFile at hfile
  unfold hasDirectory
  cases hfind : tree.find? place <;> simp_all

namespace Proper

/-- The entries of a proper node have names of their own and are proper. -/
theorem of_mem_entries (h : node.Proper) (hmem : (name, child) ∈ node.entries) :
    IsName name ∧ child.Proper := by
  cases h with
  | file data => exact absurd hmem List.not_mem_nil
  | directory hnames hdistinct hbelow =>
    exact ⟨hnames _ hmem, hbelow _ hmem⟩

/-- **What is found in a proper tree is proper**, and so are the names on
the way. -/
theorem of_find? (h : tree.Proper) (hfind : tree.find? place = some node) :
    (∀ name ∈ place, IsName name) ∧ node.Proper := by
  induction place generalizing tree with
  | nil =>
    obtain rfl := Option.some.inj hfind
    exact ⟨fun name hname => absurd hname List.not_mem_nil, h⟩
  | cons name place ih =>
    rw [find?_cons] at hfind
    obtain ⟨child, hchild, hfind⟩ := Option.bind_eq_some_iff.1 hfind
    obtain ⟨hname, hproper⟩ := h.of_mem_entries (mem_entries_of_child? hchild)
    obtain ⟨hnames, hnode⟩ := ih hproper hfind
    exact ⟨List.forall_mem_cons.2 ⟨hname, hnames⟩, hnode⟩

/-- The names on the way to what stands somewhere are names. -/
theorem isName_of_isSome (h : tree.Proper)
    (hfound : (tree.find? place).isSome) : ∀ name ∈ place, IsName name := by
  obtain ⟨node, hfind⟩ := Option.isSome_iff_exists.1 hfound
  exact (h.of_find? hfind).1

end Proper

end Node
end SwiftStyle
