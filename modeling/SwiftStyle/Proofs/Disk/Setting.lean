import SwiftStyle.Proofs.Disk.Tree

/-!
# Setting a node

Setting a node at a place changes the directories above it, what is there
and what is below, and nothing else: whatever is found at a place that is
apart from it is found as before (`Node.find?_set_of_apart`). A file that
takes the place of no directory also hides nothing below itself
(`Node.find?_set_file`), so the directories above are all that a search can
tell it by.

The other lemmas are about setting twice. The second node takes the place of
the first (`Node.set_set`); and a node that was set in a directory that had
none of its name can be taken out again, which leaves the very tree that was
there before, with every entry in its old position (`Node.erase_set`).
-/

namespace SwiftStyle

namespace Node

variable {tree new : Node} {place other rest above : Place} {name : String}
  {data : FileData}

theorem entries_set (node new : Node) (name : String) (rest : Place) :
    (node.set (name :: rest) new).entries
      = setEntry name (((node.child? name).getD (directory [])).set rest new)
          node.entries := by
  rw [set]
  rfl

/-- An entry that is set is found, and the others are what they were. -/
theorem find?_setEntry (name other : String) (child : Node)
    (entries : List (String × Node)) :
    (setEntry name child entries).find? (fun entry => entry.1 == other)
      = if name = other then some (name, child)
        else entries.find? fun entry => entry.1 == other := by
  induction entries with
  | nil => by_cases h : name = other <;> simp [setEntry, h]
  | cons entry entries ih =>
    rw [setEntry]
    by_cases hentry : entry.1 = name
    · rw [if_pos (beq_iff_eq.2 hentry)]
      by_cases h : name = other <;> simp [hentry, h]
    · rw [if_neg (by simpa using hentry), List.find?_cons, List.find?_cons, ih]
      by_cases h : name = other
      · subst h
        rw [if_pos rfl, if_pos rfl, beq_false_of_ne hentry]
      · rw [if_neg h, if_neg h]

/-- **To set a node is to set one of the children.** -/
theorem child?_set (node new : Node) (name other : String) (rest : Place) :
    (node.set (name :: rest) new).child? other
      = if name = other then
          some (((node.child? name).getD (directory [])).set rest new)
        else node.child? other := by
  unfold child?
  rw [entries_set, find?_setEntry]
  split <;> rfl

/-- **What is set is found**, and with it all that is below it. -/
theorem find?_set_append (tree : Node) (place rest : Place) (new : Node) :
    (tree.set place new).find? (place ++ rest) = new.find? rest := by
  induction place generalizing tree with
  | nil => rw [set, List.nil_append]
  | cons name place ih =>
    rw [List.cons_append, find?_cons, child?_set, if_pos rfl,
      Option.bind_some, ih]

theorem find?_set_self (tree : Node) (place : Place) (new : Node) :
    (tree.set place new).find? place = some new := by
  have h := find?_set_append tree place [] new
  rwa [List.append_nil] at h

/-- **Elsewhere in the tree nothing changes.** -/
theorem find?_set_of_apart (h : ¬ other <+: place) (h' : ¬ place <+: other) :
    (tree.set place new).find? other = tree.find? other := by
  induction place generalizing tree other with
  | nil => exact absurd List.nil_prefix h'
  | cons name place ih =>
    cases other with
    | nil => exact absurd List.nil_prefix h
    | cons first other =>
      rw [find?_cons, find?_cons, child?_set]
      by_cases hname : name = first
      · subst hname
        rw [List.cons_prefix_cons, not_and] at h h'
        rw [if_pos rfl, Option.bind_some, ih (h rfl) (h' rfl)]
        cases hchild : tree.child? name with
        | some child => rfl
        | none =>
          -- a directory that was missing is made, and holds nothing else
          obtain ⟨more, others, rfl⟩ :=
            List.exists_cons_of_ne_nil (l := other) fun hnil =>
              h rfl (hnil ▸ List.nil_prefix)
          rfl
      · rw [if_neg hname]

theorem hasDirectory_set (habove : above <+: place) (hne : above ≠ place) :
    (tree.set place new).hasDirectory above := by
  obtain ⟨rest, rfl⟩ := habove
  have hrest : rest ≠ [] := fun h => hne (by rw [h, List.append_nil])
  refine hasDirectory_of_find? hrest ?_
  rw [find?_set_self]
  rfl

theorem find?_append_eq_none (h : ¬ tree.hasDirectory place)
    (hrest : rest ≠ []) : tree.find? (place ++ rest) = none := by
  by_contra hfound
  exact h (hasDirectory_of_find? hrest (Option.isSome_iff_ne_none.2 hfound))

/-- **A file that takes the place of no directory** changes what is found
there and in the directories above it only. -/
theorem find?_set_file (hplace : ¬ tree.hasDirectory place)
    (hother : ¬ other <+: place) :
    (tree.set place (.file data)).find? other = tree.find? other := by
  by_cases hbelow : place <+: other
  · obtain ⟨rest, rfl⟩ := hbelow
    have hrest : rest ≠ [] := by
      rintro rfl
      exact hother ((List.append_nil place).symm ▸ List.prefix_rfl)
    rw [find?_set_append, find?_append_eq_none hplace hrest]
    show find? (.file data) ([] ++ rest) = none
    exact find?_append_eq_none (nomatch ·) hrest
  · exact find?_set_of_apart hother hbelow

/-- The directories stay where they are. -/
theorem hasDirectory_set_file (hplace : ¬ tree.hasDirectory place)
    (h : tree.hasDirectory above) :
    (tree.set place (.file data)).hasDirectory above := by
  by_cases habove : above <+: place
  · exact hasDirectory_set habove fun hsame => hplace (hsame ▸ h)
  · rwa [hasDirectory, find?_set_file hplace habove]

/-- What stood somewhere is not lost. -/
theorem isSome_find?_set_file (hplace : ¬ tree.hasDirectory place)
    (h : (tree.find? other).isSome) :
    ((tree.set place (.file data)).find? other).isSome := by
  by_cases hother : other <+: place
  · obtain ⟨rest, rfl⟩ := hother
    have hset : ((tree.set (other ++ rest) (.file data)).find?
        (other ++ rest)).isSome := by
      rw [find?_set_self]
      rfl
    exact isSome_find?_of_append hset
  · rwa [find?_set_file hplace hother]

/-! ## Setting twice

In a directory an entry is set in its old position or at the end, and taken
out where it stands; the order of the others does not change in either. -/

variable {child : Node} {entries : List (String × Node)}

theorem setEntry_setEntry (name : String) (child new : Node)
    (entries : List (String × Node)) :
    setEntry name new (setEntry name child entries)
      = setEntry name new entries := by
  induction entries with
  | nil => simp [setEntry]
  | cons entry entries ih =>
    by_cases h : entry.1 = name <;> simp [setEntry, h, ih]

theorem setEntry_of_child? (h : (directory entries).child? name = some child) :
    setEntry name child entries = entries := by
  unfold child? Node.entries at h
  induction entries with
  | nil => exact nomatch h
  | cons entry entries ih =>
    rw [setEntry]
    by_cases hentry : entry.1 = name
    · rw [if_pos (beq_iff_eq.2 hentry)]
      subst hentry
      simp only [List.find?_cons, beq_self_eq_true, Option.map_some,
        Option.some.injEq] at h
      rw [← h]
    · rw [List.find?_cons, beq_false_of_ne hentry] at h
      rw [if_neg (by simpa using hentry), ih h]

/-- A child that was not there is set at the end. -/
theorem eraseP_setEntry (h : (directory entries).child? name = none) :
    (setEntry name child entries).eraseP (fun entry => entry.1 == name)
      = entries := by
  unfold child? Node.entries at h
  induction entries with
  | nil => simp [setEntry]
  | cons entry entries ih =>
    rw [Option.map_eq_none_iff, List.find?_cons] at h
    by_cases hentry : entry.1 = name
    · rw [beq_iff_eq.2 hentry] at h
      exact nomatch h
    · rw [beq_false_of_ne hentry] at h
      rw [setEntry, if_neg (by simpa using hentry),
        List.eraseP_cons_of_neg (by simpa using hentry),
        ih (Option.map_eq_none_iff.2 h)]

/-- **The second node takes the place of the first.** -/
theorem set_set (tree : Node) (place : Place) (new later : Node) :
    (tree.set place new).set place later = tree.set place later := by
  induction place generalizing tree with
  | nil => rfl
  | cons name place ih =>
    rw [set, child?_set, if_pos rfl, entries_set, setEntry_setEntry,
      Option.getD_some, ih, set]

theorem exists_entries (h : tree.hasDirectory place) :
    ∃ entries, tree = directory entries := by
  have hroot := hasDirectory_of_prefix h List.nil_prefix
  cases tree with
  | file data => exact nomatch hroot
  | directory entries => exact ⟨entries, rfl⟩

/-- **To take out a node is to take it out of one of the children.** -/
theorem erase_cons (h : (directory entries).child? name = some child)
    (hrest : rest ≠ []) :
    (directory entries).erase (name :: rest)
      = directory (setEntry name (child.erase rest) entries) := by
  obtain ⟨next, rest, rfl⟩ := List.exists_cons_of_ne_nil hrest
  rw [erase, h]
  exact hrest

/-- **What was set under a fresh name can be taken out again.** -/
theorem erase_set (hplace : tree.hasDirectory place)
    (hfresh : tree.find? (place ++ [name]) = none) :
    (tree.set (place ++ [name]) new).erase (place ++ [name]) = tree := by
  obtain ⟨entries, rfl⟩ := exists_entries hplace
  induction place generalizing entries with
  | nil =>
    have hchild : (directory entries).child? name = none := by
      rw [List.nil_append, find?_cons] at hfresh
      simpa [find?] using hfresh
    exact congrArg directory (eraseP_setEntry hchild)
  | cons first place ih =>
    cases hchild : (directory entries).child? first with
    | none =>
      simp [hasDirectory, find?_cons, hchild] at hplace
    | some child =>
      rw [hasDirectory, find?_cons, hchild] at hplace
      rw [List.cons_append, find?_cons, hchild] at hfresh
      have hinner : child.hasDirectory place := hplace
      obtain ⟨inner, rfl⟩ := exists_entries hinner
      have hset := child?_set (directory entries) new first first
        (place ++ [name])
      rw [if_pos rfl, hchild, Option.getD_some, set, hchild,
        Option.getD_some] at hset
      rw [List.cons_append, set, hchild, Option.getD_some,
        erase_cons hset (by simp), ih inner hinner hfresh]
      exact congrArg directory ((setEntry_setEntry first _ _ entries).trans
        (setEntry_of_child? hchild))

end Node
end SwiftStyle
