import SwiftStyle.Proofs.Disk.TemporaryFile

/-!
# What a save leaves on the disk

A save replaces one file by a text, or changes nothing: whatever step of it
fails, the tree is what it was, and when all succeed the text is the only
thing in the tree that is new (`Disk.Replaces`). `Disk.save_cases` says that
there is nothing between the two.

The text is then read back from the path that it was saved to. If the path
led to something before, the save went to the absolute form of the path, and
on a proper tree that leads to the same place (`Disk.resolve_of_target`).
-/

namespace SwiftStyle.Disk

variable {d after : Disk} {p : Path} {up : Place}
  {name : List Char} {front : List (List Char)} {data : FileData}

/-- **The disk once a file has been replaced by a text.** No failure has
struck, the text is read back from the path, and nothing else in the tree
has changed. -/
structure Replaces (d : Disk) (p : Path) (contents : String)
    (after : Disk) : Prop where
  /-- No step of the save was made to fail. -/
  spared : d.fault d.saves = none
  /-- A file with the text stands at one place, where no directory was. -/
  set : ∃ place, d.filePlace (d.target p) = .ok place ∧
    ¬ d.tree.hasDirectory place ∧
    after = { d with
      saves := d.saves + 1
      tree := d.tree.set place (.file (.text contents)) }
  /-- What stands neither there nor above has not changed. -/
  elsewhere : ∀ place, d.filePlace (d.target p) = .ok place →
    ∀ other, ¬ other <+: place →
      after.tree.find? other = d.tree.find? other
  /-- The text is read from the path that the save went to. -/
  read_target : after.read (d.target p) = .ok contents
  /-- On a disk as there are, it is read from the path itself, if that is one
  that a path may have. -/
  read : d.tree.Proper → d.tree.hasDirectory d.current →
    checkPath p = .ok () → after.read p = .ok contents

/-- The path itself leads to where the save went. -/
theorem resolve_of_target (htree : d.tree.Proper)
    (hcurrent : d.tree.hasDirectory d.current)
    (hcheck : checkPath p = .ok ())
    (hnames : d.Names (d.target p) front name up)
    (hset : after.tree
      = d.tree.set (up ++ [String.ofList name]) (.file data))
    (hsame : after.current = d.current) :
    after.resolve p = .ok (up ++ [String.ofList name]) := by
  cases hcanonical : d.canonical? p with
  | none =>
    have htarget : d.target p = p := by rw [target, hcanonical]; rfl
    exact (htarget ▸ hnames).resolve hset hsame
  | some q =>
    obtain ⟨last, hlocate, rfl⟩ := canonical?_eq_some hcanonical
    have htarget : d.target p = pathOf last := by
      rw [target, hcanonical]
      rfl
    -- the absolute form leads where the path does
    have hroot := Node.hasDirectory_of_prefix hcurrent List.nil_prefix
    obtain rfl := (htarget ▸ hnames).eq_of_locate
      (locate_pathOf htree hroot (isSome_find?_of_locate hlocate))
    refine resolve_eq_ok.2 ⟨hcheck, ?_⟩
    unfold locate at hlocate ⊢
    rw [hset, hsame]
    exact follow_set_file hnames.free hlocate

/-- **A save replaces the file or changes nothing** but the number of saves
that were tried. -/
theorem save_cases (d : Disk) (p : Path) (contents : String) :
    (∃ after, d.save p contents = (.ok (), after) ∧
      d.Replaces p contents after) ∨
    ∃ cause, d.save p contents
      = (.error cause, { d with saves := d.saves + 1 }) := by
  unfold save
  cases hreplace : Saving.replace d (d.target p) contents with
  | error failed =>
    obtain ⟨cause, after⟩ := failed
    obtain rfl := Saving.replace_eq_error hreplace
    exact .inr ⟨cause, rfl⟩
  | ok after =>
    obtain ⟨hspared, place, hplace, rfl⟩ := Saving.replace_eq_ok hreplace
    obtain ⟨front, name, up, hnames, rfl⟩ := exists_names hplace
    have hfind := d.tree.find?_set_self (up ++ [String.ofList name])
      (.file (.text contents))
    exact .inl ⟨_, rfl, {
      spared := hspared
      set := ⟨_, hplace, hnames.free, rfl⟩
      elsewhere := fun place hsame other hother => by
        obtain rfl := Except.ok.inj (hplace.symm.trans hsame)
        exact Node.find?_set_file hnames.free hother
      read_target := read_eq_ok.2 ⟨_, hnames.resolve rfl rfl, hfind⟩
      read := fun htree hcurrent hcheck => read_eq_ok.2
        ⟨_, resolve_of_target htree hcurrent hcheck hnames rfl rfl, hfind⟩ }⟩

end SwiftStyle.Disk
