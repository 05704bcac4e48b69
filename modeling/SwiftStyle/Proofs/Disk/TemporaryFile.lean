import SwiftStyle.Disk.Saving
import SwiftStyle.Proofs.Disk.Writing

/-!
# The temporary file of a save

Before its last step a save changes nothing but its temporary file: the tree
is the one that the save began on with one file more, which stands in a
directory that had nothing of its name (`Saving.Beside`). Making the file
gives such a tree (`Saving.create_eq_ok`), and each step after that keeps it
so (`Saving.Beside.fill`, `Saving.Beside.permit`). Hence the same holds
wherever a save has come to by then (`Saving.Reached.beside`), and two things
follow from it: what stands at the place of the target is what stood there
(`Saving.Reached.find?_target`), and to remove the temporary file gives the
disk that the save began on (`Saving.Reached.discard`).

The last step takes the temporary file out of the tree and puts what it holds
at the place of the target (`Saving.Beside.rename`). So a save that goes
through all of its steps ends there (`Saving.replace_eq_ok`), and a save that
does not changes nothing (`Saving.replace_eq_error`).
-/

namespace SwiftStyle

variable {d : Disk} {target : Path} {place : Place}
  {contents text : String} {s next : Saving}

/-! ## Making the file

The name of the file stands for one that is drawn at random until it is free.
It is none of the names in the directory and none on the path of the target.
-/

namespace Disk

theorem freshName_not_mem (taken : List String) : freshName taken ∉ taken := by
  intro h
  have hle : (freshName taken).toList.length
      ≤ (taken.map String.toList).flatten.length :=
    (List.sublist_flatten_of_mem (List.mem_map_of_mem h)).length_le
  have hlength : (freshName taken).toList.length
      = temporaryName.toList.length +
          (taken.map String.toList).flatten.length := by
    unfold freshName
    rw [String.toList_append, String.toList_ofList, List.length_append,
      List.length_replicate]
  have hpositive : 0 < temporaryName.toList.length := by decide
  omega

theorem roomIn_eq_ok {directory : Path} {bytes : Nat}
    {entries : List (String × Node)}
    (h : d.roomIn directory bytes = .ok (place, entries)) :
    d.tree.find? place = some (.directory entries) := by
  unfold roomIn at h
  obtain ⟨_, -, h⟩ := bind_eq_ok.1 h
  split at h
  · exact nomatch h
  obtain ⟨found, -, h⟩ := bind_eq_ok.1 h
  split at h
  next entries' hfind =>
    obtain ⟨rfl, rfl⟩ := Prod.mk.inj (Except.ok.inj h)
    exact hfind
  · exact nomatch h

/-- **A temporary file is made in a directory** that has nothing of its name,
and neither has the path of the target. -/
theorem temporaryPlace_eq_ok (h : d.temporaryPlace target = .ok place) :
    ∃ up name, place = up ++ [name] ∧ d.tree.hasDirectory up ∧
      d.tree.find? (up ++ [name]) = none ∧
      name ∉ (Path.segments target.text.toList).map String.ofList := by
  unfold temporaryPlace at h
  dsimp only at h
  split at h
  next up entries hroom =>
    have hfind := roomIn_eq_ok hroom
    have hfresh := freshName_not_mem (entries.map (·.1) ++
      (Path.segments target.text.toList).map String.ofList)
    rw [List.mem_append, not_or] at hfresh
    refine ⟨up, _, (Except.ok.inj h).symm, ?_, ?_, hfresh.2⟩
    · unfold Node.hasDirectory
      rw [hfind]
      rfl
    · rw [Node.find?_append, hfind, Option.bind_some, Node.find?_cons]
      rw [Option.bind_eq_none_iff]
      intro child hchild
      exact absurd (List.mem_map_of_mem (Node.mem_entries_of_child? hchild))
        hfresh.1
  · exact nomatch h

theorem fault_eq_none (h : ∀ step, d.checkFault step = .ok ()) :
    d.fault d.saves = none := by
  cases hfault : d.fault d.saves with
  | none => rfl
  | some fault => simpa [checkFault, hfault] using h fault.step

theorem filePlace_of_renamePlace (h : d.renamePlace p = .ok place) :
    d.filePlace p = .ok place := by
  unfold renamePlace at h
  split at h
  · exact nomatch h
  · exact h

end Disk

namespace Saving

/-- **A save before its last step**: the disk that it began on, but for a
temporary file with a text. -/
inductive Beside (d : Disk) (target : Path) (text : String) : Saving → Prop
  /-- The file is in a directory that had nothing of its name, which is no
  segment of the path of the target. -/
  | intro {up : Place} {name : String} (hup : d.tree.hasDirectory up)
      (hfresh : d.tree.find? (up ++ [name]) = none)
      (hname : name ∉ (Path.segments target.text.toList).map String.ofList) :
      Beside d target text
        ⟨{ d with
            tree := d.tree.set (up ++ [name]) (.file (.text text)) },
         up ++ [name]⟩

/-- **The first step makes an empty file.** -/
theorem create_eq_ok (h : create d target = .ok s) :
    d.checkFault .create = .ok () ∧ s.Beside d target "" := by
  obtain ⟨⟨⟩, hfault, h⟩ := Disk.bind_eq_ok.1 h
  obtain ⟨place, hplace, h⟩ := Disk.bind_eq_ok.1 h
  obtain ⟨up, name, rfl, hup, hfresh, hname⟩ :=
    Disk.temporaryPlace_eq_ok hplace
  obtain rfl := Except.ok.inj h
  exact ⟨hfault, .intro hup hfresh hname⟩

namespace Beside

/-- **The second step changes the text** of the temporary file only. -/
theorem fill (h : s.Beside d target text)
    (hnext : s.fill contents = .ok next) :
    d.checkFault .fill = .ok () ∧ next.Beside d target contents := by
  obtain ⟨hup, hfresh, hname⟩ := h
  obtain ⟨⟨⟩, hfault, hnext⟩ := Disk.bind_eq_ok.1 hnext
  obtain rfl := Except.ok.inj hnext
  rw [Node.set_set]
  exact ⟨hfault, .intro hup hfresh hname⟩

/-- The third step changes nothing in the tree. -/
theorem permit (h : s.Beside d target text) (hnext : s.permit = .ok next) :
    d.checkFault .permit = .ok () ∧ next.Beside d target text := by
  obtain ⟨⟨⟩, hfault, hnext⟩ := Disk.bind_eq_ok.1 hnext
  obtain rfl := Except.ok.inj hnext
  refine ⟨?_, h⟩
  cases h
  exact hfault

/-- **To remove the temporary file** gives the disk before. -/
theorem discard (h : s.Beside d target text) : s.discard = d := by
  obtain ⟨hup, hfresh, -⟩ := h
  unfold Saving.discard
  rw [Node.erase_set hup hfresh]

/-- **The last step puts the text in the place of the target**, and takes the
temporary file away. -/
theorem rename {after : Disk} (h : s.Beside d target text)
    (hafter : s.rename target = .ok after) :
    d.checkFault .rename = .ok () ∧
      ∃ place, d.filePlace target = .ok place ∧
        after = { d with
          tree := d.tree.set place (.file (.text text)) } := by
  have hdiscard := h.discard
  unfold Saving.rename at hafter
  rw [hdiscard] at hafter
  cases h with
  | intro hup hfresh hname =>
    obtain ⟨⟨⟩, hfault, hafter⟩ := Disk.bind_eq_ok.1 hafter
    rw [Node.find?_set_self] at hafter
    obtain ⟨place, hplace, hafter⟩ := Disk.bind_eq_ok.1 hafter
    exact ⟨hfault, place, Disk.filePlace_of_renamePlace hplace,
      (Except.ok.inj hafter).symm⟩

/-- **The temporary file is apart from the target.** -/
theorem find?_target (h : s.Beside d target text)
    (hplace : d.filePlace target = .ok place) :
    s.disk.tree.find? place = d.tree.find? place := by
  obtain ⟨front, name, above, hnames, rfl⟩ := Disk.exists_names hplace
  cases h with
  | @intro up other hup hfresh hname =>
    have hfree : ¬ d.tree.hasDirectory (up ++ [other]) := by
      unfold Node.hasDirectory
      rw [hfresh]
      exact nofun
    refine Node.find?_set_file hfree fun hprefix => ?_
    rcases List.prefix_concat_iff.1 hprefix with heq | habove
    · -- it would have the name that the path of the target ends with
      obtain ⟨-, hsame⟩ := List.append_inj' heq rfl
      refine hname ?_
      rw [hnames.segments, List.map_append, ← List.singleton_inj.1 hsame]
      simp
    · exact hnames.free (Node.hasDirectory_of_prefix hup habove)

end Beside

/-! ## Every step before the last

The states that a save goes through are those that the steps reach in any
number; the program takes each step once. -/

/-- **What a save reaches** before its last step. -/
inductive Reached (d : Disk) (target : Path) (contents : String) :
    Saving → Prop
  /-- The temporary file has been made. -/
  | create {s : Saving} (h : create d target = .ok s) :
      Reached d target contents s
  /-- The text has been written to it. -/
  | fill {s next : Saving} (h : Reached d target contents s)
      (hnext : s.fill contents = .ok next) : Reached d target contents next
  /-- It has taken over the permissions. -/
  | permit {s next : Saving} (h : Reached d target contents s)
      (hnext : s.permit = .ok next) : Reached d target contents next

namespace Reached

/-- **Nothing is new but the temporary file.** -/
theorem beside (h : Reached d target contents s) :
    ∃ text, s.Beside d target text := by
  induction h with
  | create h => exact ⟨_, (create_eq_ok h).2⟩
  | fill _ hnext ih =>
    obtain ⟨text, hs⟩ := ih
    exact ⟨_, (hs.fill hnext).2⟩
  | permit _ hnext ih =>
    obtain ⟨text, hs⟩ := ih
    exact ⟨_, (hs.permit hnext).2⟩

/-- **No step before the last touches the target.** -/
theorem find?_target (h : Reached d target contents s)
    (hplace : d.filePlace target = .ok place) :
    s.disk.tree.find? place = d.tree.find? place := by
  obtain ⟨text, hs⟩ := h.beside
  exact hs.find?_target hplace

/-- **Wherever a save fails, the disk is restored.** -/
theorem discard (h : Reached d target contents s) : s.discard = d := by
  obtain ⟨text, hs⟩ := h.beside
  exact hs.discard

end Reached

/-! ## A save as a whole

The steps are chained, so what succeeds is taken apart from the front, and
what fails has failed at one of them. -/

theorem mapError_eq_ok {ε ε' α : Type} {f : ε → ε'} {x : Except ε α} {a : α} :
    x.mapError f = .ok a ↔ x = .ok a := by
  cases x <;> simp [Except.mapError]

/-- A step that fails leaves the disk that the save began on. -/
theorem Beside.of_orDiscard {α : Type} {outcome : Except IoError α}
    {cause : IoError} {after : Disk} (h : s.Beside d target text)
    (hfailed : s.orDiscard outcome = .error (cause, after)) : after = d := by
  cases outcome with
  | ok a => exact nomatch hfailed
  | error e =>
    obtain ⟨-, rfl⟩ := Prod.mk.inj (Except.error.inj hfailed)
    exact h.discard

/-- **A save that succeeds has gone through all of its steps**, and has put
the text in the place of the target. -/
theorem replace_eq_ok {after : Disk}
    (h : replace d target contents = .ok after) :
    d.fault d.saves = none ∧ ∃ place, d.filePlace target = .ok place ∧
      after = { d with
        tree := d.tree.set place (.file (.text contents)) } := by
  obtain ⟨made, hmade, h⟩ := Disk.bind_eq_ok.1 h
  obtain ⟨filled, hfilled, h⟩ := Disk.bind_eq_ok.1 h
  obtain ⟨permitted, hpermitted, h⟩ := Disk.bind_eq_ok.1 h
  obtain ⟨hcreate, hs⟩ := create_eq_ok (mapError_eq_ok.1 hmade)
  obtain ⟨hfill, hs⟩ := hs.fill (mapError_eq_ok.1 hfilled)
  obtain ⟨hpermit, hs⟩ := hs.permit (mapError_eq_ok.1 hpermitted)
  obtain ⟨hrename, hplace⟩ := hs.rename (mapError_eq_ok.1 h)
  refine ⟨Disk.fault_eq_none fun step => ?_, hplace⟩
  cases step with
  | create => exact hcreate
  | fill => exact hfill
  | permit => exact hpermit
  | rename => exact hrename

/-- **A save that fails changes nothing**, whatever step it fails at. -/
theorem replace_eq_error {cause : IoError} {after : Disk}
    (h : replace d target contents = .error (cause, after)) : after = d := by
  obtain hfailed | ⟨made, hmade, h⟩ := Disk.bind_eq_error h
  · -- there is no temporary file yet
    cases hmade : create d target with
    | ok made =>
      rw [hmade] at hfailed
      exact nomatch hfailed
    | error e =>
      rw [hmade] at hfailed
      exact (Prod.mk.inj (Except.error.inj hfailed)).2.symm
  obtain ⟨-, hs⟩ := create_eq_ok (mapError_eq_ok.1 hmade)
  obtain hfailed | ⟨filled, hfilled, h⟩ := Disk.bind_eq_error h
  · exact hs.of_orDiscard hfailed
  obtain ⟨-, hs⟩ := hs.fill (mapError_eq_ok.1 hfilled)
  obtain hfailed | ⟨permitted, hpermitted, h⟩ := Disk.bind_eq_error h
  · exact hs.of_orDiscard hfailed
  obtain ⟨-, hs⟩ := hs.permit (mapError_eq_ok.1 hpermitted)
  exact hs.of_orDiscard h

end Saving
end SwiftStyle
