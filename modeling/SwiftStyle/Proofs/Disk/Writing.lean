import SwiftStyle.Proofs.Disk.AbsolutePath
import SwiftStyle.Proofs.Disk.Setting

/-!
# Where a file is written

A path that a file can be written to has a directory before its last name:
the segments in front of the name lead to the directory, and the name is a
component that no directory has there (`Disk.Names`). These facts are read off
the checks of `Disk.filePlace` once, in `Disk.exists_names`.

The file is then read back where it was written. The segments in front lead
where they led before, since no file stands in the way of a step from one
directory to another (`Disk.follow_set_file`), and the name at the end is one
more step, to the new file (`Disk.Names.resolve`). So if the path led to
something before, it led to the file that is replaced
(`Disk.Names.eq_of_locate`).
-/

namespace SwiftStyle.Disk

variable {d : Disk} {tree : Node} {p : Path} {place up last : Place}
  {text name : List Char} {front segments : List (List Char)}
  {data : FileData} {contents : String}

/-- **Where a path has a file written**: in the directory that all but the
last of its segments lead to, and under the name that is the last. -/
structure Names (d : Disk) (p : Path) (front : List (List Char))
    (name : List Char) (up : Place) : Prop where
  /-- The path is one. -/
  check : checkPath p = .ok ()
  /-- The name is the last of its segments. -/
  segments : Path.segments p.text.toList = front ++ [name]
  /-- The others lead to where the file is written. -/
  follow : follow d.tree front (if p.isAbsolute then [] else d.current)
    = .ok up
  /-- The name is a component. -/
  not_idle : ¬ Path.isIdle name
  /-- It does not stand for the parent directory. -/
  ne_parent : name ≠ ['.', '.']
  /-- It is not too long. -/
  not_long : ¬ isLongName (String.ofList name)
  /-- No directory has it. -/
  free : ¬ d.tree.hasDirectory (up ++ [String.ofList name])

/-- A text ends with a name, and what is before it, if anything, ends with a
slash. -/
theorem exists_last_name (text : List Char) :
    ∃ front name, text = front ++ name ∧
      text.rdropWhile (· != '/') = front ∧ text.drop front.length = name ∧
      '/' ∉ name ∧ (front ≠ [] → front.getLast? = some '/') := by
  have hsplit : text.rdropWhile (· != '/') ++ text.rtakeWhile (· != '/')
      = text := List.rdropWhile_append_rtakeWhile
  refine ⟨_, _, hsplit.symm, rfl, ?_, fun h => ?_, fun h => ?_⟩
  · have hdrop :=
      congrArg (List.drop (text.rdropWhile (· != '/')).length) hsplit
    rw [List.drop_left] at hdrop
    exact hdrop.symm
  · exact absurd (List.mem_rtakeWhile_imp h) (by simp)
  · rw [List.getLast?_eq_some_getLast h]
    simpa using List.rdropWhile_last_not (· != '/') text h

theorem follow_segments_slash {start : Place}
    (h : follow tree (Path.segments (text ++ ['/'])) start = .ok up) :
    follow tree (Path.segments text) start = .ok up := by
  rw [Path.segments_append, follow_append_eq_ok] at h
  obtain ⟨between, hbetween, h⟩ := h
  have hidle : ∀ s ∈ Path.segments [], Path.isIdle s := by
    simp [Path.segments, Path.isIdle]
  rwa [eq_of_follow_idle hidle h]

/-- What a text in front of a name leads to, its segments lead to. -/
theorem exists_follow_of_front {front name : List Char}
    (htext : p.text.toList = front ++ name) (hname : '/' ∉ name)
    (hlast : front ≠ [] → front.getLast? = some '/')
    (hup : if front = [] then up = if p.isAbsolute then [] else d.current
      else d.resolve ⟨String.ofList front⟩ = .ok up) :
    ∃ segments, Path.segments p.text.toList = segments ++ [name] ∧
      follow d.tree segments (if p.isAbsolute then [] else d.current)
        = .ok up := by
  by_cases hempty : front = []
  · subst hempty
    rw [if_pos rfl] at hup
    refine ⟨[], ?_, congrArg _ hup.symm⟩
    rw [htext]
    exact Path.segments_of_not_mem hname
  · rw [if_neg hempty] at hup
    obtain ⟨body, rfl⟩ := List.getLast?_eq_some_iff.1 (hlast hempty)
    obtain ⟨-, hlocate⟩ := resolve_eq_ok.1 hup
    have habsolute : Path.isAbsolute ⟨String.ofList (body ++ ['/'])⟩
        = p.isAbsolute := by
      unfold Path.isAbsolute
      rw [htext]
      cases body <;> simp
    unfold locate at hlocate
    rw [habsolute, String.toList_ofList] at hlocate
    refine ⟨Path.segments body, ?_, follow_segments_slash hlocate⟩
    rw [htext, List.append_assoc, ← Path.segments_of_not_mem hname]
    exact Path.segments_append body name

theorem bind_eq_ok {ε α β : Type} {x : Except ε α} {f : α → Except ε β}
    {b : β} : x >>= f = .ok b ↔ ∃ a, x = .ok a ∧ f a = .ok b := by
  cases x with
  | error e => exact ⟨fun h => (nomatch h), fun ⟨_, h, _⟩ => (nomatch h)⟩
  | ok a =>
    constructor
    · exact fun h => ⟨a, rfl, h⟩
    · rintro ⟨_, h, hb⟩
      obtain rfl := Except.ok.inj h
      exact hb

theorem bind_eq_error {ε α β : Type} {x : Except ε α} {f : α → Except ε β}
    {e : ε} (h : x >>= f = .error e) :
    x = .error e ∨ ∃ a, x = .ok a ∧ f a = .error e := by
  cases x with
  | error e' => exact .inl (congrArg Except.error (Except.error.inj h))
  | ok a => exact .inr ⟨a, rfl, h⟩

/-- Two ways to begin, after which the steps are the same. -/
theorem exists_of_branch {α β : Type} {c : Prop} [Decidable c]
    {x y : Except IoError α} {f : α → Except IoError β} {b : β}
    (h : (if c then x >>= f else y >>= f) = .ok b) :
    ∃ a, (if c then x else y) = .ok a ∧ f a = .ok b := by
  split at h
  next hc =>
    rw [if_pos hc]
    exact bind_eq_ok.1 h
  next hc =>
    rw [if_neg hc]
    exact bind_eq_ok.1 h

/-- **A file is written where its path names it.** -/
theorem exists_names (h : d.filePlace p = .ok place) :
    ∃ front name up, d.Names p front name up ∧
      place = up ++ [String.ofList name] := by
  unfold filePlace at h
  dsimp only at h
  obtain ⟨front, name, htext, hfront, hname, hslash, hlast⟩ :=
    exists_last_name (p.text.toList.rdropWhile (· == '/'))
  have hstem := p.text.toList.rdropWhile_prefix (p := (· == '/'))
  rw [htext] at hstem
  unfold List.rdropWhile at htext hfront hname
  rw [hfront, hname, htext] at h
  obtain ⟨_, hcheck, h⟩ := bind_eq_ok.1 h
  -- whichever way the directory is found, the same checks follow
  obtain ⟨up, hfound, h⟩ := exists_of_branch h
  have hup : if front = [] then up = if p.isAbsolute then [] else d.current
      else d.resolve ⟨String.ofList front⟩ = .ok up := by
    by_cases hempty : front = []
    · rw [if_pos (by rw [hempty]; rfl)] at hfound
      rw [if_pos hempty]
      exact (Except.ok.inj hfound).symm
    · rw [if_neg (by simpa using hempty)] at hfound
      rwa [if_neg hempty]
  simp only [bind, Except.bind, throw, throwThe, MonadExceptOf.throw, pure,
    Except.pure] at h
  split at h
  · exact nomatch h
  next hcomponent =>
  split at h
  · exact nomatch h
  next hlong =>
  split at h
  · exact nomatch h
  next hbare =>
  split at h
  · exact nomatch h
  next hdirectory =>
  obtain rfl := Except.ok.inj h
  rw [Bool.or_eq_true, decide_eq_true_eq, not_or] at hcomponent
  have hfree : ¬ d.tree.hasDirectory (up ++ [String.ofList name]) := by
    unfold Node.hasDirectory
    cases hfind : d.tree.find? (up ++ [String.ofList name]) with
    | none => simp
    | some node =>
      cases node with
      | file data => simp [Node.isDirectory]
      | directory entries => exact absurd hfind (hdirectory entries)
  -- no slash has been dropped at the end
  have hwhole : p.text.toList = front ++ name :=
    (hstem.eq_of_length_le (not_lt.1 hbare)).symm
  obtain ⟨segments, hsegments, hfollow⟩ :=
    exists_follow_of_front hwhole hslash hlast hup
  exact ⟨segments, name, up, ⟨hcheck, hsegments, hfollow, hcomponent.1,
    hcomponent.2, hlong, hfree⟩, rfl⟩

/-! ## Reading it back

A file changes the tree at one place where no directory was, and the steps of
a path meet directories only, until the last. -/

theorem read_eq_ok :
    d.read p = .ok contents ↔ ∃ place, d.resolve p = .ok place ∧
      d.tree.find? place = some (.file (.text contents)) := by
  unfold read
  rw [bind_eq_ok]
  refine exists_congr fun place => and_congr_right fun _ => ?_
  split <;> simp_all

/-- A new file is in no step's way. -/
theorem Step.set_file {s : List Char} {next : Place}
    (hplace : ¬ tree.hasDirectory place) (h : Step tree s up next) :
    Step (tree.set place (.file data)) s up next := by
  have hdir : (tree.set place (.file data)).hasDirectory up :=
    Node.hasDirectory_set_file hplace h.hasDirectory
  cases h with
  | idle _ hs => exact .idle hdir hs
  | parent => exact .parent hdir
  | name _ hs hparent hlong hfound =>
    exact .name hdir hs hparent hlong
      (Node.isSome_find?_set_file hplace hfound)

/-- **Where segments led, they still lead** after a file has been written. -/
theorem follow_set_file (hplace : ¬ tree.hasDirectory place)
    (h : follow tree segments up = .ok last) :
    follow (tree.set place (.file data)) segments up = .ok last := by
  induction segments generalizing up with
  | nil => exact h
  | cons s segments ih =>
    obtain ⟨next, hstep, h⟩ := follow_cons_eq_ok.1 h
    exact follow_cons_eq_ok.2 ⟨next, hstep.set_file hplace, ih h⟩

variable {after : Disk}

/-- **Where a file has been written, its path leads.** -/
theorem Names.resolve (h : d.Names p front name up)
    (htree : after.tree
      = d.tree.set (up ++ [String.ofList name]) (.file data))
    (hcurrent : after.current = d.current) :
    after.resolve p = .ok (up ++ [String.ofList name]) := by
  refine resolve_eq_ok.2 ⟨h.check, ?_⟩
  have hfound :
      (after.tree.find? (up ++ [String.ofList name])).isSome := by
    rw [htree, Node.find?_set_self]
    rfl
  have hdir := Node.hasDirectory_of_find? (List.cons_ne_nil _ []) hfound
  unfold locate
  rw [h.segments, hcurrent, htree, follow_append_eq_ok]
  refine ⟨up, follow_set_file h.free h.follow, follow_cons_eq_ok.2 ⟨_, ?_, rfl⟩⟩
  rw [htree] at hfound hdir
  exact .name hdir h.not_idle h.ne_parent h.not_long hfound

/-- If its path led to a file before, the file is the one that is written. -/
theorem Names.eq_of_locate (h : d.Names p front name up)
    (hlocate : d.locate p = .ok last) : last = up ++ [String.ofList name] := by
  unfold locate at hlocate
  rw [h.segments, follow_append_eq_ok, h.follow] at hlocate
  obtain ⟨between, hbetween, hlocate⟩ := hlocate
  obtain rfl := Except.ok.inj hbetween
  obtain ⟨next, hstep, hlocate⟩ := follow_cons_eq_ok.1 hlocate
  obtain rfl := Except.ok.inj hlocate
  cases hstep with
  | idle _ hs => exact absurd hs h.not_idle
  | parent => exact absurd rfl h.ne_parent
  | name => rfl

theorem canonical?_eq_some {q : Path} (h : d.canonical? p = some q) :
    ∃ place, d.locate p = .ok place ∧ q = pathOf place := by
  unfold canonical? at h
  split at h
  next place hplace =>
    dsimp only at h
    split at h
    · exact nomatch h
    · exact ⟨place, hplace, (Option.some.inj h).symm⟩
  · exact nomatch h

end SwiftStyle.Disk
