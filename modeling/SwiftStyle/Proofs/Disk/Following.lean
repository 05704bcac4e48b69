import SwiftStyle.Proofs.Disk.Tree
import SwiftStyle.Proofs.Path.Segments

/-!
# Where paths lead to

A path leads to a place in **steps**, one for each of its segments, and each
step starts from a directory (`Disk.Step`). So a path leads where its front
leads and then where the rest does from there (`Disk.follow_append_eq_ok`),
idle segments lead nowhere else, and to write a name behind a path is to
make one more step (`Disk.locate_join_eq_ok`).

A path that leads to a file leads, without its last component, to the
directory of the file (`Disk.locate_parent?`), unless it is a bare name: then
what is left is the empty path.

All of this is proved of `Disk.follow`, which works on segments and places and
knows neither the length of a path nor whether it holds the NUL character.
`Disk.locate` is that function on the segments of a path, from the root or
from the current directory, and `Disk.resolve` adds the checks of the path as
a whole.
-/

namespace SwiftStyle.Disk

variable {d : Disk} {tree : Node} {p : Path} {place next last : Place}
  {s : List Char} {front rest idle : List (List Char)} {name more : String}

/-! ## Steps

`Disk.follow` branches on the kind of each segment and fails in four ways. Of
a run that succeeds none of that is left: it is a sequence of steps, and later
proofs only ever take a step apart or put one more behind
(`Disk.follow_cons_eq_ok`). -/

/-- **A step from a directory to the place that a segment leads to.** -/
inductive Step (tree : Node) : List Char → Place → Place → Prop
  /-- An idle segment leads to the directory itself. -/
  | idle {s : List Char} {place : Place} (h : tree.hasDirectory place)
      (hs : Path.isIdle s) : Step tree s place place
  /-- Two dots lead to the directory above. -/
  | parent {place : Place} (h : tree.hasDirectory place) :
      Step tree ['.', '.'] place place.dropLast
  /-- A name leads to what has it. -/
  | name {s : List Char} {place : Place} (h : tree.hasDirectory place)
      (hs : ¬ Path.isIdle s) (hparent : s ≠ ['.', '.'])
      (hlong : ¬ isLongName (String.ofList s))
      (hfound : (tree.find? (place ++ [String.ofList s])).isSome) :
      Step tree s place (place ++ [String.ofList s])

theorem Step.hasDirectory (h : Step tree s place next) :
    tree.hasDirectory place := by
  cases h <;> assumption

theorem Step.isSome_find? (h : Step tree s place next) :
    (tree.find? next).isSome := by
  have hplace : (tree.find? place).isSome :=
    Option.isSome_of_any h.hasDirectory
  cases h with
  | idle => exact hplace
  | parent h =>
    have := Node.hasDirectory_of_prefix h (List.dropLast_prefix place)
    exact Option.isSome_of_any this
  | name _ _ _ _ hfound => exact hfound

/-- **A name leads to what has it, and nowhere else.** -/
theorem step_name_iff (hname : IsName name) :
    Step tree name.toList place next
      ↔ next = place ++ [name] ∧ (tree.find? next).isSome := by
  constructor
  · intro h
    generalize hs : name.toList = s at h
    cases h with
    | idle _ hidle => exact absurd (hs ▸ hidle) hname.not_idle
    | parent => exact absurd hs hname.ne_parent
    | name _ _ _ _ hfound =>
      subst hs
      rw [String.ofList_toList] at hfound ⊢
      exact ⟨rfl, hfound⟩
  · rintro ⟨rfl, hfound⟩
    have hname' : String.ofList name.toList = name := String.ofList_toList
    have hdir := Node.hasDirectory_of_find? (List.cons_ne_nil name []) hfound
    rw [← hname'] at hfound
    have := Step.name hdir hname.not_idle hname.ne_parent
      (hname'.symm ▸ hname.not_long) hfound
    rwa [hname'] at this

/-- What is followed from a directory. -/
theorem follow_cons (h : tree.hasDirectory place) :
    follow tree (s :: rest) place
      = if Path.isIdle s then follow tree rest place
        else if s = ['.', '.'] then follow tree rest place.dropLast
        else if isLongName (String.ofList s) then .error .nameTooLong
        else if (tree.find? (place ++ [String.ofList s])).isSome then
          follow tree rest (place ++ [String.ofList s])
        else .error .notFound := by
  obtain ⟨node, hfind, hnode⟩ := (Option.any_eq_true _ _).1 h
  cases node with
  | file data => exact nomatch hnode
  | directory entries => rw [follow, hfind]

theorem hasDirectory_of_follow (h : follow tree (s :: rest) place = .ok last) :
    tree.hasDirectory place := by
  rw [follow] at h
  split at h
  · exact nomatch h
  · exact nomatch h
  next hfind => exact (Option.any_eq_true _ _).2 ⟨_, hfind, rfl⟩

/-- **To follow segments is to make a step for each.** -/
theorem follow_cons_eq_ok :
    follow tree (s :: rest) place = .ok last
      ↔ ∃ next, Step tree s place next ∧ follow tree rest next = .ok last := by
  constructor
  · intro h
    have hdir := hasDirectory_of_follow h
    rw [follow_cons hdir] at h
    by_cases hs : Path.isIdle s
    · rw [if_pos hs] at h
      exact ⟨place, .idle hdir hs, h⟩
    rw [if_neg hs] at h
    by_cases hparent : s = ['.', '.']
    · rw [if_pos hparent] at h
      exact ⟨place.dropLast, hparent ▸ .parent hdir, h⟩
    rw [if_neg hparent] at h
    by_cases hlong : isLongName (String.ofList s)
    · rw [if_pos hlong] at h
      exact nomatch h
    rw [if_neg hlong] at h
    by_cases hfound : (tree.find? (place ++ [String.ofList s])).isSome
    · rw [if_pos hfound] at h
      exact ⟨_, .name hdir hs hparent hlong hfound, h⟩
    · rw [if_neg hfound] at h
      exact nomatch h
  · rintro ⟨next, hstep, h⟩
    rw [follow_cons hstep.hasDirectory]
    cases hstep with
    | idle _ hs => rw [if_pos hs, h]
    | parent => exact h
    | name _ hs hparent hlong hfound =>
      rw [if_neg hs, if_neg hparent, if_neg hlong, if_pos hfound, h]

/-- **What is followed in two parts** leads where the first part does, and
from there where the second does. -/
theorem follow_append_eq_ok :
    follow tree (front ++ rest) place = .ok last
      ↔ ∃ next, follow tree front place = .ok next ∧
          follow tree rest next = .ok last := by
  induction front generalizing place with
  | nil => simp [follow]
  | cons s front ih =>
    simp only [List.cons_append, follow_cons_eq_ok, ih]
    grind

theorem isSome_find?_of_follow (hfront : front ≠ [])
    (h : follow tree front place = .ok last) : (tree.find? last).isSome := by
  obtain ⟨front, s, rfl⟩ := (List.eq_nil_or_concat front).resolve_left hfront
  rw [List.concat_eq_append, follow_append_eq_ok] at h
  obtain ⟨between, -, h⟩ := h
  obtain ⟨next, hstep, h⟩ := follow_cons_eq_ok.1 h
  obtain rfl := Except.ok.inj h
  exact hstep.isSome_find?

/-- **Idle segments lead to the directory itself.** -/
theorem follow_idle (hidle : ∀ s ∈ idle, Path.isIdle s)
    (h : tree.hasDirectory place) : follow tree idle place = .ok place := by
  induction idle with
  | nil => rfl
  | cons s idle ih =>
    obtain ⟨hs, hidle⟩ := List.forall_mem_cons.1 hidle
    exact follow_cons_eq_ok.2 ⟨place, .idle h hs, ih hidle⟩

theorem eq_of_follow_idle (hidle : ∀ s ∈ idle, Path.isIdle s)
    (h : follow tree idle place = .ok last) : last = place := by
  cases idle with
  | nil => exact (Except.ok.inj h).symm
  | cons s idle =>
    have hdir := hasDirectory_of_follow h
    rw [follow_idle hidle hdir] at h
    exact (Except.ok.inj h).symm

/-! ## Paths

To write something behind a path that does not end in a slash takes a slash
in between. Whether there is one already makes an idle segment of difference,
which is why the lemmas on joined paths go by the segments in two parts. -/

theorem checkPath_eq_ok :
    checkPath p = .ok () ↔ '\x00' ∉ p.text.toList ∧
      p.text.utf8ByteSize ≤ maxPathBytes ∧ p.text ≠ "" := by
  unfold checkPath
  split
  next h => simp_all
  next h =>
    split
    next hlong => simp; omega
    next hlong =>
      split
      next hempty => simp_all
      next hempty => simp_all

theorem resolve_eq_ok :
    d.resolve p = .ok place
      ↔ checkPath p = .ok () ∧ d.locate p = .ok place := by
  unfold resolve
  cases checkPath p with
  | error e => exact ⟨fun h => (nomatch h), fun h => (nomatch h.1)⟩
  | ok _ => exact ⟨fun h => ⟨rfl, h⟩, fun h => h.2⟩

/-- What stands at a path is found at a place that it leads to. -/
theorem node?_eq_some {node : Node} :
    d.node? p = some node ↔ ∃ place, checkPath p = .ok () ∧
      d.locate p = .ok place ∧ d.tree.find? place = some node := by
  unfold node?
  constructor
  · intro h
    split at h
    next place hplace =>
      obtain ⟨hcheck, hlocate⟩ := resolve_eq_ok.1 hplace
      exact ⟨place, hcheck, hlocate, h⟩
    · exact nomatch h
  · rintro ⟨place, hcheck, hlocate, h⟩
    rwa [resolve_eq_ok.2 ⟨hcheck, hlocate⟩]

theorem isSome_find?_of_locate (h : d.locate p = .ok place) :
    (d.tree.find? place).isSome :=
  isSome_find?_of_follow (Path.segments_ne_nil _) h

/-- **A path below another leads on from where the other leads to.** -/
theorem locate_join_eq_ok (hmore : (⟨more⟩ : Path).isAbsolute = false) :
    d.locate (p.join more) = .ok last
      ↔ ∃ place, d.locate p = .ok place ∧
          follow d.tree (Path.segments more.toList) place = .ok last := by
  unfold locate
  rw [Path.isAbsolute_join hmore]
  obtain hjoin | ⟨front, hp, hjoin⟩ := Path.segments_join (p := p) hmore
  · rw [hjoin, follow_append_eq_ok]
  · -- the empty segment at the end of the path leads nowhere else
    rw [hjoin, hp, follow_append_eq_ok]
    refine exists_congr fun next => and_congr_left fun h => ?_
    obtain ⟨s, rest, hs⟩ :=
      List.exists_cons_of_ne_nil (Path.segments_ne_nil more.toList)
    have hdir : d.tree.hasDirectory next := hasDirectory_of_follow (hs ▸ h)
    have hidle : ∀ s ∈ [[]], Path.isIdle s := by simp [Path.isIdle]
    rw [follow_append_eq_ok]
    constructor
    · exact fun hfront => ⟨next, hfront, follow_idle hidle hdir⟩
    · rintro ⟨between, hfront, hbetween⟩
      rwa [eq_of_follow_idle hidle hbetween]

theorem locate_slash (h : d.tree.hasDirectory []) :
    d.locate ⟨"/"⟩ = .ok [] := by
  have hidle : ∀ s ∈ [[], []], Path.isIdle s := by simp [Path.isIdle]
  exact follow_idle hidle h

/-- **To write a name behind a path is to make one more step.** -/
theorem locate_join_name_eq_ok (hp : d.locate p = .ok place)
    (hname : IsName name) :
    d.locate (p.join name) = .ok last
      ↔ last = place ++ [name] ∧ (d.tree.find? last).isSome := by
  rw [locate_join_eq_ok hname.not_isAbsolute,
    Path.segments_of_not_mem hname.not_slash, ← step_name_iff hname]
  constructor
  · rintro ⟨between, hbetween, h⟩
    obtain rfl := Except.ok.inj (hp.symm.trans hbetween)
    obtain ⟨next, hstep, h⟩ := follow_cons_eq_ok.1 h
    exact Except.ok.inj h ▸ hstep
  · exact fun h => ⟨place, hp, follow_cons_eq_ok.2 ⟨last, h, rfl⟩⟩

/-- What a disk has at a path with a name behind it is what it has there. -/
theorem node?_join (hp : d.locate p = .ok place) (hname : IsName name)
    (hcheck : checkPath (p.join name) = .ok ()) :
    d.node? (p.join name) = d.tree.find? (place ++ [name]) := by
  refine Option.ext fun node => ?_
  rw [node?_eq_some]
  constructor
  · rintro ⟨last, -, hlast, hfind⟩
    obtain ⟨rfl, -⟩ := (locate_join_name_eq_ok hp hname).1 hlast
    exact hfind
  · intro hfind
    have hlast := (locate_join_name_eq_ok hp hname).2
      ⟨rfl, Option.isSome_of_eq_some hfind⟩
    exact ⟨_, hcheck, hlast, hfind⟩

/-! ## The path without its last component

The last component of a path is what is left when idle segments at its end
are passed over. For a path to a file there are none: every segment, an idle
one too, asks for a directory to stand where it is met, and a file is none. So
the last segment is the name of the file, and those in front of it lead to its
directory. What remains is to see that the path that is left is read as those
segments again, from the root or from the current directory. -/

/-- The last segment of a path to a file is the name of the file. -/
theorem Step.of_hasFile (h : Step tree s place next)
    (hfile : tree.hasFile next) :
    ¬ Path.isIdle s ∧ next = place ++ [String.ofList s] := by
  have hdir : ¬ tree.hasDirectory next := by
    unfold Node.hasFile at hfile
    unfold Node.hasDirectory
    cases hfind : tree.find? next <;> simp_all
  cases h with
  | idle h hs => exact absurd h hdir
  | parent h =>
    exact absurd (Node.hasDirectory_of_prefix h (List.dropLast_prefix place))
      hdir
  | name h hs => exact ⟨hs, rfl⟩

/-- Idle segments may be dropped at the end. -/
theorem follow_dropIdle (h : follow tree (s :: rest) place = .ok last) :
    follow tree (s :: Path.dropIdle rest) place = .ok last := by
  obtain ⟨idle, hrest, hidle⟩ := Path.exists_dropIdle rest
  rw [hrest, ← List.cons_append, follow_append_eq_ok] at h
  obtain ⟨next, hnext, h⟩ := h
  rwa [eq_of_follow_idle hidle h]

/-- A path that leads to a file is a front that leads to the directory of the
file, and a name. -/
theorem exists_segments_of_locate (h : d.locate p = .ok place)
    (hfile : d.tree.hasFile place) :
    ∃ front last, Path.segments p.text.toList = front ++ [last] ∧
      ¬ Path.isIdle last ∧ d.tree.hasDirectory place.dropLast ∧
      follow d.tree front (if p.isAbsolute then [] else d.current)
        = .ok place.dropLast := by
  obtain ⟨front, last, hsegments⟩ :=
    (List.eq_nil_or_concat _).resolve_left (Path.segments_ne_nil p.text.toList)
  rw [List.concat_eq_append] at hsegments
  unfold locate at h
  rw [hsegments, follow_append_eq_ok] at h
  obtain ⟨up, hup, h⟩ := h
  obtain ⟨next, hstep, h⟩ := follow_cons_eq_ok.1 h
  obtain rfl := Except.ok.inj h
  obtain ⟨hlast, rfl⟩ := hstep.of_hasFile hfile
  rw [List.dropLast_concat]
  exact ⟨front, last, hsegments, hlast, hstep.hasDirectory, hup⟩

theorem locate_eq (h : Path.segments p.text.toList = s :: rest) :
    d.locate p = follow d.tree (s :: rest)
      (if s.isEmpty && !rest.isEmpty then [] else d.current) := by
  unfold locate
  rw [h, Path.isAbsolute_eq h]

/-- What is left of a path leads where it led, segment by segment. -/
theorem locate_ofList_joinSegments (hs : s ≠ [])
    (hall : ∀ t ∈ s :: rest, '/' ∉ t) :
    d.locate ⟨String.ofList (Path.joinSegments (s :: rest))⟩
      = follow d.tree (s :: rest) d.current := by
  have hsegments : Path.segments (Path.mk
      (String.ofList (Path.joinSegments (s :: rest)))).text.toList
      = s :: rest := by
    rw [String.toList_ofList]
    exact Path.segments_joinSegments hall (List.cons_ne_nil s rest)
  rw [locate_eq hsegments]
  simp [hs]

/-- Behind a slash it leads there from the root. -/
theorem locate_ofList_slash (hall : ∀ t ∈ rest, '/' ∉ t)
    (hdir : d.tree.hasDirectory place)
    (h : follow d.tree ([] :: rest) [] = .ok place) :
    d.locate ⟨String.ofList ('/' :: Path.joinSegments rest)⟩ = .ok place := by
  by_cases hrest : rest = []
  · subst hrest
    have hsegments : Path.segments (Path.mk (String.ofList
        ('/' :: Path.joinSegments []))).text.toList = [[], []] := by
      rw [String.toList_ofList]
      rfl
    rw [locate_eq hsegments]
    -- the empty segment behind the slash leads nowhere else
    exact follow_append_eq_ok.2
      ⟨place, h, follow_idle (by simp [Path.isIdle]) hdir⟩
  · have hsegments : Path.segments (Path.mk (String.ofList
        ('/' :: Path.joinSegments rest))).text.toList = [] :: rest := by
      rw [String.toList_ofList]
      exact congrArg ([] :: ·) (Path.segments_joinSegments hall hrest)
    rw [locate_eq hsegments]
    simpa [hrest] using h

/-- **Without its last component, a path to a file leads to the directory of
the file**, or is empty if the path is a bare name. -/
theorem locate_parent? (h : d.locate p = .ok place)
    (hfile : d.tree.hasFile place) :
    d.tree.hasDirectory place.dropLast ∧ ∃ q, p.parent? = some q ∧
      if '/' ∈ p.text.toList then
        q.text ≠ "" ∧ d.locate q = .ok place.dropLast
      else q = ⟨""⟩ ∧ place.dropLast = d.current := by
  obtain ⟨front, last, hsegments, hlast, hdir, hfront⟩ :=
    exists_segments_of_locate h hfile
  refine ⟨hdir, ?_⟩
  rcases front with _ | ⟨s, body⟩
  · have habsolute : p.isAbsolute = false := by
      simp [Path.isAbsolute_eq hsegments]
    rw [habsolute] at hfront
    refine ⟨_, Path.parent?_bare hsegments hlast, ?_⟩
    rw [if_neg (Path.not_mem_of_singleton hsegments)]
    exact ⟨rfl, (Except.ok.inj hfront).symm⟩
  have hkept := follow_dropIdle hfront
  have hall : ∀ t ∈ s :: Path.dropIdle body, '/' ∉ t := by
    intro t ht
    have hmem : t ∈ s :: body := List.mem_cons.2
      ((List.mem_cons.1 ht).imp_right Path.mem_of_mem_dropIdle)
    have hsegment : t ∈ Path.segments p.text.toList :=
      hsegments ▸ List.mem_append_left [last] hmem
    exact Path.not_mem_of_mem_segments hsegment
  rw [Path.isAbsolute_eq hsegments] at hkept
  simp only [Path.mem_of_append hsegments, if_true]
  by_cases hs : s = []
  · subst hs
    refine ⟨_, Path.parent?_absolute hsegments hlast, by simp, ?_⟩
    simp at hkept
    exact locate_ofList_slash (List.forall_mem_cons.1 hall).2 hdir hkept
  · refine ⟨_, Path.parent?_relative hsegments hs hlast, ?_, ?_⟩
    · rw [Ne, String.ofList_eq_empty_iff]
      exact Path.joinSegments_ne_nil hs
    · rw [locate_ofList_joinSegments hs hall]
      simpa [hs] using hkept

end SwiftStyle.Disk
