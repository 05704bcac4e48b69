import SwiftStyle.Proofs.Disk.Below
import SwiftStyle.Proofs.Glob.Plain

/-!
# Where the pattern of an extension leads to

The pattern of the files with an extension below a root is the root, two
asterisks, and a pattern for names that end with a dot and the extension. If
the root has only characters that stand for themselves, the pattern has the
segments of the root as names (`Glob.components?_extension`), and to walk them
is to follow the root (`Glob.walk_names`). What the pattern describes is then
what stands at any depth below the root and has such a name
(`Glob.mem_paths?_extension`).

A pattern is read twice: as a whole, to see that it is one, and piece by piece
between its slashes, for the walk. Both readings go through here, since a
pattern that cannot be read as a whole finds nothing.

The walk asks the disk at every step whether the path so far leads to
something, where following the path asks once at the end. The two agree
because a path that leads somewhere leads through directories on its way, and
because each shorter path passes the checks on names and lengths that the
longer one passes.
-/

namespace SwiftStyle.Glob

variable {d : Disk} {root p : Path} {name extension : String}
  {names : List String} {text : List Char} {tokens : List Token}
  {rest : List Component} {place last : Place}

/-! ## The components of the pattern

The pieces of the pattern are the segments of the root and two more. Each is
parsed on its own and becomes a name or a pattern for names. -/

/-- The parts of a pattern for names that end with a dot and a text. -/
def endsWith (text : List Char) : List Token :=
  .run :: .char '.' :: text.map .char

theorem parseFrom_run (h : IsPlain text) :
    parseFrom true ('*' :: '.' :: text) = some (endsWith text) := by
  have hdot : '.' ∉ ['*', '?', '['] := by decide
  have hrun : parseFrom true ('*' :: '.' :: text)
      = (parseFrom false ('.' :: text)).map (.run :: ·) := by
    rw [parseFrom]
    all_goals simp
  have htext := parseFrom_append h false []
  rw [parseFrom_nil, List.append_nil] at htext
  rw [hrun, parseFrom_cons hdot]
  simp [htext, endsWith]

theorem mapM_parse?_plain {all : List (List Char)}
    (h : ∀ s ∈ all, IsPlain s) :
    all.mapM parse? = some (all.map fun s => s.map Token.char) := by
  induction all with
  | nil => rfl
  | cons s all ih =>
    obtain ⟨hs, h⟩ := List.forall_mem_cons.1 h
    rw [List.mapM_cons, parse?_plain hs, ih h]
    rfl

theorem ofTokens_plain (text : List Char) :
    Component.ofTokens (text.map .char) = .name (String.ofList text) := by
  have hplain : plainText? (text.map .char) = some text := by
    unfold plainText?
    induction text with
    | nil => rfl
    | cons c text ih => rw [List.map_cons, List.mapM_cons, ih]; rfl
  have htree : text.map Token.char ≠ [.tree] := by
    rcases text with _ | ⟨c, _ | ⟨c', text⟩⟩ <;> simp
  rw [Component.ofTokens, if_neg htree, hplain]

theorem ofTokens_endsWith (text : List Char) :
    Component.ofTokens (endsWith text) = .wild (endsWith text) := by
  simp [Component.ofTokens, endsWith, plainText?]

theorem collapse_names (names : List String) (rest : List Component) :
    collapse (names.map .name ++ rest) = names.map .name ++ collapse rest := by
  induction names with
  | nil => rfl
  | cons name names ih =>
    rw [List.map_cons, List.cons_append, collapse, ih, List.cons_append]
    simp

/-- The pieces of the pattern of an extension. -/
theorem pieces_extension (hslash : '/' ∉ extension.toList) :
    pieces (text ++ '/' :: ("**/*.".toList ++ extension.toList))
      = Path.segments text ++ [['*', '*'], '*' :: '.' :: extension.toList] := by
  have hlast : '/' ∉ '*' :: '.' :: extension.toList := by simpa using hslash
  have hbehind : Path.segments ("**/*.".toList ++ extension.toList)
      = [['*', '*'], '*' :: '.' :: extension.toList] :=
    (Path.segments_append ['*', '*'] _).trans
      (congrArg _ (Path.segments_of_not_mem hlast))
  unfold pieces
  rw [Path.segments_append, hbehind]
  simp

/-- The pattern of an extension is one as a whole. -/
theorem isSome_parse?_extension (htext : IsPlain text)
    (hextension : IsPlain extension.toList) :
    (parse? (text ++ '/' :: ("**/*.".toList ++ extension.toList))).isSome := by
  have hbehind : parseFrom true ("**/*.".toList ++ extension.toList)
      = some (.tree :: endsWith extension.toList) :=
    (parseFrom_tree _).trans (congrArg _ (parseFrom_run hextension))
  have h := parseFrom_append htext.slash true
    ("**/*.".toList ++ extension.toList)
  rw [List.append_assoc, List.foldl_append, List.foldl_cons, List.foldl_nil,
    beq_self_eq_true, hbehind] at h
  exact Option.isSome_of_eq_some h

/-- **The components of the pattern of an extension**: the names of the root,
two asterisks and the pattern for names. -/
theorem components?_extension (htext : IsPlain text)
    (hextension : IsPlainName extension) :
    components? ('/' :: (text ++ '/' :: ("**/*.".toList ++ extension.toList)))
      = some (((Path.segments text).map String.ofList).map .name ++
          [.tree, .wild (endsWith extension.toList)]) := by
  have hplain : IsPlain ('/' :: text) :=
    List.forall_mem_cons.2 ⟨by decide, htext⟩
  obtain ⟨tokens, htokens⟩ := Option.isSome_iff_exists.1
    (isSome_parse?_extension hplain hextension.plain)
  have hsegments : ∀ s ∈ Path.segments text, IsPlain s :=
    fun s hs c hc => htext c
      (Path.joinSegments_segments text ▸ Path.subset_joinSegments hs hc)
  have hpieces : (Path.segments text ++
        [['*', '*'], '*' :: '.' :: extension.toList]).mapM parse?
      = some ((Path.segments text).map (fun s => s.map Token.char) ++
          [[.tree], endsWith extension.toList]) := by
    rw [List.mapM_append, mapM_parse?_plain hsegments, List.mapM_cons,
      List.mapM_cons, parse?, parse?, parseFrom_tree_nil,
      parseFrom_run hextension.plain]
    rfl
  unfold components?
  rw [List.cons_append] at htokens
  rw [htokens, List.tail_cons, pieces_extension hextension.not_slash, hpieces]
  have hnames : (Path.segments text).map
        (Component.ofTokens ∘ fun s => s.map Token.char)
      = ((Path.segments text).map String.ofList).map .name := by
    rw [List.map_map]
    exact List.map_congr_left fun s _ => ofTokens_plain s
  simp only [Option.bind_eq_bind, Option.bind_some, List.map_append,
    List.map_map, hnames, List.map_cons, List.map_nil, ofTokens_endsWith]
  rw [← List.map_map, collapse_names]
  rfl

/-! ## The walk

As long as the components are names there is one path to go on with, and the
entries below it are listed in the order of the tree. -/

/-- **A name leads on** where the path with it leads to something. -/
theorem stepByName_eq (hname : '/' ∉ name.toList)
    (hp : Disk.checkPath p = .ok ())
    (hjoin : Disk.checkPath (p.join name) = .ok ())
    (h : d.locate (p.join name) = .ok last) :
    stepByName d p name = [p.join name] := by
  have habsolute := Path.not_isAbsolute_of_not_mem hname
  obtain ⟨place, hplace, hfollow⟩ := (Disk.locate_join_eq_ok habsolute).1 h
  rw [Path.segments_of_not_mem hname] at hfollow
  -- a step to the directory itself or above it asks for a directory only
  have hdots : d.hasDirectory p := by
    unfold Disk.hasDirectory Disk.node?
    rw [Disk.resolve_eq_ok.2 ⟨hp, hplace⟩]
    exact Disk.hasDirectory_of_follow hfollow
  have hnode : d.hasNode (p.join name) := by
    unfold Disk.hasNode Disk.node?
    rw [Disk.resolve_eq_ok.2 ⟨hjoin, h⟩]
    exact Disk.isSome_find?_of_locate h
  unfold stepByName
  simp [hdots, hnode]

/-- **To walk names is to follow them** as parts of a path. -/
theorem walk_names (hnames : ∀ name ∈ names, '/' ∉ name.toList)
    (hcheck : ∀ front, front <+: names →
      Disk.checkPath (p.below front) = .ok ())
    (h : d.locate (p.below names) = .ok last) (rest : List Component) :
    walk d (names.map .name ++ rest) p = walk d rest (p.below names) := by
  induction names generalizing p with
  | nil => rfl
  | cons name names ih =>
    obtain ⟨hname, hnames⟩ := List.forall_mem_cons.1 hnames
    have hbelow : ∀ front, front <+: names →
        Disk.checkPath ((p.join name).below front) = .ok () :=
      fun front hfront => hcheck (name :: front)
        (List.cons_prefix_cons.2 ⟨rfl, hfront⟩)
    obtain ⟨next, hnext, -⟩ :=
      (Disk.locate_below_eq_ok (p := p.join name) hnames).1 h
    rw [List.map_cons, List.cons_append, walk,
      stepByName_eq (p := p) hname (hcheck [] List.nil_prefix)
        (hbelow [] List.nil_prefix) hnext,
      List.flatMap_singleton]
    exact ih hnames hbelow h

/-- Two asterisks and a pattern for names lead to the entries below. -/
theorem mem_walk_tree :
    p ∈ walk d [.tree, .wild tokens] root
      ↔ ∃ e ∈ d.entriesBelow root, isMatch tokens e.name.toList ∧
          p = e.path := by
  rw [walk]
  simp [walk, Component.admits, and_assoc]

theorem mem_suffixes {s : List Char} : s ∈ suffixes text ↔ s <:+ text := by
  induction text with
  | nil => simp [suffixes]
  | cons c text ih => simp [suffixes, List.suffix_cons_iff, ih]

theorem isMatch_endsWith {s : List Char} :
    isMatch (endsWith text) s ↔ '.' :: text <:+ s := by
  have hplain : ∀ rest, denotes (.char '.' :: text.map .char) rest
      ↔ rest = '.' :: text := by
    intro rest
    rw [show .char '.' :: text.map Token.char
        = ('.' :: text).map Token.char ++ [] by simp, denotes_append_iff]
    simp [denotes]
  rw [isMatch_eq_denotes, endsWith, denotes, List.any_eq_true]
  simp [hplain, mem_suffixes]

/-- The pattern of an extension asks for entries of any sort. -/
theorem getLast?_extension (root : Path)
    (hextension : '/' ∉ extension.toList) :
    (root.text ++ "/**/*." ++ extension).toList.getLast? ≠ some '/' := by
  intro hlast
  rw [String.toList_append, List.getLast?_append] at hlast
  cases hback : extension.toList.getLast? with
  | none =>
    rw [hback, Option.none_or, String.toList_append] at hlast
    simp at hlast
  | some c =>
    rw [hback, Option.some_or, Option.some.injEq] at hlast
    exact hextension (hlast ▸ List.mem_of_getLast? hback)

/-- **The pattern of an extension is walked from the root** of the files. -/
theorem paths?_extension {node : Node} (hroot : root.isAbsolute)
    (hnode : d.node? root = some node) (hplain : IsPlain root.text.toList)
    (hextension : IsPlainName extension) :
    paths? d (root.text ++ "/**/*." ++ extension)
      = some (walk d [.tree, .wild (endsWith extension.toList)]
          root.squeeze) := by
  obtain ⟨place, hcheck, hlocate, -⟩ := Disk.node?_eq_some.1 hnode
  have hpattern : (root.text ++ "/**/*." ++ extension).toList
      = '/' :: (root.text.toList.tail ++
          '/' :: ("**/*.".toList ++ extension.toList)) := by
    rw [String.toList_append, String.toList_append,
      Path.toList_of_isAbsolute hroot]
    simp
  have hcomponents := components?_extension
    (fun c hc => hplain c (List.mem_of_mem_tail hc)) hextension
  have hwalk := walk_names
    (fun _ => Path.not_mem_of_mem_map_segments)
    (fun _ => Disk.checkPath_below hroot hcheck)
    (Disk.locate_squeeze hroot hlocate)
    [.tree, .wild (endsWith extension.toList)]
  have hslash := getLast?_extension root hextension.not_slash
  rw [← hpattern] at hcomponents
  unfold paths?
  simp only [hcomponents, bind, Option.bind, if_neg hslash]
  exact congrArg some hwalk

/-- **What the pattern of an extension describes** below a directory. -/
theorem mem_paths?_extension (htree : d.tree.Proper) (hroot : root.isAbsolute)
    (hdir : d.hasDirectory root) (hplain : IsPlain root.text.toList)
    (hextension : IsPlainName extension) :
    ∃ paths, paths? d (root.text ++ "/**/*." ++ extension) = some paths ∧
      ∀ p, p ∈ paths ↔ ∃ above name, d.hasBelow root (above ++ [name]) ∧
        '.' :: extension.toList <:+ name.toList ∧
        p = root.squeeze.below (above ++ [name]) := by
  obtain ⟨node, hnode, -⟩ := (Option.any_eq_true _ _).1 hdir
  obtain ⟨place, -, -, hfind⟩ := Disk.node?_eq_some.1 hnode
  have hproper : node.Proper := (htree.of_find? hfind).2
  refine ⟨_, paths?_extension hroot hnode hplain hextension, fun p => ?_⟩
  rw [mem_walk_tree]
  unfold Disk.entriesBelow Disk.hasBelow
  rw [Disk.node?_squeeze hroot hnode, hnode]
  simp only [hproper.mem_descendants, isMatch_endsWith,
    Option.isSome_iff_exists]
  constructor
  · rintro ⟨e, ⟨above, name, child, hchild, rfl⟩, hname, hp⟩
    exact ⟨above, name, ⟨child, hchild⟩, hname, hp⟩
  · rintro ⟨above, name, ⟨child, hchild⟩, hname, hp⟩
    exact ⟨_, ⟨above, name, child, hchild, rfl⟩, hname, hp⟩

end SwiftStyle.Glob
