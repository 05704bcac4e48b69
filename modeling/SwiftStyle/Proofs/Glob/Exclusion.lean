import SwiftStyle.Linter
import SwiftStyle.Proofs.Disk.AbsolutePath
import SwiftStyle.Proofs.Glob.Plain
import SwiftStyle.Proofs.Text.Split

/-!
# What a pattern excludes

A pattern excludes the paths that it describes and those that its
**fragment** is a part of: what is left of it without its pairs of asterisks
(`Glob.excludes_iff`). In the pattern of a name with two asterisks before and
behind it, the fragment is the name between two slashes, and what is excluded
is what stands below a directory of that name, as the asterisks say
(`Linter.isExcluded_iff_mem_dropLast`).

With asterisks before the name only, nothing in the fragment ends the name.
Then every path is excluded on which some name begins with it, also where the
pattern describes no such path (`Linter.isExcluded_iff_begins`).

Both cases are one argument about text. In an absolute path every name has a
slash before it, so a fragment that begins with a slash begins where a name
does. What follows the slash has to be the front of that name if it has no
slash of its own (`Glob.slash_infix_iff`), and the whole name, with another
behind it, if it ends with a slash (`Glob.slash_infix_slash_iff`). What the
pattern describes adds nothing to this: behind two asterisks and a slash,
plain text describes only paths that it is a part of
(`Glob.infix_of_describes`).
-/

namespace SwiftStyle

namespace Glob

variable {text back s : List Char} {names : List (List Char)}
  {pattern : String} {p : Path}

theorem IsPlainName.head?_ne {name : String} (h : IsPlainName name) :
    name.toList.head? ≠ some '/' :=
  fun hhead => h.not_slash (List.mem_of_head? hhead)

/-! ## Fragments

The pattern here is two asterisks, a slash, a plain text and something behind
it that leaves nothing in the fragment. So one lemma,
`excludes_iff_infix`, serves the patterns with asterisks behind the name and
those without. -/

theorem dropTrees_append (h : IsPlain text) (back : List Char) :
    dropTrees (text ++ back) = text ++ dropTrees back := by
  induction text with
  | nil => rfl
  | cons c text ih =>
    obtain ⟨hc, h⟩ := List.forall_mem_cons.1 h
    have hstar : c ≠ '*' := fun hstar => hc (hstar ▸ List.mem_cons_self)
    rw [List.cons_append, dropTrees, ih h, List.cons_append]
    simp [hstar]

theorem any_isPrefixOf_suffixes :
    (suffixes text).any s.isPrefixOf ↔ s <:+: text := by
  induction text with
  | nil => simp [suffixes]
  | cons c text ih =>
    rw [suffixes, List.any_cons, Bool.or_eq_true, ih, List.infix_cons_iff,
      List.isPrefixOf_iff_prefix]

/-- **A pattern excludes what it describes and what its fragment is a part
of**, unless little is left of it. -/
theorem excludes_iff :
    excludes pattern p ↔ describes pattern p ∨
      (dropTrees pattern.toList ≠ [] ∧ dropTrees pattern.toList ≠ ['/'] ∧
        dropTrees pattern.toList <:+: p.text.toList) := by
  unfold excludes
  simp only [Bool.or_eq_true, Bool.and_eq_true, any_isPrefixOf_suffixes,
    decide_eq_true_eq, and_assoc]

/-- Two asterisks, a slash and plain text describe only what the slash and
the text are a part of, if it begins with a slash. -/
theorem infix_of_describes (hpattern : pattern.toList
      = '*' :: '*' :: '/' :: (text ++ back))
    (hplain : IsPlain text) (htext : text.head? ≠ some '/') (hne : text ≠ [])
    (hp : p.isAbsolute) (h : describes pattern p) :
    '/' :: text <:+: p.text.toList := by
  obtain ⟨tokens, hparse, hmatch⟩ := (Option.any_eq_true _ _).1 h
  rw [parse?, hpattern, parseFrom_tree, parseFrom_append hplain,
    Option.map_map] at hparse
  obtain ⟨behind, -, rfl⟩ := Option.map_eq_some_iff.1 hparse
  rw [isMatch_eq_denotes] at hmatch
  rcases (denotes_tree_iff hne).1 hmatch with ⟨rest, hrest, -⟩ |
    ⟨front, rest, hrest, -⟩
  · -- the text would have to begin with the slash of the path
    obtain ⟨c, text, rfl⟩ := List.exists_cons_of_ne_nil hne
    simp only [Path.isAbsolute, hrest, List.cons_append, List.head?_cons,
      beq_iff_eq, Option.some.injEq] at hp
    exact absurd (congrArg some hp) htext
  · exact ⟨front, rest, by simp [hrest]⟩

/-- **Two asterisks, a slash and plain text exclude** the paths that the slash
and the text are a part of, asterisks behind them or not. -/
theorem excludes_iff_infix (text back : List Char)
    (hpattern : pattern.toList = '*' :: '*' :: '/' :: (text ++ back))
    (hback : dropTrees back = []) (hplain : IsPlain text)
    (htext : text.head? ≠ some '/') (hne : text ≠ [])
    (hp : p.isAbsolute) :
    excludes pattern p ↔ '/' :: text <:+: p.text.toList := by
  have hfragment : dropTrees pattern.toList = '/' :: text := by
    rw [hpattern, dropTrees, dropTrees, dropTrees_append hplain, hback,
      List.append_nil]
    simp
  rw [excludes_iff, hfragment]
  constructor
  · rintro (h | ⟨-, -, h⟩)
    · exact infix_of_describes hpattern hplain htext hne hp h
    · exact h
  · exact fun h => .inr ⟨List.cons_ne_nil _ _, by simpa using hne, h⟩

/-! ## Names between slashes

By induction on the names of a path: a text that begins with a slash is found
at the first slash or behind the first name. -/

/-- What begins with a slash is not part of text without slashes. -/
theorem slash_infix_append_iff (htext : '/' ∉ text) :
    '/' :: s <:+: text ++ back ↔ '/' :: s <:+: back := by
  induction text with
  | nil => rfl
  | cons c text ih =>
    obtain ⟨hc, htext⟩ := List.mem_cons.not.1 htext |> not_or.1
    rw [List.cons_append, List.infix_cons_iff, List.cons_prefix_cons, ih htext]
    simp [hc]

theorem slash_infix_cons_iff {name : List Char} (hname : '/' ∉ name) :
    '/' :: s <:+: (name :: names).flatMap ('/' :: ·)
      ↔ s <+: name ++ names.flatMap ('/' :: ·) ∨
        '/' :: s <:+: names.flatMap ('/' :: ·) := by
  rw [List.flatMap_cons, List.cons_append, List.infix_cons_iff,
    List.cons_prefix_cons, slash_infix_append_iff hname]
  simp

/-- What has no slash in it ends before the first of them. -/
theorem prefix_append_iff (hs : '/' ∉ s) (names : List (List Char)) :
    s <+: text ++ names.flatMap ('/' :: ·) ↔ s <+: text := by
  refine ⟨fun h => ?_, fun h => h.trans (List.prefix_append ..)⟩
  rcases List.prefix_or_prefix_of_prefix h (List.prefix_append ..) with
    h | ⟨more, rfl⟩
  · exact h
  · have hmore := (List.prefix_append_right_inj text).1 h
    rcases more with _ | ⟨c, more⟩
    · rw [List.append_nil]
    · -- the text would have the slash in it that comes first
      cases names with
      | nil => exact absurd (List.prefix_nil.1 hmore) (List.cons_ne_nil c more)
      | cons name names =>
        obtain ⟨rfl, -⟩ := List.cons_prefix_cons.1 hmore
        exact absurd (List.mem_append_right text List.mem_cons_self) hs

/-- What ends with the first slash is all that is before it. -/
theorem concat_prefix_append_iff (hs : '/' ∉ s) (htext : '/' ∉ text)
    (names : List (List Char)) :
    s ++ ['/'] <+: text ++ names.flatMap ('/' :: ·)
      ↔ s = text ∧ names ≠ [] := by
  cases names with
  | nil =>
    refine iff_of_false (fun h => htext ?_) fun h => h.2 rfl
    rw [List.flatMap_nil, List.append_nil] at h
    exact h.subset (List.mem_append_right s List.mem_cons_self)
  | cons name names =>
    refine ⟨fun ⟨rest, h⟩ => ?_, fun ⟨h, _⟩ => ?_⟩
    · rw [List.append_assoc] at h
      exact ⟨(Text.split_at_unique hs htext h).1, List.cons_ne_nil _ _⟩
    · subst h
      rw [List.prefix_append_right_inj]
      exact List.cons_prefix_cons.2 ⟨rfl, List.nil_prefix⟩

/-- **A name behind a slash** is what some name on the path begins with. -/
theorem slash_infix_iff (hs : '/' ∉ s) (hnames : ∀ name ∈ names, '/' ∉ name) :
    '/' :: s <:+: names.flatMap ('/' :: ·) ↔ ∃ name ∈ names, s <+: name := by
  induction names with
  | nil => simp
  | cons name names ih =>
    obtain ⟨hname, hnames⟩ := List.forall_mem_cons.1 hnames
    rw [slash_infix_cons_iff hname, ih hnames, prefix_append_iff hs,
      List.exists_mem_cons_iff]

/-- **A name between slashes** is a name on the path that is not the last. -/
theorem slash_infix_slash_iff (hs : '/' ∉ s)
    (hnames : ∀ name ∈ names, '/' ∉ name) :
    '/' :: (s ++ ['/']) <:+: names.flatMap ('/' :: ·)
      ↔ s ∈ names.dropLast := by
  induction names with
  | nil => simp
  | cons name names ih =>
    obtain ⟨hname, hnames⟩ := List.forall_mem_cons.1 hnames
    rw [slash_infix_cons_iff hname, ih hnames,
      concat_prefix_append_iff hs hname]
    cases names <;> simp

theorem slash_infix_pathOf_iff (hs : s ≠ []) (place : Place) :
    '/' :: s <:+: (Disk.pathOf place).text.toList
      ↔ '/' :: s <:+: (place.map String.toList).flatMap ('/' :: ·) := by
  by_cases hplace : place = []
  · subst hplace
    refine iff_of_false (fun h => ?_) (by simp)
    -- there is nothing behind the slash
    have hlength := h.length_le
    rw [Disk.toList_pathOf] at hlength
    simp [Path.joinSegments, hs] at hlength
  · rw [Disk.toList_pathOf_eq_flatMap hplace, List.flatMap_map]

end Glob

namespace Linter

variable {l : Linter} {place : Place} {name : String} {names : List String}

open Glob

/-- **With asterisks before a name only**, a path is excluded if one of its
names begins with that name. -/
theorem isExcluded_iff_begins (hexclude : l.exclude = ["**/" ++ name])
    (hname : IsPlainName name) (hne : name ≠ "")
    (hplace : ∀ c ∈ place, '/' ∉ c.toList) :
    l.isExcluded (Disk.pathOf place)
      ↔ ∃ c ∈ place, name.toList <+: c.toList := by
  have hnil : name.toList ≠ [] := by simpa using hne
  unfold isExcluded
  rw [hexclude, List.any_cons, List.any_nil, Bool.or_false,
    excludes_iff_infix name.toList [] (by simp) rfl
      hname.plain hname.head?_ne hnil (Disk.isAbsolute_pathOf place),
    slash_infix_pathOf_iff hnil, slash_infix_iff hname.not_slash (by simpa)]
  simp

/-- Below a directory of the name and behind a longer name, but not behind
one that ends with the name. -/
theorem isExcluded_iff_begins_inside :
    let l : Linter := ⟨⟨"/app"⟩, [], ["**/Gen"], default⟩
    l.isExcluded (Disk.pathOf ["app", "Gen", "x.swift"]) ∧
    l.isExcluded (Disk.pathOf ["app", "Genre", "Gen", "x.swift"]) ∧
    ¬ l.isExcluded (Disk.pathOf ["app", "NotGen", "x.swift"]) := by
  intro l
  have hname : IsPlainName "Gen" := ⟨by decide, by decide⟩
  have hiff : ∀ place : Place, (∀ c ∈ place, '/' ∉ c.toList) →
      (l.isExcluded (Disk.pathOf place)
        ↔ ∃ c ∈ place, "Gen".toList <+: c.toList) :=
    fun place hplace => isExcluded_iff_begins rfl hname (by decide) hplace
  refine ⟨(hiff _ (by decide)).2 ⟨"Gen", ?_⟩,
    (hiff _ (by decide)).2 ⟨"Genre", ?_⟩, fun h => ?_⟩
  · decide
  · decide
  · exact absurd ((hiff _ (by decide)).1 h) (by decide)

/-- A file is excluded although none of its names is that of the pattern, and
although the pattern does not describe its path. -/
theorem isExcluded_within_name :
    let l : Linter := ⟨⟨"/app"⟩, [], ["**/Gen"], default⟩
    let place := ["app", "Generated.swift"]
    IsPlainName "Gen" ∧ l.isExcluded (Disk.pathOf place) ∧ "Gen" ∉ place ∧
    ¬ describes "**/Gen" (Disk.pathOf place) := by
  refine ⟨⟨by decide, by decide⟩, ?_⟩
  decide +kernel

/-- **With asterisks on both sides of names**, a path is excluded if it is
below a directory with one of the names. -/
theorem isExcluded_iff_mem_dropLast
    (hexclude : l.exclude = names.map fun name => "**/" ++ name ++ "/**")
    (hnames : ∀ name ∈ names, IsPlainName name ∧ name ≠ "")
    (hplace : ∀ c ∈ place, '/' ∉ c.toList) :
    l.isExcluded (Disk.pathOf place)
      ↔ ∃ name ∈ names, name ∈ place.dropLast := by
  unfold isExcluded
  rw [hexclude, List.any_map, List.any_eq_true]
  refine exists_congr fun name => and_congr_right fun hmem => ?_
  obtain ⟨hname, hne⟩ := hnames name hmem
  have hnil : name.toList ≠ [] := by simpa using hne
  have hhead : (name.toList ++ ['/']).head? ≠ some '/' := by
    rw [List.head?_append_of_ne_nil _ hnil]
    exact hname.head?_ne
  rw [Function.comp_apply,
    excludes_iff_infix (name.toList ++ ['/']) ['*', '*']
      (by simp) rfl hname.plain.slash hhead (by simp)
      (Disk.isAbsolute_pathOf place),
    slash_infix_pathOf_iff (by simp),
    slash_infix_slash_iff hname.not_slash (by simpa), ← List.map_dropLast,
    List.mem_map_of_injective fun _ _ => String.toList_injective]

/-- Below one of two directories, and neither the directory itself nor one
with a longer name. -/
theorem isExcluded_iff_mem_dropLast_two :
    let l : Linter :=
      ⟨⟨"/app"⟩, [], ["**/Pods/**", "**/.build/**"], default⟩
    l.isExcluded (Disk.pathOf ["app", ".build", "a", "x.swift"]) ∧
    ¬ l.isExcluded (Disk.pathOf ["app", "Pods2", ".build"]) := by
  intro l
  have hexclude : l.exclude
      = ["Pods", ".build"].map fun name => "**/" ++ name ++ "/**" := by
    decide
  have hnames : ∀ name ∈ ["Pods", ".build"],
      IsPlainName name ∧ name ≠ "" := by
    simp only [List.forall_mem_cons]
    exact ⟨⟨⟨by decide, by decide⟩, by decide⟩,
      ⟨⟨by decide, by decide⟩, by decide⟩, fun _ h => nomatch h⟩
  refine ⟨(isExcluded_iff_mem_dropLast hexclude hnames (by decide)).2
    ⟨".build", by decide⟩, fun h => ?_⟩
  exact absurd
    ((isExcluded_iff_mem_dropLast hexclude hnames (by decide)).1 h) (by decide)

end Linter
end SwiftStyle
