import SwiftStyle.Proofs.Source.Position

/-!
# Positions are in the order of their offsets

Positions are ordered by their lines, and on one line by their columns.
Between characters this is the order of the offsets: a longer front of a
text has more line feeds, or else more characters behind the last of them
(`Position.behind_lt_append`). So an offset between characters is
determined by its line and column.

An offset past the end has the position of the end. And the positions of
a file are those of the contents that it was given last, whatever else
happened to it: a file goes through a run of changes (`SourceFile.Change`),
one of which may be a save that fails, and every change leaves lines that
belong to the text.

`SourceFile.positions_determine_offsets` puts this together.

The closed form of a position, by line feeds and characters, is proved before
the order, and the order is proved of the closed form. Nothing about the table
is needed for it, and the inverse direction, from positions to offsets, comes
from the strict order and not from a second search.
-/

namespace SwiftStyle

/-- **The last line of a text**, so far as it goes: what stands behind the
last line feed. -/
def lastLine (text : List Char) : List Char :=
  text.rtakeWhile (· != '\n')

variable {front middle back text more : List Char}

theorem lastLine_append (h : '\n' ∉ more) :
    lastLine (text ++ more) = lastLine text ++ more := by
  unfold lastLine List.rtakeWhile
  rw [List.reverse_append, List.takeWhile_append_of_pos, List.reverse_append,
    List.reverse_reverse]
  intro c hc
  rw [bne_iff_ne]
  rintro rfl
  exact h (List.mem_reverse.1 hc)

@[simp] theorem lastLine_feed (text : List Char) :
    lastLine (text ++ ['\n']) = [] :=
  List.rtakeWhile_concat_neg _ _ _ (by simp)

/-! ## The order of positions -/

namespace Position

/-- One position comes before another: it is on an earlier line, or on the
same line in an earlier column. -/
instance : LT Position :=
  ⟨fun p q => p.line < q.line ∨ p.line = q.line ∧ p.column < q.column⟩

/-- One position does not come behind another. -/
instance : LE Position :=
  ⟨fun p q => p.line < q.line ∨ p.line = q.line ∧ p.column ≤ q.column⟩

instance (p q : Position) : Decidable (p < q) :=
  inferInstanceAs
    (Decidable (p.line < q.line ∨ p.line = q.line ∧ p.column < q.column))

instance (p q : Position) : Decidable (p ≤ q) :=
  inferInstanceAs
    (Decidable (p.line < q.line ∨ p.line = q.line ∧ p.column ≤ q.column))

theorem lt_irrefl (p : Position) : ¬ p < p := by
  rintro (h | ⟨-, h⟩) <;> exact Nat.lt_irrefl _ h

theorem le_refl (p : Position) : p ≤ p :=
  .inr ⟨rfl, Nat.le_refl _⟩

theorem le_of_lt {p q : Position} (h : p < q) : p ≤ q :=
  h.imp_right fun ⟨hline, hcolumn⟩ => ⟨hline, Nat.le_of_lt hcolumn⟩

theorem le_trans {p q r : Position} (hpq : p ≤ q) (hqr : q ≤ r) :
    p ≤ r := by
  rcases hpq with hpq | ⟨hpq, hpq'⟩ <;> rcases hqr with hqr | ⟨hqr, hqr'⟩
  · exact .inl (Nat.lt_trans hpq hqr)
  · exact .inl (hqr ▸ hpq)
  · exact .inl (hpq ▸ hqr)
  · exact .inr ⟨hpq.trans hqr, Nat.le_trans hpq' hqr'⟩

/-- Behind a line feed all positions are later. -/
theorem lt_of_mem_feed (h : '\n' ∈ middle) (front : List Char)
    (k l : Nat) :
    (⟨front.count '\n' + 1, k⟩ : Position)
      < ⟨(front ++ middle).count '\n' + 1, l⟩ := by
  have := List.count_pos_iff.2 h
  refine .inl ?_
  rw [List.count_append]
  dsimp only
  omega

theorem line_append (h : '\n' ∉ middle) (front : List Char) :
    front.count '\n' + 1 = (front ++ middle).count '\n' + 1 := by
  rw [List.count_append, List.count_eq_zero_of_not_mem h, Nat.add_zero]

/-- **A longer text has a later position behind it.** -/
theorem behind_lt_append (front : List Char) (h : middle ≠ []) :
    behind front < behind (front ++ middle) := by
  by_cases hfeed : '\n' ∈ middle
  · exact lt_of_mem_feed hfeed front _ _
  · refine .inr ⟨line_append hfeed front, ?_⟩
    have hlength := List.length_pos_iff.2 h
    show (lastLine front).length + 1 < (lastLine (front ++ middle)).length + 1
    rw [lastLine_append hfeed, List.length_append]
    omega

/-- A longer text does not have an earlier position behind it. -/
theorem behind_le_append (front middle : List Char) :
    behind front ≤ behind (front ++ middle) := by
  by_cases h : middle = []
  · rw [h, List.append_nil]
    exact le_refl _
  · exact le_of_lt (behind_lt_append front h)

end Position

/-! ## Offsets between characters

A border is a number that is the size of a front of the text. Between two of
them there is a piece of text, and the theorems about fronts apply. -/

/-- **An offset between two characters** of a text, or at an end of it. -/
def Text.IsBorder (text : List Char) (offset : Nat) : Prop :=
  (after? offset text).isSome

instance (text : List Char) (offset : Nat) :
    Decidable (Text.IsBorder text offset) :=
  inferInstanceAs (Decidable ((Text.after? offset text).isSome = true))

theorem Text.isBorder_iff {offset : Nat} :
    IsBorder text offset ↔
      ∃ front back, text = front ++ back ∧ size front = offset := by
  unfold IsBorder
  rw [Option.isSome_iff_exists]
  constructor
  · rintro ⟨back, h⟩
    obtain ⟨front, htext, hsize⟩ := after?_eq_some.1 h
    exact ⟨front, back, htext, hsize⟩
  · rintro ⟨front, back, htext, hsize⟩
    exact ⟨back, after?_eq_some.2 ⟨front, htext, hsize⟩⟩

namespace SourceFile

variable {file : SourceFile} {a b offset : Nat}

/-- **An offset past the end has the position of the end.** -/
theorem positionAt_of_le (h : Text.size file.text ≤ offset) :
    file.positionAt offset = .behind file.text := by
  have hmin : min offset (Text.size file.text)
      = min (Text.size file.text) (Text.size file.text) := by
    omega
  rw [← file.positionAt_size (List.append_nil _).symm]
  unfold positionAt SwiftStyle.positionAt
  rw [hmin]

/-- **Between characters positions are in the order of the offsets.** -/
theorem positionAt_lt (ha : Text.IsBorder file.text a)
    (hb : Text.IsBorder file.text b) (h : a < b) :
    file.positionAt a < file.positionAt b := by
  obtain ⟨front, back, htext, rfl⟩ := Text.isBorder_iff.1 ha
  obtain ⟨longer, rest, htext', rfl⟩ := Text.isBorder_iff.1 hb
  obtain ⟨middle, rfl, rfl⟩ := Text.exists_append_of_size_le
    (htext.symm.trans htext') (Nat.le_of_lt h)
  have hmiddle : middle ≠ [] := by
    rintro rfl
    rw [List.append_nil] at h
    exact Nat.lt_irrefl _ h
  rw [positionAt_size htext, positionAt_size htext']
  exact Position.behind_lt_append front hmiddle

/-- An offset between characters is determined by its position. -/
theorem positionAt_inj (ha : Text.IsBorder file.text a)
    (hb : Text.IsBorder file.text b)
    (h : file.positionAt a = file.positionAt b) : a = b := by
  rcases Nat.lt_trichotomy a b with hlt | heq | hlt
  · exact absurd (h ▸ positionAt_lt ha hb hlt) (Position.lt_irrefl _)
  · exact heq
  · exact absurd (h ▸ positionAt_lt hb ha hlt) (Position.lt_irrefl _)

/-! ## Runs of changes

Of a run of changes only the contents matter. A path and a tokenizer give
none; contents that are written are given whether they can be saved or not, so
a save that fails makes no difference to the file in memory. -/

/-- **A change of a source file.** Positions do not depend on tokens, so
any tokenizer may be given, and not only one that keeps them in order as
for `SourceFile.Reached`. -/
inductive Change where
  /-- It is given a path. -/
  | withPath (path : Path)
  /-- It is given another tokenizer. -/
  | withTokenizer (tokenizer : Tokenizer)
  /-- It is given other contents. -/
  | setContents (contents : String)
  /-- It is given other contents that are saved to a disk, or not. -/
  | write (disk : Disk) (contents : String)

namespace Change

/-- The file after a change. -/
def apply (file : SourceFile) : Change → SourceFile
  | withPath path => file.withPath path
  | withTokenizer tokenizer => file.withTokenizer tokenizer
  | setContents contents => file.setContents contents
  | write disk contents => (file.write disk contents).1

/-- The contents that a change gives to a file that has contents. -/
def contentsAfter (contents : String) : Change → String
  | withPath _ | withTokenizer _ => contents
  | setContents later | write _ later => later

theorem contents_apply (file : SourceFile) (change : Change) :
    (change.apply file).contents = change.contentsAfter file.contents := by
  cases change with
  | withPath path => rfl
  | withTokenizer tokenizer => rfl
  | setContents contents => rfl
  | write disk contents =>
    exact congrArg SourceFile.contents (file.write_fst disk contents)

/-- A run of changes leaves the contents that were given last. -/
theorem contents_run (file : SourceFile) (changes : List Change) :
    (changes.foldl apply file).contents
      = changes.foldl contentsAfter file.contents := by
  induction changes generalizing file with
  | nil => rfl
  | cons change changes ih =>
    rw [List.foldl_cons, List.foldl_cons, ih, contents_apply]

end Change

/-- **Positions and offsets determine each other.** Of a file that went
through any run of changes, the position of a place between characters
tells the line feeds before it and the characters behind the last of them
in the contents given last; it comes before the positions of all later
places, so that it tells the offset; and an offset past the end is taken
for the end. -/
theorem positions_determine_offsets (file : SourceFile)
    (changes : List Change) :
    let changed := changes.foldl Change.apply file
    let text := (changes.foldl Change.contentsAfter file.contents).toList
    (∀ front back, text = front ++ back →
      changed.positionAt (Text.size front) = .behind front) ∧
    (∀ a b, Text.IsBorder text a → Text.IsBorder text b → a < b →
      changed.positionAt a < changed.positionAt b) ∧
    (∀ a b, Text.IsBorder text a → Text.IsBorder text b →
      changed.positionAt a = changed.positionAt b → a = b) ∧
    ∀ offset, Text.size text ≤ offset →
      changed.positionAt offset = .behind text := by
  intro changed text
  have htext : changed.text = text := by
    rw [changed.text_eq, Change.contents_run]
  rw [← htext]
  exact ⟨fun _ _ => positionAt_size, fun _ _ => positionAt_lt,
    fun _ _ => positionAt_inj, fun _ => positionAt_of_le⟩

/-- After a save that failed and new contents with an empty line: the
places at the begin of the text, on and behind its first line feed, and
past its end. -/
theorem positions_determine_offsets_unsaved :
    let disk : Disk := ⟨default, default, 0, fun _ => none⟩
    let changed := [.withPath ⟨"/gone/a"⟩, .write disk "a\n\n",
      .withTokenizer .basic, .setContents "\u00e9\n\nxyz"].foldl
        Change.apply (ofContents "")
    changed.positionAt 2 = ⟨1, 2⟩ ∧
    changed.positionAt 2 < changed.positionAt 3 ∧
    (∀ offset, Text.IsBorder changed.text offset →
      changed.positionAt offset = ⟨2, 1⟩ → offset = 3) ∧
    changed.positionAt 100 = ⟨3, 4⟩ := by
  intro disk changed
  obtain ⟨hbehind, hlt, hinj, hend⟩ := positions_determine_offsets
    (ofContents "") [.withPath ⟨"/gone/a"⟩, .write disk "a\n\n",
      .withTokenizer .basic, .setContents "\u00e9\n\nxyz"]
  have htwo := hbehind ['\u00e9'] "\n\nxyz".toList (by decide)
  have hthree := hbehind ['\u00e9', '\n'] "\nxyz".toList (by decide)
  refine ⟨htwo, hlt 2 3 (by decide) (by decide) (by decide),
    fun offset hborder h => ?_, (hend 100 (by decide)).trans (by decide)⟩
  exact hinj offset 3 hborder (by decide) (h.trans hthree.symm)

end SourceFile
end SwiftStyle
