import SwiftStyle.Glob.Walk

/-!
# Texts that stand for themselves in a pattern

A text is **plain** if it has none of the characters that mean something in
a pattern (`Glob.IsPlain`). Wherever it stands in a pattern, plain text is
read character by character (`Glob.parseFrom_append`), and it describes
itself only (`Glob.denotes_append_iff`). Behind two asterisks and a slash it
describes what begins with it, at the front of a text or behind any of its
slashes (`Glob.denotes_tree_iff`).

To read a pattern is to go through it from the left, with one bit of memory:
whether a component begins here, which decides whether two asterisks stand for
directories. Plain text changes the bit only by the slashes in it, and so the
lemmas on reading carry it along.
-/

namespace SwiftStyle.Glob

variable {c : Char} {text s back : List Char} {tokens : List Token}
  {fresh : Bool}

/-- **A text that stands for itself**: no character in it means anything
else in a pattern. -/
def IsPlain (text : List Char) : Prop :=
  ∀ c ∈ text, c ∉ ['*', '?', '[']

instance (text : List Char) : Decidable (IsPlain text) :=
  List.decidableBAll (fun c => c ∉ ['*', '?', '[']) text

theorem IsPlain.slash (h : IsPlain text) : IsPlain (text ++ ['/']) := by
  have hslash : '/' ∉ ['*', '?', '['] := by decide
  exact List.forall_mem_append.2 ⟨h, List.forall_mem_singleton.2 hslash⟩

/-- **A name that stands for itself in a pattern.** -/
structure IsPlainName (name : String) : Prop where
  /-- No character in it means anything else. -/
  plain : IsPlain name.toList
  /-- It is one name. -/
  not_slash : '/' ∉ name.toList

theorem parseFrom_nil (fresh : Bool) : parseFrom fresh [] = some [] := by
  rw [parseFrom]

theorem parseFrom_cons (hc : c ∉ ['*', '?', '[']) (fresh : Bool)
    (back : List Char) :
    parseFrom fresh (c :: back)
      = (parseFrom (c == '/') back).map (.char c :: ·) := by
  simp only [List.mem_cons, List.not_mem_nil, or_false, not_or] at hc
  obtain ⟨hstar, hquestion, hbracket⟩ := hc
  rw [parseFrom]
  all_goals simp_all

/-- **Plain text is read as it is**; a component begins behind it if it ends
with a slash. -/
theorem parseFrom_append (h : IsPlain text) (fresh : Bool)
    (back : List Char) :
    parseFrom fresh (text ++ back)
      = (parseFrom (text.foldl (fun _ c => c == '/') fresh) back).map
          (text.map Token.char ++ ·) := by
  induction text generalizing fresh with
  | nil => simp
  | cons c text ih =>
    obtain ⟨hc, h⟩ := List.forall_mem_cons.1 h
    rw [List.cons_append, parseFrom_cons hc, ih h, Option.map_map]
    rfl

theorem parse?_plain (h : IsPlain text) :
    parse? text = some (text.map Token.char) := by
  have := parseFrom_append h true []
  rw [parseFrom_nil, List.append_nil] at this
  simpa [parse?] using this

theorem parseFrom_tree (back : List Char) :
    parseFrom true ('*' :: '*' :: '/' :: back)
      = (parseFrom true back).map (.tree :: ·) := by
  rw [parseFrom]
  simp

theorem parseFrom_tree_nil :
    parseFrom true ['*', '*'] = some [.tree] := by
  rw [parseFrom]
  simp

/-! ## What plain text describes -/

/-- **Plain text describes itself only.** -/
theorem denotes_append_iff :
    denotes (text.map Token.char ++ tokens) s
      ↔ ∃ rest, s = text ++ rest ∧ denotes tokens rest := by
  induction text generalizing s with
  | nil => simp
  | cons c text ih =>
    cases s with
    | nil => simp [denotes]
    | cons d s =>
      simp only [List.map_cons, List.cons_append, denotes, Token.admits,
        Bool.and_eq_true, beq_iff_eq, ih, List.cons.injEq]
      grind

theorem mem_behindSlashes_iff {rest : List Char} :
    rest ∈ behindSlashes s ↔ ∃ front, s = front ++ '/' :: rest := by
  induction s with
  | nil => simp [behindSlashes]
  | cons c s ih =>
    have hfront : (∃ front, c :: s = front ++ '/' :: rest)
        ↔ (c = '/' ∧ s = rest) ∨ ∃ front, s = front ++ '/' :: rest := by
      simp only [List.cons_eq_append_iff, List.cons.injEq]
      grind
    rw [hfront, ← ih, behindSlashes]
    split <;> simp_all [eq_comm]

/-- **Two asterisks and then plain text** describe what begins with the text,
at the front or behind a slash. -/
theorem denotes_tree_iff (htext : text ≠ []) :
    denotes (.tree :: (text.map Token.char ++ tokens)) s
      ↔ (∃ rest, s = text ++ rest ∧ denotes tokens rest) ∨
        ∃ front rest, s = front ++ '/' :: (text ++ rest) ∧
          denotes tokens rest := by
  have hnil : ¬ denotes (text.map Token.char ++ tokens) [] := by
    rw [denotes_append_iff]
    rintro ⟨rest, hrest, -⟩
    exact htext (List.append_eq_nil_iff.1 hrest.symm).1
  rw [denotes]
  simp only [hnil, Bool.or_false, Bool.or_eq_true, List.any_eq_true,
    denotes_append_iff, mem_behindSlashes_iff]
  grind

end SwiftStyle.Glob
