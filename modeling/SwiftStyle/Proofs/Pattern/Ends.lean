import SwiftStyle.Pattern.Occurrence

/-!
# What a pattern passes over

An end of a pattern that is tried at a place is another place, and what
lies between the two is a piece of the text. `Pattern.Takes` names that
piece and the text behind it, in place of the cursor at the end, which
they determine (`Cursor.pass`).

Every way to write a pattern has its rule: a sequence takes two pieces
one after the other, a choice takes what one of its branches takes, a
word edge takes nothing (`takes_seq`, `takes_either`, `takes_wordEdge`).
`firstEnd?_eq_some` and `firstEnd?_eq_none` lead from the end that a
search commits to back to the pieces a pattern can take.

A pattern is tried with a cursor, which knows the character before it and the
offset it stands at, since word edges look at both sides. A piece of text
alone does not say where it is taken; the cursor does, and so it stays an
argument of `Takes`, while the one at the end is left out.

The rules hold for all ends of a pattern, in whatever order they are tried.
Only the last two lemmas are about the order: the first end is one of them,
and there is none if there are none. What a greedy run commits to has to be
found out for each pattern.
-/

namespace SwiftStyle

namespace Cursor

/-- **The place behind a piece of text** that stands before `rest`. -/
def pass (c : Cursor) (piece rest : List Char) : Cursor :=
  ⟨piece.getLast?.or c.before, c.offset + Text.size piece, rest⟩

@[simp] theorem rest_pass (c : Cursor) (piece rest : List Char) :
    (c.pass piece rest).rest = rest := rfl

@[simp] theorem offset_pass (c : Cursor) (piece rest : List Char) :
    (c.pass piece rest).offset = c.offset + Text.size piece := rfl

theorem pass_pass (c : Cursor) (piece more rest : List Char) :
    (c.pass piece (more ++ rest)).pass more rest
      = c.pass (piece ++ more) rest := by
  unfold pass
  rw [List.getLast?_append, Option.or_assoc, Text.size_append,
    Nat.add_assoc]

@[simp] theorem pass_pass_nil (c : Cursor) (piece rest : List Char) :
    (c.pass piece rest).pass [] rest = c.pass piece rest := rfl

/-- The place behind a piece that follows a beginning of a text. -/
theorem pass_behind (before : Option Char) (front piece rest : List Char) :
    pass ⟨before, Text.size front, piece ++ rest⟩ piece rest
      = ⟨piece.getLast?.or before, Text.size (front ++ piece), rest⟩ := by
  unfold pass
  rw [Text.size_append]

/-- The character before a place is the last one of the piece that was
passed over. -/
theorem before_pass_append {piece more : List Char} {a : Char}
    (c : Cursor) (rest : List Char) (h : more.getLast? = some a) :
    (c.pass (piece ++ more) rest).before = some a := by
  unfold pass
  rw [List.getLast?_append, h]
  rfl

/-- The text between two places is the piece that was passed over. -/
theorem textTo_pass {c : Cursor} {piece rest : List Char}
    (h : c.rest = piece ++ rest) : c.textTo (c.pass piece rest) = piece := by
  unfold textTo
  rw [offset_pass, Nat.add_sub_cancel_left, h, Text.takeBytes_size_append]

/-- The places that a run of characters of a class reaches. -/
theorem mem_reach {p : Char → Bool} {before : Option Char} {offset : Nat}
    {text : List Char} {d : Cursor} :
    d ∈ reach p before offset text
      ↔ ∃ piece rest, text = piece ++ rest ∧ (∀ a ∈ piece, p a) ∧
          d = pass ⟨before, offset, text⟩ piece rest := by
  induction text generalizing before offset with
  | nil =>
    rw [reach, List.mem_singleton]
    constructor
    · rintro rfl
      exact ⟨[], [], rfl, by simp, rfl⟩
    · rintro ⟨piece, rest, h, -, rfl⟩
      obtain ⟨rfl, rfl⟩ := List.append_eq_nil_iff.1 h.symm
      rfl
  | cons a tail ih =>
    rw [reach, List.mem_cons]
    constructor
    · rintro (rfl | h)
      · exact ⟨[], a :: tail, rfl, by simp, rfl⟩
      · split at h
        next ha =>
          obtain ⟨piece, rest, rfl, hp, rfl⟩ := ih.1 h
          refine ⟨a :: piece, rest, rfl, List.forall_mem_cons.2 ⟨ha, hp⟩, ?_⟩
          exact pass_pass ⟨before, offset, a :: (piece ++ rest)⟩ [a] piece
            rest
        next => cases h
    · rintro ⟨piece, rest, h, hp, rfl⟩
      cases piece with
      | nil =>
        left
        rw [List.nil_append] at h
        rw [← h]
        rfl
      | cons b piece =>
        obtain ⟨rfl, rfl⟩ := List.cons.inj h
        right
        rw [if_pos (hp a List.mem_cons_self)]
        refine ih.2 ⟨piece, rest, rfl,
          fun b hb => hp b (List.mem_cons_of_mem a hb), ?_⟩
        exact (pass_pass ⟨before, offset, a :: (piece ++ rest)⟩ [a] piece
          rest).symm

end Cursor

namespace Pattern

/-- **A pattern takes a piece of text**: tried at a place where the piece
stands before `rest`, it may end behind the piece. -/
def Takes (p : Pattern) (c : Cursor) (piece rest : List Char)
    (taken : List Capture) : Prop :=
  c.rest = piece ++ rest ∧ (c.pass piece rest, taken) ∈ p.ends c

variable {c d : Cursor} {piece rest : List Char} {taken : List Capture}

theorem takes_empty :
    empty.Takes c piece rest taken
      ↔ taken = [] ∧ piece = [] ∧ c.rest = rest := by
  unfold Takes ends
  rw [List.mem_singleton, Prod.mk.injEq]
  constructor
  · rintro ⟨h, hd, rfl⟩
    have hrest : rest = c.rest := congrArg Cursor.rest hd
    rw [hrest, List.self_eq_append_left] at h
    exact ⟨rfl, h, hrest.symm⟩
  · rintro ⟨rfl, rfl, rfl⟩
    exact ⟨rfl, rfl, rfl⟩

theorem takes_one {p : Char → Bool} :
    (one p).Takes c piece rest taken
      ↔ taken = [] ∧ ∃ a, piece = [a] ∧ p a ∧ c.rest = a :: rest := by
  unfold Takes ends
  constructor
  · rintro ⟨h, hm⟩
    split at hm
    next => cases hm
    next a tail heq =>
      split at hm
      next ha =>
        obtain ⟨hd, rfl⟩ := Prod.mk.inj (List.mem_singleton.1 hm)
        have hrest : rest = tail := congrArg Cursor.rest hd
        subst hrest
        rw [heq, ← List.singleton_append] at h
        exact ⟨rfl, a, (List.append_cancel_right h).symm, ha, heq⟩
      next => cases hm
  · rintro ⟨rfl, a, rfl, ha, h⟩
    refine ⟨h, ?_⟩
    rw [h]
    dsimp only
    rw [if_pos ha]
    exact List.mem_singleton.2 rfl

theorem takes_many {p : Char → Bool} :
    (many p).Takes c piece rest taken
      ↔ taken = [] ∧ (∀ a ∈ piece, p a) ∧ c.rest = piece ++ rest := by
  unfold Takes ends
  simp only [List.mem_map, List.mem_reverse, Prod.mk.injEq,
    Cursor.mem_reach]
  constructor
  · rintro ⟨h, d, ⟨u, v, hc, hu, rfl⟩, hd, rfl⟩
    have hrest : v = rest := congrArg Cursor.rest hd
    subst hrest
    have hpiece : piece = u := List.append_cancel_right (h.symm.trans hc)
    exact ⟨rfl, hpiece ▸ hu, h⟩
  · rintro ⟨rfl, hp, h⟩
    exact ⟨h, _, ⟨piece, rest, h, hp, rfl⟩, rfl, rfl⟩

theorem takes_either {p q : Pattern} :
    (either p q).Takes c piece rest taken
      ↔ p.Takes c piece rest taken ∨ q.Takes c piece rest taken := by
  unfold Takes
  rw [ends, List.mem_append, and_or_left]

theorem takes_group {number : Nat} {name : Option String} {p : Pattern} :
    (group number name p).Takes c piece rest taken
      ↔ ∃ inner, taken = ⟨number, name, c, c.pass piece rest⟩ :: inner ∧
          p.Takes c piece rest inner := by
  unfold Takes
  simp only [ends, List.mem_map, Prod.exists, Prod.mk.injEq]
  constructor
  · rintro ⟨h, d, inner, hm, rfl, rfl⟩
    exact ⟨inner, rfl, h, hm⟩
  · rintro ⟨inner, rfl, h, hm⟩
    exact ⟨h, _, inner, hm, rfl, rfl⟩

theorem takes_wordEdge :
    wordEdge.Takes c piece rest taken
      ↔ taken = [] ∧ piece = [] ∧ c.rest = rest ∧
          Text.isWordEdge c.before rest.head? := by
  unfold Takes ends
  constructor
  · rintro ⟨h, hm⟩
    split at hm
    next he =>
      obtain ⟨hd, rfl⟩ := Prod.mk.inj (List.mem_singleton.1 hm)
      have hrest : rest = c.rest := congrArg Cursor.rest hd
      rw [hrest, List.self_eq_append_left] at h
      exact ⟨rfl, h, hrest.symm, hrest ▸ he⟩
    next => cases hm
  · rintro ⟨rfl, rfl, rfl, he⟩
    refine ⟨rfl, ?_⟩
    rw [if_pos he]
    exact List.mem_singleton.2 rfl

/-- **Every end of a pattern lies behind a piece that it takes.** -/
theorem mem_ends {p : Pattern} :
    (d, taken) ∈ p.ends c
      ↔ ∃ piece rest, d = c.pass piece rest ∧
          p.Takes c piece rest taken := by
  refine ⟨fun h => ?_, fun ⟨piece, rest, hd, h⟩ => hd ▸ h.2⟩
  -- only the place is left to show: what was captured is carried along
  suffices hs : ∃ piece rest, c.rest = piece ++ rest ∧
      d = c.pass piece rest by
    obtain ⟨piece, rest, hrest, rfl⟩ := hs
    exact ⟨piece, rest, rfl, hrest, h⟩
  induction p generalizing c d taken with
  | empty =>
    obtain ⟨rfl, -⟩ := Prod.mk.inj (List.mem_singleton.1 h)
    exact ⟨[], d.rest, rfl, rfl⟩
  | one p =>
    unfold ends at h
    split at h
    next => cases h
    next a tail heq =>
      split at h
      next =>
        obtain ⟨rfl, -⟩ := Prod.mk.inj (List.mem_singleton.1 h)
        exact ⟨[a], tail, heq, rfl⟩
      next => cases h
  | many p =>
    simp only [ends, List.mem_map, List.mem_reverse, Prod.mk.injEq,
      Cursor.mem_reach] at h
    obtain ⟨_, ⟨piece, rest, hrest, -, rfl⟩, rfl, -⟩ := h
    exact ⟨piece, rest, hrest, rfl⟩
  | seq p q ihp ihq =>
    simp only [ends, List.mem_flatMap, List.mem_map, Prod.exists,
      Prod.mk.injEq] at h
    obtain ⟨e, t, hp, f, t', hq, rfl, -⟩ := h
    obtain ⟨piece, rest, hrest, rfl⟩ := ihp hp
    obtain ⟨more, rest', hrest', rfl⟩ := ihq hq
    rw [Cursor.rest_pass] at hrest'
    subst hrest'
    exact ⟨piece ++ more, rest', by rw [hrest, List.append_assoc],
      c.pass_pass piece more rest'⟩
  | either p q ihp ihq =>
    rcases List.mem_append.1 h with h | h
    · exact ihp h
    · exact ihq h
  | group number name p ih =>
    simp only [ends, List.mem_map, Prod.exists, Prod.mk.injEq] at h
    obtain ⟨e, t, hp, rfl, -⟩ := h
    exact ih hp
  | wordEdge =>
    unfold ends at h
    split at h
    next =>
      obtain ⟨rfl, -⟩ := Prod.mk.inj (List.mem_singleton.1 h)
      exact ⟨[], d.rest, rfl, rfl⟩
    next => cases h

/-- A sequence takes two pieces, one after the other. -/
theorem takes_seq {p q : Pattern} :
    (seq p q).Takes c piece rest taken
      ↔ ∃ first second t t', piece = first ++ second ∧ taken = t ++ t' ∧
          p.Takes c first (second ++ rest) t ∧
          q.Takes (c.pass first (second ++ rest)) second rest t' := by
  constructor
  · rintro ⟨h, hm⟩
    simp only [ends, List.mem_flatMap, List.mem_map, Prod.exists,
      Prod.mk.injEq] at hm
    obtain ⟨d, t, hp, e, t', hq, rfl, rfl⟩ := hm
    obtain ⟨first, rest₁, rfl, hfirst⟩ := mem_ends.1 hp
    obtain ⟨second, rest₂, he, hsecond⟩ := mem_ends.1 hq
    obtain rfl : rest = rest₂ := congrArg Cursor.rest he
    obtain rfl : rest₁ = second ++ rest := hsecond.1
    refine ⟨first, second, t, t', ?_, rfl, hfirst, hsecond⟩
    refine List.append_cancel_right (h.symm.trans ?_)
    rw [hfirst.1, List.append_assoc]
  · rintro ⟨first, second, t, t', rfl, rfl, hp, hq⟩
    refine ⟨by rw [hp.1, List.append_assoc], ?_⟩
    simp only [ends, List.mem_flatMap, List.mem_map, Prod.exists,
      Prod.mk.injEq]
    refine ⟨_, t, hp.2, _, t', hq.2, ?_, rfl⟩
    exact c.pass_pass first second rest

/-! ## Written patterns

Texts, repetitions and optional parts are put together from the constructors,
and their rules from those of the constructors. -/

theorem takes_char {a : Char} :
    (char a).Takes c piece rest taken
      ↔ taken = [] ∧ piece = [a] ∧ c.rest = a :: rest := by
  unfold char
  simp only [takes_one, beq_iff_eq]
  constructor
  · rintro ⟨rfl, b, rfl, rfl, h⟩
    exact ⟨rfl, rfl, h⟩
  · rintro ⟨rfl, rfl, h⟩
    exact ⟨rfl, a, rfl, rfl, h⟩

theorem takes_text {t : String} :
    (text t).Takes c piece rest taken
      ↔ taken = [] ∧ piece = t.toList ∧ c.rest = piece ++ rest := by
  unfold text
  generalize t.toList = chars
  induction chars generalizing c piece taken with
  | nil =>
    simp only [List.map_nil, inOrder, takes_empty]
    constructor
    · rintro ⟨rfl, rfl, h⟩
      exact ⟨rfl, rfl, h⟩
    · rintro ⟨rfl, rfl, h⟩
      exact ⟨rfl, rfl, h⟩
  | cons a chars ih =>
    cases chars with
    | nil =>
      simp only [List.map_cons, List.map_nil, inOrder, takes_char]
      constructor
      · rintro ⟨rfl, rfl, h⟩
        exact ⟨rfl, rfl, h⟩
      · rintro ⟨rfl, rfl, h⟩
        exact ⟨rfl, rfl, h⟩
    | cons b chars =>
      simp only [List.map_cons, inOrder, takes_seq, takes_char] at ih ⊢
      constructor
      · rintro ⟨_, second, _, t', rfl, rfl, ⟨rfl, rfl, h⟩, h'⟩
        obtain ⟨rfl, rfl, -⟩ := ih.1 h'
        exact ⟨rfl, rfl, h⟩
      · rintro ⟨rfl, rfl, h⟩
        exact ⟨[a], b :: chars, [], [], rfl, rfl, ⟨rfl, rfl, h⟩,
          ih.2 ⟨rfl, rfl, rfl⟩⟩

theorem takes_oneOrMore {p : Char → Bool} :
    (oneOrMore p).Takes c piece rest taken
      ↔ taken = [] ∧ piece ≠ [] ∧ (∀ a ∈ piece, p a) ∧
          c.rest = piece ++ rest := by
  unfold oneOrMore
  simp only [takes_seq, takes_one, takes_many]
  constructor
  · rintro ⟨_, second, _, _, rfl, rfl, ⟨rfl, a, rfl, ha, h⟩, rfl, hs, -⟩
    exact ⟨rfl, List.cons_ne_nil _ _, List.forall_mem_cons.2 ⟨ha, hs⟩, h⟩
  · rintro ⟨rfl, hne, hp, h⟩
    cases piece with
    | nil => exact absurd rfl hne
    | cons a piece =>
      obtain ⟨ha, hs⟩ := List.forall_mem_cons.1 hp
      exact ⟨[a], piece, [], [], rfl, rfl, ⟨rfl, a, rfl, ha, h⟩, rfl, hs,
        rfl⟩

/-! ## The end that a search commits to -/

/-- The end that a pattern comes to lies behind a piece it takes. -/
theorem firstEnd?_eq_some {p : Pattern}
    (h : p.firstEnd? c = some (d, taken)) :
    ∃ piece rest, d = c.pass piece rest ∧ p.Takes c piece rest taken :=
  mem_ends.1 (List.mem_of_mem_head? h)

/-- A pattern comes to no end where it takes no piece. -/
theorem firstEnd?_eq_none {p : Pattern} :
    p.firstEnd? c = none
      ↔ ∀ piece rest taken, ¬ p.Takes c piece rest taken := by
  unfold firstEnd?
  rw [List.head?_eq_none_iff]
  constructor
  · rintro h piece rest taken ⟨-, hm⟩
    rw [h] at hm
    cases hm
  · intro h
    refine List.eq_nil_iff_forall_not_mem.2 fun ⟨d, taken⟩ hm => ?_
    obtain ⟨piece, rest, -, ht⟩ := mem_ends.1 hm
    exact h piece rest taken ht

end Pattern
end SwiftStyle
