import SwiftStyle.Proofs.Pattern.Ends

/-!
# The order of occurrences

A search for a pattern answers with occurrences that follow each other in
the text: each begins behind the one before it began, none before it
ended, and each lies between characters. `Occurrence.Separate` is this
guarantee, said of any list of occurrences, and `separate_occurrences`
that the occurrences of a pattern keep it.

A pattern that takes no empty piece is searched for by leaps: from each
place the search either passes over one character, where the pattern
takes nothing, or over a whole occurrence. `Pattern.Scan` is this way of
going through a text, and `scan_occurrences` that it finds the same
occurrences.

The search itself is written over all places of the text at once, each with
the end that the pattern comes to there, and an occurrence is kept if it
begins where the last one that was kept has ended or behind that. This is how
it can be shared by patterns that take empty pieces. The leaps are for proofs:
inside an occurrence no other begins (`occurrencesAmong_inside`), so the
places in it may be passed over together.

From the leaps follow the two halves of what a rule needs to know of its
pattern: what is found is a piece that the pattern takes
(`exists_takes_of_mem`), and where the pattern takes a piece, something is
found that covers the place (`Scan.exists_covering`). It need not be that
piece, as an occurrence before it may reach over its beginning.
-/

namespace SwiftStyle

/-- **What a search guarantees** of the occurrences it finds in a text. -/
structure Occurrence.Separate (text : List Char)
    (found : List Occurrence) : Prop where
  /-- Each begins behind the place where the one before it began. -/
  ascending : found.Pairwise fun o p => o.span.start < p.span.start
  /-- None begins before the one before it has ended. -/
  disjoint : found.Pairwise fun o p => o.span.stop ≤ p.span.start
  /-- Each begins and ends between characters. -/
  bounded : ∀ o ∈ found,
    Text.slice? o.span.start o.span.stop text = some o.text

theorem Occurrence.Separate.of_cons {text : List Char} {o : Occurrence}
    {found : List Occurrence} (h : Separate text (o :: found)) :
    Separate text found :=
  ⟨h.ascending.of_cons, h.disjoint.of_cons,
    fun p hp => h.bounded p (List.mem_cons_of_mem o hp)⟩

/-- Two occurrences are the same, or one ends before the other begins. -/
theorem Occurrence.Separate.apart {text : List Char}
    {found : List Occurrence} (h : Separate text found) {o p : Occurrence}
    (ho : o ∈ found) (hp : p ∈ found) :
    o = p ∨ o.span.stop ≤ p.span.start ∨ p.span.stop ≤ o.span.start :=
  List.Pairwise.forall_of_forall_of_flip (R := fun o p : Occurrence =>
      o = p ∨ o.span.stop ≤ p.span.start ∨ p.span.stop ≤ o.span.start)
    (fun _ _ => .inl rfl) (h.disjoint.imp fun h => .inr (.inl h))
    (h.disjoint.imp fun h => .inr (.inr h)) ho hp

/-- **The occurrence that a piece behind a text is**, with what was
captured in it. -/
def Occurrence.behind (front piece : List Char)
    (taken : List Pattern.Capture) : Occurrence :=
  ⟨⟨Text.size front, Text.size (front ++ piece)⟩, piece,
    taken.map (·.group)⟩

theorem Occurrence.behind_eq (front piece : List Char)
    (taken : List Pattern.Capture) :
    behind front piece taken
      = ⟨⟨Text.size front, Text.size front + Text.size piece⟩, piece,
          taken.map (·.group)⟩ := by
  unfold behind
  rw [Text.size_append]

namespace Pattern

variable {p : Pattern} {c d : Cursor} {taken : List Capture}

theorem between_pass {piece rest : List Char} (h : c.rest = piece ++ rest)
    (taken : List Capture) :
    Occurrence.between c (c.pass piece rest) taken
      = ⟨⟨c.offset, c.offset + Text.size piece⟩, piece,
          taken.map (·.group)⟩ := by
  unfold Occurrence.between
  rw [Cursor.textTo_pass h, Cursor.offset_pass]

/-- An occurrence that is found at a place is a piece that the pattern
takes there, and begins where the one before it ended or later. -/
theorem occurrenceAt?_eq_some {last : Option Nat} {o : Occurrence}
    {stop : Nat} (h : occurrenceAt? last c (p.firstEnd? c) = some (o, stop)) :
    ∃ piece rest taken, p.Takes c piece rest taken ∧
      o = ⟨⟨c.offset, stop⟩, piece, taken.map (·.group)⟩ ∧
      stop = c.offset + Text.size piece ∧ ∀ s ∈ last, s ≤ c.offset := by
  unfold occurrenceAt? at h
  split at h
  next => cases h
  next d taken heq =>
    obtain ⟨piece, rest, rfl, ht⟩ := firstEnd?_eq_some heq
    split at h
    next => cases h
    next hlast =>
      split at h
      next => cases h
      next =>
        rw [between_pass ht.1] at h
        obtain ⟨rfl, rfl⟩ := Prod.mk.inj (Option.some.inj h)
        refine ⟨piece, rest, taken, ht, rfl, rfl, fun s hs => ?_⟩
        obtain rfl : last = some s := hs
        simpa using hlast

/-- An occurrence that is found behind a beginning of a text starts at
its end, and is the piece of the text between its two offsets. -/
theorem span_occurrenceAt? {last : Option Nat} {before : Option Char}
    {front rest : List Char} {o : Occurrence} {stop : Nat}
    (h : occurrenceAt? last ⟨before, Text.size front, rest⟩
      (p.firstEnd? ⟨before, Text.size front, rest⟩) = some (o, stop)) :
    o.span = ⟨Text.size front, stop⟩ ∧ (∀ s ∈ last, s ≤ Text.size front) ∧
      Text.slice? o.span.start o.span.stop (front ++ rest)
        = some o.text := by
  obtain ⟨piece, tail, taken, ht, rfl, rfl, hlast⟩ :=
    occurrenceAt?_eq_some h
  refine ⟨rfl, hlast, Text.slice?_eq_some.2 ⟨front, tail, ?_, rfl, ?_⟩⟩
  · rw [List.append_assoc, ← ht.1]
  · rw [Text.size_append]

/-- What the occurrences among the places of a text keep to: they begin
at or behind the first place, and not before the occurrence before them
has ended. -/
theorem separate_occurrencesAmong (p : Pattern) (last : Option Nat)
    (before : Option Char) (front rest : List Char) :
    let places := Cursor.places before (Text.size front) rest
    let found := occurrencesAmong last places (places.map p.firstEnd?)
    Occurrence.Separate (front ++ rest) found ∧
      ∀ o ∈ found, Text.size front ≤ o.span.start ∧
        ∀ s ∈ last, s ≤ o.span.start := by
  induction rest generalizing last before front with
  | nil =>
    simp only [Cursor.places, List.map_cons, List.map_nil,
      occurrencesAmong]
    split
    next o stop heq =>
      obtain ⟨hspan, hlast, hslice⟩ := span_occurrenceAt? heq
      refine ⟨⟨List.pairwise_singleton .., List.pairwise_singleton ..,
        List.forall_mem_singleton.2 hslice⟩,
        List.forall_mem_singleton.2 ?_⟩
      rw [hspan]
      exact ⟨Nat.le_refl _, hlast⟩
    next => exact ⟨⟨.nil, .nil, by simp⟩, by simp⟩
  | cons a tail ih =>
    have hsize : Text.size (front ++ [a]) = Text.size front + a.utf8Size := by
      rw [Text.size_append, Text.size_cons, Text.size_nil, Nat.add_zero]
    have hpos := a.utf8Size_pos
    have hrest : front ++ a :: tail = front ++ [a] ++ tail := by simp
    simp only [Cursor.places, List.map_cons, occurrencesAmong]
    split
    next o stop heq =>
      -- what follows begins behind this place, and not before `stop`
      obtain ⟨hspan, hlast, hslice⟩ := span_occurrenceAt? heq
      obtain ⟨hsep, hlater⟩ := ih (some stop) (some a) (front ++ [a])
      rw [hsize] at hsep hlater
      rw [← hrest] at hsep
      refine ⟨⟨?_, ?_, ?_⟩, ?_⟩
      · refine List.pairwise_cons.2 ⟨fun q hq => ?_, hsep.ascending⟩
        have := (hlater q hq).1
        rw [hspan]
        dsimp only
        omega
      · refine List.pairwise_cons.2 ⟨fun q hq => ?_, hsep.disjoint⟩
        rw [hspan]
        exact (hlater q hq).2 stop rfl
      · exact List.forall_mem_cons.2 ⟨hslice, hsep.bounded⟩
      · refine List.forall_mem_cons.2 ⟨?_, fun q hq => ?_⟩
        · rw [hspan]
          exact ⟨Nat.le_refl _, hlast⟩
        · have := (hlater q hq).1
          exact ⟨by omega, fun s hs => by have := hlast s hs; omega⟩
    next heq =>
      obtain ⟨hsep, hlater⟩ := ih last (some a) (front ++ [a])
      rw [hsize] at hsep hlater
      rw [← hrest] at hsep
      refine ⟨hsep, fun q hq => ⟨?_, (hlater q hq).2⟩⟩
      have := (hlater q hq).1
      omega

/-- **The occurrences of a pattern are separate.** -/
theorem separate_occurrences (p : Pattern) (text : List Char) :
    Occurrence.Separate text (p.occurrences text) := by
  rw [occurrences_eq]
  exact (separate_occurrencesAmong p none none [] text).1

/-! ## Searching by leaps

By induction on the text, with the place and what was found before it
general: an occurrence that is not empty ends behind its place, and the
search goes on from there. -/

/-- **A search by leaps** from a place of a text: where the pattern comes
to no end, one character is passed over, and else the piece up to the end
it comes to, which is an occurrence. -/
inductive Scan (p : Pattern) : Cursor → List Occurrence → Prop where
  /-- The text is at its end. -/
  | done {c : Cursor} (hrest : c.rest = []) : Scan p c []
  /-- No occurrence begins here. -/
  | skip {c : Cursor} {a : Char} {rest : List Char}
    {found : List Occurrence} (hrest : c.rest = a :: rest)
    (hnone : p.firstEnd? c = none) (tail : Scan p (c.pass [a] rest) found) :
    Scan p c found
  /-- An occurrence begins here. -/
  | take {c : Cursor} {piece rest : List Char} {taken : List Capture}
    {found : List Occurrence} (ht : p.Takes c piece rest taken)
    (tail : Scan p (c.pass piece rest) found) :
    Scan p c (⟨⟨c.offset, c.offset + Text.size piece⟩, piece,
      taken.map (·.group)⟩ :: found)

theorem getLast?_cons_or (a : Char) (piece : List Char)
    (before : Option Char) :
    (a :: piece).getLast?.or before = piece.getLast?.or (some a) := by
  rw [List.getLast?_cons]
  cases piece.getLast? <;> rfl

/-- Inside an occurrence none begins. -/
theorem occurrencesAmong_inside (p : Pattern) (before : Option Char)
    (offset : Nat) (piece rest : List Char) :
    let stop := offset + Text.size piece
    let inside := Cursor.places before offset (piece ++ rest)
    let behind := Cursor.places (piece.getLast?.or before) stop rest
    occurrencesAmong (some stop) inside (inside.map p.firstEnd?)
      = occurrencesAmong (some stop) behind (behind.map p.firstEnd?) := by
  induction piece generalizing before offset with
  | nil => rfl
  | cons a piece ih =>
    have hpos := a.utf8Size_pos
    have hnone : ∀ stop?, occurrenceAt?
        (some (offset + Text.size (a :: piece)))
        ⟨before, offset, a :: (piece ++ rest)⟩ stop? = none := by
      rintro (_ | ⟨d, taken⟩)
      · rfl
      · unfold occurrenceAt?
        dsimp only
        rw [if_pos]
        simp only [Option.any_some, decide_eq_true_eq, Text.size_cons]
        omega
    have ih := ih (some a) (offset + a.utf8Size)
    dsimp only at ih ⊢
    rw [Nat.add_assoc, ← Text.size_cons] at ih
    rw [getLast?_cons_or, ← ih, List.cons_append, Cursor.places, List.map_cons,
      occurrencesAmong, hnone]

theorem occurrenceAt?_of_takes {last : Option Nat} {piece rest : List Char}
    (hlast : ∀ s ∈ last, s ≤ c.offset) (hne : piece ≠ [])
    (ht : p.Takes c piece rest taken) :
    occurrenceAt? last c (some (c.pass piece rest, taken))
      = some (⟨⟨c.offset, c.offset + Text.size piece⟩, piece,
          taken.map (·.group)⟩, c.offset + Text.size piece) := by
  have hpos := Text.size_pos hne
  unfold occurrenceAt?
  dsimp only
  rw [between_pass ht.1, if_neg, if_neg]
  · rfl
  · rw [Cursor.offset_pass, Bool.and_eq_true, decide_eq_true_eq]
    omega
  · rw [Option.any_eq_true]
    rintro ⟨s, hs, hlt⟩
    have := hlast s hs
    rw [decide_eq_true_eq] at hlt
    omega

/-- The occurrences among the places of a text are those of a search by
leaps, if the last one found has ended. -/
theorem scan_occurrencesAmong {p : Pattern}
    (hne : ∀ c rest taken, ¬ p.Takes c [] rest taken)
    (last : Option Nat) (before : Option Char) (offset : Nat)
    (text : List Char) (hlast : ∀ s ∈ last, s ≤ offset) :
    Scan p ⟨before, offset, text⟩
      (occurrencesAmong last (Cursor.places before offset text)
        ((Cursor.places before offset text).map p.firstEnd?)) := by
  induction hn : text.length using Nat.strongRecOn
    generalizing last before offset text with
  | ind n ih =>
    subst hn
    cases text with
    | nil =>
      have hnone : p.firstEnd? ⟨before, offset, []⟩ = none := by
        refine firstEnd?_eq_none.2 fun piece rest taken ht => ?_
        obtain ⟨rfl, rfl⟩ := List.append_eq_nil_iff.1 ht.1.symm
        exact hne _ _ _ ht
      rw [Cursor.places, List.map_singleton, hnone, occurrencesAmong]
      exact .done rfl
    | cons a text =>
      have hpos := a.utf8Size_pos
      rw [Cursor.places, List.map_cons, occurrencesAmong]
      cases hend : p.firstEnd? ⟨before, offset, a :: text⟩ with
      | none =>
        refine .skip rfl hend (ih _ (Nat.lt_succ_self _) last (some a)
          (offset + a.utf8Size) text (fun s hs => ?_) rfl)
        have := hlast s hs
        omega
      | some e =>
        -- the search tries every place of the piece and finds none there
        obtain ⟨d, taken⟩ := e
        obtain ⟨piece, rest, rfl, ht⟩ := firstEnd?_eq_some hend
        have hpiece : piece ≠ [] := fun h => hne _ _ _ (h ▸ ht)
        rw [occurrenceAt?_of_takes hlast hpiece ht]
        obtain ⟨b, piece, rfl⟩ := List.exists_cons_of_ne_nil hpiece
        have htext : a :: text = b :: (piece ++ rest) := ht.1
        obtain ⟨rfl, rfl⟩ := List.cons.inj htext
        refine .take ht ?_
        have hinside := occurrencesAmong_inside p (some a)
          (offset + a.utf8Size) piece rest
        have hstop : offset + Text.size (a :: piece)
            = offset + a.utf8Size + Text.size piece :=
          (Nat.add_assoc ..).symm
        dsimp only at hinside ⊢
        rw [hstop, hinside]
        unfold Cursor.pass
        dsimp only
        rw [getLast?_cons_or, hstop]
        refine ih _ ?_ _ _ _ _ (fun s hs => ?_) rfl
        · rw [List.length_cons, List.length_append]
          omega
        · obtain rfl : _ = s := Option.some.inj hs
          exact Nat.le_refl _

/-- **A pattern that takes no empty piece is searched for by leaps.** -/
theorem scan_occurrences {p : Pattern}
    (hne : ∀ c rest taken, ¬ p.Takes c [] rest taken) (text : List Char) :
    Scan p (.start text) (p.occurrences text) := by
  rw [occurrences_eq]
  exact scan_occurrencesAmong hne none none 0 text (by simp)

/-- What a search by leaps finds behind a text are pieces that the
pattern takes. -/
theorem Scan.exists_takes {p : Pattern} (front : List Char) {text : List Char}
    {found : List Occurrence}
    (h : Scan p ⟨front.getLast?, Text.size front, text⟩ found)
    {o : Occurrence} (ho : o ∈ found) :
    ∃ front' piece rest taken, front ++ text = front' ++ (piece ++ rest) ∧
      p.Takes ⟨front'.getLast?, Text.size front', piece ++ rest⟩ piece rest
        taken ∧
      o = .behind front' piece taken := by
  -- behind a piece the character before is the last one of all the text
  have hpass : ∀ front piece rest : List Char,
      (⟨(front ++ piece).getLast?, Text.size (front ++ piece), rest⟩ : Cursor)
        = Cursor.pass ⟨front.getLast?, Text.size front, piece ++ rest⟩ piece
            rest := by
    intro front piece rest
    rw [Cursor.pass_behind, List.getLast?_append]
  generalize hc : (⟨front.getLast?, Text.size front, text⟩ : Cursor) = c at h
  induction h generalizing front text with
  | done => cases ho
  | @skip c a rest found hrest _ _ ih =>
    subst hc
    obtain rfl : text = a :: rest := hrest
    obtain ⟨front', piece, rest', taken, htext, ht⟩ :=
      ih _ ho (hpass front [a] rest)
    rw [List.append_assoc, List.singleton_append] at htext
    exact ⟨front', piece, rest', taken, htext, ht⟩
  | @take c piece rest taken found ht _ ih =>
    subst hc
    obtain rfl : text = piece ++ rest := ht.1
    rcases List.mem_cons.1 ho with rfl | ho
    · exact ⟨front, piece, rest, taken, rfl, ht,
        (Occurrence.behind_eq front piece taken).symm⟩
    · obtain ⟨front', piece', rest', taken', htext, ht'⟩ :=
        ih _ ho (hpass front piece rest)
      rw [List.append_assoc] at htext
      exact ⟨front', piece', rest', taken', htext, ht'⟩

/-- **The occurrences in a text are pieces that the pattern takes**, if it
takes no empty one. -/
theorem exists_takes_of_mem {p : Pattern}
    (hne : ∀ c rest taken, ¬ p.Takes c [] rest taken) {text : List Char}
    {o : Occurrence} (ho : o ∈ p.occurrences text) :
    ∃ front piece rest taken, text = front ++ (piece ++ rest) ∧
      p.Takes ⟨front.getLast?, Text.size front, piece ++ rest⟩ piece rest
        taken ∧
      o = .behind front piece taken :=
  Scan.exists_takes [] (scan_occurrences hne text) ho

/-- **A search by leaps misses nothing**: a place at which the pattern takes
a piece is where an occurrence begins, or inside one. -/
theorem Scan.exists_covering {p : Pattern} {before : Option Char}
    {front middle rest : List Char} {found : List Occurrence}
    (h : Scan p ⟨before, Text.size front, middle ++ rest⟩ found)
    (htakes : ∀ before, ∃ piece back taken, piece ≠ [] ∧
      p.Takes ⟨before, Text.size (front ++ middle), rest⟩ piece back taken) :
    ∃ o ∈ found, o.span.start ≤ Text.size (front ++ middle) ∧
      Text.size (front ++ middle) < o.span.stop := by
  generalize hc : (⟨before, Text.size front, middle ++ rest⟩ : Cursor) = c
    at h
  induction h generalizing front middle before with
  | done hrest =>
    subst hc
    obtain ⟨piece, back, taken, hne, ht⟩ := htakes none
    rw [(List.append_eq_nil_iff.1 hrest).2] at ht
    exact absurd (List.append_eq_nil_iff.1 ht.1.symm).1 hne
  | @skip c a tail found hrest hnone _ ih =>
    subst hc
    cases middle with
    | nil =>
      -- the search would not pass over this place
      obtain ⟨piece, back, taken, -, ht⟩ := htakes before
      rw [List.append_nil] at ht
      exact absurd ht (firstEnd?_eq_none.1 hnone _ _ _)
    | cons b middle =>
      obtain ⟨rfl, rfl⟩ := List.cons.inj hrest
      have hassoc : front ++ b :: middle = front ++ [b] ++ middle := by simp
      rw [hassoc] at htakes ⊢
      exact ih htakes (Cursor.pass_behind before front [b] _).symm
  | @take c piece tail taken found ht _ ih =>
    subst hc
    have htext : middle ++ rest = piece ++ tail := ht.1
    by_cases hlt : Text.size middle < Text.size piece
    · refine ⟨_, List.mem_cons_self, ?_, ?_⟩
      · rw [Text.size_append]
        exact Nat.le_add_right ..
      · rw [Text.size_append]
        exact Nat.add_lt_add_left hlt _
    · obtain ⟨more, rfl, rfl⟩ :=
        Text.exists_append_of_size_le htext.symm (Nat.le_of_not_lt hlt)
      rw [← List.append_assoc] at htakes ⊢
      obtain ⟨o, ho, hcovers⟩ :=
        ih htakes (Cursor.pass_behind before front piece _).symm
      exact ⟨o, List.mem_cons_of_mem _ ho, hcovers⟩

end Pattern
end SwiftStyle
