import SwiftStyle.Proofs.Token.Plain

/-!
# Sweeps

A substitution goes through a text once. What it does at a place depends
on the text behind the place – whether it **reads** a piece there – and
on the text before it only through what crosses the place. `Reading`
holds these two decisions, and `Sweep` is the way through a text that
they determine: characters where nothing is read are copied, pieces that
are read are left or replaced.

What a sweep makes of a text is determined by the text (`Sweep.unique`).
The text before it may be exchanged for another one with the same future
(`SameState`), and this is how a replacement that was made before a place
is dealt with: all that is asked of it is that it is **steady**, so that
what crosses the places behind it stays the same.

A reading is **lawful** if its replacements make nothing that could be
read. Then a second sweep finds nothing to replace (`Sweep.again`). Two
lawful readings are **apart** if neither reads anything in a piece that
the other reads or writes; then the order of the two sweeps does not
matter (`Sweep.diamond`).
-/

namespace SwiftStyle

/-- **What is read in a text.** -/
structure Reading where
  /-- A piece is read in front of a text, and may be replaced by
  another. -/
  reads : (piece written back : List Char) → Prop
  /-- The piece is replaced, by what crosses its beginning and by the text
  behind it. -/
  keeps : Option Token.Kind → (back : List Char) → Prop

/-- Nothing is read at the front of a text. -/
def Reading.Silent (R : Reading) (text : List Char) : Prop :=
  ∀ {piece written back}, R.reads piece written back → text ≠ piece ++ back

/-- **The same future**: the same kinds cross the places behind two
texts, whatever text follows them. -/
def SameState (front front' : List Char) : Prop :=
  ∀ more back, crossing (front ++ more) back = crossing (front' ++ more) back

/-- A replacement behind a text does not change what follows. -/
def Steady (front piece written : List Char) : Prop :=
  SameState (front ++ piece) (front ++ written)

/-- **A sweep through a text** that follows another one, with what it
makes of it and the number of pieces it replaces. All replacements
satisfy `P`. -/
inductive Sweep (R : Reading) (P : List Char → List Char → List Char → Prop) :
    (front text result : List Char) → Nat → Prop where
  /-- The text is at its end. -/
  | done (front : List Char) : Sweep R P front [] [] 0
  /-- Nothing is read here. -/
  | skip {front text result : List Char} {c : Char} {n : Nat}
    (hsilent : R.Silent (c :: text))
    (tail : Sweep R P (front ++ [c]) text result n) :
    Sweep R P front (c :: text) (c :: result) n
  /-- A piece is read and left. -/
  | leave {front piece written text result : List Char} {n : Nat}
    (hreads : R.reads piece written text)
    (hleave : ¬ R.keeps (crossing front (piece ++ text)) text)
    (tail : Sweep R P (front ++ piece) text result n) :
    Sweep R P front (piece ++ text) (piece ++ result) n
  /-- A piece is read and replaced. -/
  | edit {front piece written text result : List Char} {n : Nat}
    (hreads : R.reads piece written text)
    (hkeeps : R.keeps (crossing front (piece ++ text)) text)
    (hsafe : P front piece written)
    (tail : Sweep R P (front ++ piece) text result n) :
    Sweep R P front (piece ++ text) (written ++ result) (n + 1)

/-! ## The same future

Two texts with the same future may be exchanged in front of any text: the
lexemes behind them are divided in the same way, although those in the two
texts are not the same. -/

namespace SameState

variable {front front' front'' : List Char}

theorem symm (h : SameState front front') : SameState front' front :=
  fun more back => (h more back).symm

theorem trans (h : SameState front front') (h' : SameState front' front'') :
    SameState front front'' :=
  fun more back => (h more back).trans (h' more back)

theorem append (h : SameState front front') (text : List Char) :
    SameState (front ++ text) (front' ++ text) := by
  intro more back
  rw [List.append_assoc, List.append_assoc]
  exact h (text ++ more) back

theorem crossing_eq (h : SameState front front') (back : List Char) :
    crossing front back = crossing front' back := by
  have := h [] back
  rwa [List.append_nil, List.append_nil] at this

theorem steady (h : SameState front front') {piece written : List Char}
    (hs : Steady front piece written) : Steady front' piece written :=
  ((h.append piece).symm.trans hs).trans (h.append written)

end SameState

/-- **At a border a replacement is steady** if the piece and what is
written for it are transparent and begin with the same firm character. -/
theorem Steady.of_border {front p w back : List Char} {y : Char}
    (hy : Lexeme.isFirm y) (hnone : crossing front (y :: back) = none)
    (hp : ∀ more back, crossing (y :: p ++ more) back = crossing more back)
    (hw : ∀ more back, crossing (y :: w ++ more) back = crossing more back) :
    Steady front (y :: p) (y :: w) := by
  intro more back'
  have hborder : ∀ text, crossing front (y :: text) = none := fun text =>
    (crossing_firm hy front text back).trans hnone
  rw [List.append_assoc, List.append_assoc,
    crossing_append (y :: p ++ more) (hborder _),
    crossing_append (y :: w ++ more) (hborder _), hp, hw]

namespace Reading

variable {R : Reading}

/-- **Nothing is read inside a text** in front of another one. -/
def Clear (R : Reading) : (text next : List Char) → Prop
  | [], _ => True
  | c :: text, next => R.Silent (c :: (text ++ next)) ∧ R.Clear text next

theorem clear_append {u v next : List Char} :
    R.Clear (u ++ v) next ↔ R.Clear u (v ++ next) ∧ R.Clear v next := by
  induction u with
  | nil => exact (and_iff_right trivial).symm
  | cons c u ih =>
    rw [List.cons_append, Clear, Clear, ih, List.append_assoc, and_assoc]

/-- **Nothing is read inside a text**, whatever follows it. -/
def Passes (R : Reading) (text : List Char) : Prop :=
  ∀ next, R.Clear text next

/-- **One reading is blind to another** if it reads nothing in what the
other reads and writes. -/
def Blind (S R : Reading) : Prop :=
  ∀ {piece written back}, R.reads piece written back →
    S.Passes piece ∧ S.Passes written

/-- **The laws of a reading**: it depends on no more than the first
character of the text behind, reads one piece at most, and replaces it by
a text with the same first character in which nothing is read. -/
structure Lawful (R : Reading) : Prop where
  /-- A piece and its replacement begin with the same firm character. -/
  head : ∀ {piece written back}, R.reads piece written back →
    ∃ y p w, piece = y :: p ∧ written = y :: w ∧ Lexeme.isFirm y
  /-- The text behind a piece matters by its first character alone. -/
  congr : ∀ {piece written back back'}, R.reads piece written back →
    back.head? = back'.head? → R.reads piece written back'
  /-- The same is true of what is replaced. -/
  keeps_congr : ∀ {kind back back'}, R.keeps kind back →
    back.head? = back'.head? → R.keeps kind back'
  /-- At most one piece is read. -/
  unique : ∀ {piece written back piece' written' back'},
    R.reads piece written back → R.reads piece' written' back' →
    piece ++ back = piece' ++ back' → piece = piece' ∧ written = written'
  /-- Nothing is read in what is written. -/
  settled : ∀ {piece written back}, R.reads piece written back →
    R.Passes written

/-- **One reading spares another** if nothing that the other reads comes
from a replacement it has made farther on. -/
def Spares (S R : Reading) : Prop :=
  ∀ {piece written back front found found' behind behind'},
    S.reads piece written back → R.reads found found' behind →
    front ≠ [] → front ++ (written ++ behind') = found ++ behind →
    ∃ behind', R.reads found found' behind' ∧
      front ++ (piece ++ back) = found ++ behind'

/-- **Two readings are apart** if each is blind to the other and spares
it. -/
structure Apart (R S : Reading) : Prop where
  /-- The first is blind to the second. -/
  blind_left : R.Blind S
  /-- The second is blind to the first. -/
  blind_right : S.Blind R
  /-- The first spares the second. -/
  spares_left : R.Spares S
  /-- The second spares the first. -/
  spares_right : S.Spares R

theorem Lawful.ne_nil (hR : R.Lawful) {piece written back : List Char}
    (h : R.reads piece written back) : piece ≠ [] ∧ written ≠ [] := by
  obtain ⟨y, p, w, rfl, rfl, -⟩ := hR.head h
  exact ⟨List.cons_ne_nil _ _, List.cons_ne_nil _ _⟩

/-- What crosses the beginning of a piece does not depend on the text
behind the piece. -/
theorem Lawful.crossing_eq (hR : R.Lawful) {piece written text : List Char}
    (h : R.reads piece written text) (front back back' : List Char) :
    crossing front (piece ++ back) = crossing front (piece ++ back') := by
  obtain ⟨y, p, w, rfl, -, hy⟩ := hR.head h
  exact crossing_firm hy front (p ++ back) (p ++ back')

end Reading

/-- The text behind a piece is shorter. -/
theorem length_lt_append {piece : List Char} (hne : piece ≠ [])
    (back : List Char) : back.length < (piece ++ back).length := by
  have := List.length_pos_iff.2 hne
  rw [List.length_append]
  omega

namespace Sweep

variable {R S : Reading} {P Q : List Char → List Char → List Char → Prop}
  {front front' text text' result result' : List Char} {m n : Nat}

theorem mono (hPQ : ∀ front piece written, P front piece written →
    Q front piece written) (h : Sweep R P front text result n) :
    Sweep R Q front text result n := by
  induction h with
  | done front => exact .done front
  | skip hsilent _ ih => exact .skip hsilent ih
  | leave hreads hleave _ ih => exact .leave hreads hleave ih
  | edit hreads hkeeps hsafe _ ih =>
    exact .edit hreads hkeeps (hPQ _ _ _ hsafe) ih

/-- **What may be at the front of a text**: nothing, a character where
nothing is read, or a piece that is read. -/
theorem front_cases (h : Sweep R P front text result n) :
    text = [] ∨ (∃ c rest, text = c :: rest ∧ R.Silent (c :: rest)) ∨
      ∃ piece written back, text = piece ++ back ∧
        R.reads piece written back := by
  cases h with
  | done => exact .inl rfl
  | skip hsilent => exact .inr (.inl ⟨_, _, rfl, hsilent⟩)
  | leave hreads => exact .inr (.inr ⟨_, _, _, rfl, hreads⟩)
  | edit hreads => exact .inr (.inr ⟨_, _, _, rfl, hreads⟩)

/-- What a sweep does where nothing is read. -/
theorem of_silent {c : Char} (hsilent : R.Silent (c :: text))
    (h : Sweep R P front (c :: text) result n) :
    ∃ result', result = c :: result' ∧
      Sweep R P (front ++ [c]) text result' n := by
  generalize ht : c :: text = whole at h hsilent
  cases h with
  | done => cases ht
  | skip _ tail =>
    obtain ⟨rfl, rfl⟩ := List.cons.inj ht
    exact ⟨_, rfl, tail⟩
  | leave hreads => exact absurd rfl (hsilent hreads)
  | edit hreads => exact absurd rfl (hsilent hreads)

/-- What a sweep that replaces nothing does at a character. -/
theorem of_cons {c : Char} (h : Sweep R P front (c :: text) result 0) :
    (R.Silent (c :: text) ∧ ∃ result', result = c :: result' ∧
      Sweep R P (front ++ [c]) text result' 0) ∨
    ∃ piece written back result', R.reads piece written back ∧
      ¬ R.keeps (crossing front (c :: text)) back ∧
        c :: text = piece ++ back ∧ result = piece ++ result' ∧
          Sweep R P (front ++ piece) back result' 0 := by
  generalize ht : c :: text = whole at h ⊢
  generalize hn : 0 = n at h
  cases h with
  | done => cases ht
  | skip hsilent tail =>
    obtain ⟨rfl, rfl⟩ := List.cons.inj ht
    exact .inl ⟨hsilent, _, rfl, tail⟩
  | leave hreads hleave tail =>
    exact .inr ⟨_, _, _, _, hreads, hleave, rfl, rfl, tail⟩
  | edit => cases hn

/-- What a sweep does where a piece is read. -/
theorem of_reads (hR : R.Lawful) {piece written back : List Char}
    (hreads : R.reads piece written back)
    (h : Sweep R P front (piece ++ back) result n) :
    (∃ result', result = piece ++ result' ∧
      ¬ R.keeps (crossing front (piece ++ back)) back ∧
        Sweep R P (front ++ piece) back result' n) ∨
    ∃ result' m, result = written ++ result' ∧ n = m + 1 ∧
      R.keeps (crossing front (piece ++ back)) back ∧
        P front piece written ∧ Sweep R P (front ++ piece) back result' m := by
  generalize ht : piece ++ back = whole at h
  cases h with
  | done => exact absurd (List.append_eq_nil_iff.1 ht).1 (hR.ne_nil hreads).1
  | skip hsilent => exact absurd ht.symm (hsilent hreads)
  | leave hreads' hleave tail =>
    obtain ⟨rfl, rfl⟩ := hR.unique hreads hreads' ht
    obtain rfl := List.append_cancel_left ht
    exact .inl ⟨_, rfl, hleave, tail⟩
  | edit hreads' hkeeps hsafe tail =>
    obtain ⟨rfl, rfl⟩ := hR.unique hreads hreads' ht
    obtain rfl := List.append_cancel_left ht
    exact .inr ⟨_, _, rfl, rfl, hkeeps, hsafe, tail⟩

/-- **A sweep is determined by the text** it goes through. -/
theorem unique (hR : R.Lawful) (h : Sweep R P front text result n)
    (h' : Sweep R Q front text result' m) : result = result' ∧ n = m := by
  induction h generalizing result' m with
  | done =>
    generalize ht : [] = whole at h'
    cases h' with
    | done => exact ⟨rfl, rfl⟩
    | skip => cases ht
    | leave hreads =>
      exact absurd (List.append_eq_nil_iff.1 ht.symm).1 (hR.ne_nil hreads).1
    | edit hreads =>
      exact absurd (List.append_eq_nil_iff.1 ht.symm).1 (hR.ne_nil hreads).1
  | skip hsilent _ ih =>
    obtain ⟨result', rfl, tail⟩ := h'.of_silent hsilent
    obtain ⟨rfl, rfl⟩ := ih tail
    exact ⟨rfl, rfl⟩
  | leave hreads hleave _ ih =>
    rcases h'.of_reads hR hreads with
      ⟨result', rfl, -, tail⟩ | ⟨_, _, _, _, hkeeps, -, -⟩
    · obtain ⟨rfl, rfl⟩ := ih tail
      exact ⟨rfl, rfl⟩
    · exact absurd hkeeps hleave
  | edit hreads hkeeps _ _ ih =>
    rcases h'.of_reads hR hreads with
      ⟨_, _, hleave, -⟩ | ⟨result', m, rfl, rfl, -, -, tail⟩
    · exact absurd hkeeps hleave
    · obtain ⟨rfl, rfl⟩ := ih tail
      exact ⟨rfl, rfl⟩

/-- A sweep does not see the text before it but through its future. -/
theorem congr (hs : SameState front front')
    (h : Sweep R Steady front text result n) :
    Sweep R Steady front' text result n := by
  induction h generalizing front' with
  | done => exact .done front'
  | skip hsilent _ ih => exact .skip hsilent (ih (hs.append _))
  | leave hreads hleave _ ih =>
    rw [hs.crossing_eq] at hleave
    exact .leave hreads hleave (ih (hs.append _))
  | edit hreads hkeeps hsafe _ ih =>
    rw [hs.crossing_eq] at hkeeps
    exact .edit hreads hkeeps (hs.steady hsafe) (ih (hs.append _))

/-- A sweep does not change the first character. -/
theorem head?_eq (hR : R.Lawful) (h : Sweep R P front text result n) :
    result.head? = text.head? := by
  cases h with
  | done => rfl
  | skip => rfl
  | leave hreads =>
    obtain ⟨y, p, w, rfl, -, -⟩ := hR.head hreads
    rfl
  | edit hreads =>
    obtain ⟨y, p, w, rfl, rfl, -⟩ := hR.head hreads
    rfl

/-- **Where the text and the result of a sweep part**, if they do: at the
first piece that is replaced. -/
theorem first_edit (h : Sweep R P front text result n) :
    result = text ∨ ∃ before piece written back behind,
      R.reads piece written back ∧ text = before ++ (piece ++ back) ∧
        result = before ++ (written ++ behind) := by
  induction h with
  | done => exact .inl rfl
  | @skip front text result c n hsilent _ ih =>
    rcases ih with rfl | ⟨before, piece, written, back, behind, hr, rfl, rfl⟩
    · exact .inl rfl
    · exact .inr ⟨c :: before, piece, written, back, behind, hr, rfl, rfl⟩
  | @leave front piece written text result n hreads hleave _ ih =>
    rcases ih with rfl | ⟨before, piece', written', back, behind, hr, rfl, rfl⟩
    · exact .inl rfl
    · exact .inr ⟨piece ++ before, piece', written', back, behind, hr,
        by simp, by simp⟩
  | @edit front piece written text result n hreads =>
    exact .inr ⟨[], piece, written, text, result, hreads, rfl, rfl⟩

/-- A reading that another one spares reads nothing in front of its
result that it does not read in front of the text. -/
theorem silent (hspares : S.Spares R) (h : Sweep S P front text result n)
    {c : Char} (hsilent : R.Silent (c :: text)) :
    R.Silent (c :: result) := by
  intro found found' behind hfound hresult
  rcases h.first_edit with rfl |
    ⟨before, piece, written, back, behind', hr, rfl, rfl⟩
  · exact hsilent hfound hresult
  · obtain ⟨behind'', hfound', htext⟩ := hspares hr hfound
      (List.cons_ne_nil c before) hresult
    exact hsilent hfound' htext

/-- A sweep copies text inside which nothing is read. -/
theorem through {piece : List Char} (hp : R.Clear piece text)
    (h : Sweep R P (front ++ piece) text result n) :
    Sweep R P front (piece ++ text) (piece ++ result) n := by
  induction piece generalizing front with
  | nil => rwa [List.append_nil] at h
  | cons c piece ih =>
    refine .skip hp.1 (ih hp.2 ?_)
    rwa [List.append_assoc]

/-- Text inside which nothing is read was copied. -/
theorem of_through {piece : List Char} (hp : R.Clear piece text)
    (h : Sweep R P front (piece ++ text) result n) :
    ∃ result', result = piece ++ result' ∧
      Sweep R P (front ++ piece) text result' n := by
  induction piece generalizing front result with
  | nil => exact ⟨result, rfl, by rwa [List.append_nil]⟩
  | cons c piece ih =>
    obtain ⟨_, rfl, hrest⟩ := h.of_silent hp.1
    obtain ⟨result', rfl, tail⟩ := ih hp.2 hrest
    rw [List.append_assoc] at tail
    exact ⟨result', rfl, tail⟩

/-! ## Sweeping again

By induction on the first sweep. Where it copied a character, nothing is read
in front of the result either; where it left a piece, it is left again; and
where it replaced one, the sweep goes through what was written, and on behind
it with the future that the piece had. -/

/-- **After a sweep there is nothing to replace**, if the replacements
were steady. -/
theorem again (hR : R.Lawful) (hspares : R.Spares R)
    (h : Sweep R Steady front text result n) :
    Sweep R Steady front result result 0 := by
  induction h with
  | done front => exact .done front
  | skip hsilent tail ih => exact .skip (tail.silent hspares hsilent) ih
  | @leave front piece written text result n hreads hleave tail ih =>
    have hhead := tail.head?_eq hR
    refine .leave (hR.congr hreads hhead.symm) (fun hkeeps => hleave ?_) ih
    rw [hR.crossing_eq hreads front text result]
    exact hR.keeps_congr hkeeps hhead
  | @edit front piece written text result n hreads hkeeps hsafe tail ih =>
    -- the tail was swept behind the piece, and now is behind what is written
    exact (ih.congr hsafe).through (hR.settled hreads _)

/-! ## Two sweeps

At each place at most one of the two readings reads something, and the other
passes it. So they go on together, piece by piece, and what one of them does
to a piece is seen by the other only as a change of what is before it. -/

/-- The step of `diamond` at a piece that one of two sweeps reads and the
other passes. -/
theorem diamond_reads (hR : R.Lawful) (hS : S.Lawful) (hblind : S.Blind R)
    {piece written back : List Char} (hreads : R.reads piece written back)
    (hr : Sweep R Steady front (piece ++ back) result n)
    (hs : Sweep S Steady front (piece ++ back) result' m)
    (ih : ∀ {front result result' n m}, Sweep R Steady front back result n →
      Sweep S Steady front back result' m →
        ∃ last, Sweep R Steady front result' last n ∧
          Sweep S Steady front result last m) :
    ∃ last, Sweep R Steady front result' last n ∧
      Sweep S Steady front result last m := by
  obtain ⟨hpiece, hwritten⟩ := hblind hreads
  obtain ⟨behind, rfl, hbehind⟩ := hs.of_through (hpiece _)
  have hhead := hbehind.head?_eq hS
  have hreads' := hR.congr hreads hhead.symm
  have hcrossing := hR.crossing_eq hreads front behind back
  rcases hr.of_reads hR hreads with
    ⟨rest, rfl, hleave, tail⟩ | ⟨rest, k, rfl, rfl, hkeeps, hsafe, tail⟩
  · obtain ⟨last, hlast, hlast'⟩ := ih tail hbehind
    refine ⟨piece ++ last, .leave hreads' (fun hkeeps => hleave ?_) hlast,
      hlast'.through (hpiece _)⟩
    rw [← hcrossing]
    exact hR.keeps_congr hkeeps hhead
  · obtain ⟨last, hlast, hlast'⟩ := ih tail hbehind
    refine ⟨written ++ last, .edit hreads' ?_ hsafe hlast,
      (hlast'.congr hsafe).through (hwritten _)⟩
    rw [hcrossing]
    exact hR.keeps_congr hkeeps hhead.symm

/-- **The order of two sweeps does not matter** if their readings are
apart. -/
theorem diamond (hR : R.Lawful) (hS : S.Lawful) (hapart : R.Apart S)
    (hr : Sweep R Steady front text result n)
    (hs : Sweep S Steady front text result' m) :
    ∃ last, Sweep R Steady front result' last n ∧
      Sweep S Steady front result last m := by
  -- on the length, because the two sweeps go on in steps of their own
  induction hn : text.length using Nat.strongRecOn
    generalizing front text result result' n m with
  | ind k ih =>
    subst hn
    rcases hr.front_cases with rfl | ⟨c, text, rfl, hsilent⟩ |
      ⟨piece, written, back, rfl, hreads⟩
    · obtain ⟨rfl, rfl⟩ := (done (P := Steady) front).unique hR hr
      obtain ⟨rfl, rfl⟩ := (done (P := Steady) front).unique hS hs
      exact ⟨[], .done _, .done _⟩
    · rcases hs.front_cases with h | ⟨_, _, h, hsilent'⟩ |
        ⟨piece, written, back, h, hreads⟩
      · cases h
      · -- both copy the character
        obtain ⟨rfl, rfl⟩ := List.cons.inj h
        obtain ⟨result, rfl, tail⟩ := hr.of_silent hsilent
        obtain ⟨result', rfl, tail'⟩ := hs.of_silent hsilent'
        obtain ⟨last, hlast, hlast'⟩ :=
          ih _ (Nat.lt_succ_self _) tail tail' rfl
        exact ⟨c :: last,
          .skip (tail'.silent hapart.spares_right hsilent) hlast,
          .skip (tail.silent hapart.spares_left hsilent') hlast'⟩
      · -- the second reads a piece, the first passes it
        rw [h] at hr hs ih
        obtain ⟨last, hlast, hlast'⟩ :=
          diamond_reads hS hR hapart.blind_left hreads hs hr
            fun hs hr => (ih _ (length_lt_append (hS.ne_nil hreads).1 _)
              hr hs rfl).imp fun _ => And.symm
        exact ⟨last, hlast', hlast⟩
    · -- the first reads a piece, the second passes it
      exact diamond_reads hR hS hapart.blind_right hreads hr hs
        fun hr hs => ih _ (length_lt_append (hR.ne_nil hreads).1 _) hr hs
          rfl

/-! ## What a sweep keeps

A sweep is a sequence of replacements, so what each of them keeps, in any
surroundings, the sweep keeps. -/

/-- **What no replacement changes is not changed by a sweep.** Of the
replacements it is known that they satisfy `P`. -/
theorem preserves_of {α : Type} {f : List Char → α}
    (hf : ∀ {front piece written back}, R.reads piece written back →
      R.keeps (crossing front (piece ++ back)) back →
        P front piece written → ∀ behind,
          f (front ++ (piece ++ behind)) = f (front ++ (written ++ behind)))
    (h : Sweep R P front text result n) :
    f (front ++ text) = f (front ++ result) := by
  induction h with
  | done => rfl
  | skip _ _ ih =>
    rwa [List.append_assoc, List.append_assoc] at ih
  | leave _ _ _ ih =>
    rwa [List.append_assoc, List.append_assoc] at ih
  | edit hreads hkeeps hsafe _ ih =>
    rw [List.append_assoc, List.append_assoc] at ih
    exact ih.trans (hf hreads hkeeps hsafe _)

/-- **What no replacement changes is not changed by a sweep.** -/
theorem preserves {α : Type} {f : List Char → α}
    (hf : ∀ {front piece written back}, R.reads piece written back →
      R.keeps (crossing front (piece ++ back)) back → ∀ behind,
        f (front ++ (piece ++ behind)) = f (front ++ (written ++ behind)))
    (h : Sweep R P front text result n) :
    f (front ++ text) = f (front ++ result) :=
  h.preserves_of fun hreads hkeeps _ => hf hreads hkeeps

/-- What holds of the characters of a text and of all that is written
holds of the characters of the result. -/
theorem forall_mem {p : Char → Prop}
    (hwritten : ∀ {piece written back}, R.reads piece written back →
      ∀ c ∈ written, p c)
    (h : Sweep R P front text result n) (htext : ∀ c ∈ text, p c) :
    ∀ c ∈ result, p c := by
  induction h with
  | done => exact htext
  | skip _ _ ih =>
    obtain ⟨hc, htext⟩ := List.forall_mem_cons.1 htext
    exact List.forall_mem_cons.2 ⟨hc, ih htext⟩
  | leave _ _ _ ih =>
    obtain ⟨hpiece, htext⟩ := List.forall_mem_append.1 htext
    exact List.forall_mem_append.2 ⟨hpiece, ih htext⟩
  | edit hreads _ _ _ ih =>
    exact List.forall_mem_append.2
      ⟨hwritten hreads, ih (List.forall_mem_append.1 htext).2⟩

/-- **A character that every replacement adds once** is counted up by
one for each. -/
theorem count_eq {a : Char}
    (hadds : ∀ {piece written back}, R.reads piece written back →
      written.count a = piece.count a + 1)
    (h : Sweep R P front text result n) :
    result.count a = text.count a + n := by
  induction h with
  | done => rfl
  | skip _ _ ih =>
    rw [List.count_cons, List.count_cons, ih]
    omega
  | leave _ _ _ ih =>
    rw [List.count_append, List.count_append, ih, Nat.add_assoc]
  | edit hreads _ _ _ ih =>
    rw [List.count_append, List.count_append, hadds hreads, ih]
    omega

end Sweep
end SwiftStyle
