import SwiftStyle.Proofs.Token.Tokens

/-!
# Block comments

Block comments nest. Read from its front, a text opens a comment with every
`/*` and closes one with every `*/`, where marks share no character: what is
left open is its **level** (`level`). A block comment is closed when its level
has come back to zero, and that for the first time (`IsClosed`); one of which
this never happens runs to the end of the text (`endsBlock_takeBlock`).

A comment that is closed is passed over inside another one as if it were not
there (`takeBlock_closed`): from any depth the scanner arrives behind it at
the same depth. So a block comment around closed comments is closed where its
own mark stands, and is itself one that others may be put around
(`block_comments_nest`). The texts that are one block comment are exactly the
closed ones (`isBlockComment_iff`).

The scanner counts the comments that are open around the one it is in, and
stops when it closes the last. The level of a text says nothing about where to
stop; that the two agree is the invariant of the scan: the level of what has
been taken, with the comments that were open before, is positive in front of
the end and zero at it (`Lexeme.EndsBlock`). The induction is by the marks of
the text (`takeBlock_induction`), since a mark is two characters and the second
of them must not be taken for the first of another.
-/

namespace SwiftStyle

open Lexeme

/-- **How many comments are open behind a text**, less those that it has
closed without opening them. -/
def level : List Char → Int
  | '/' :: '*' :: rest => level rest + 1
  | '*' :: '/' :: rest => level rest - 1
  | _ :: rest => level rest
  | [] => 0

variable {back body piece : List Char} {c : Char} {depth : Nat}

theorem level_cons_of_not {rest : List Char}
    (hopen : ¬ (c = '/' ∧ rest.head? = some '*'))
    (hclose : ¬ (c = '*' ∧ rest.head? = some '/')) :
    level (c :: rest) = level rest := by
  cases rest with
  | nil => simp [level]
  | cons d rest => rw [level] <;> simp_all

/-- **A block comment that has been closed**: its level is zero at its end,
where it was closed, and greater than zero everywhere before. -/
structure IsClosed (piece : List Char) : Prop where
  /-- It begins with the mark that opens a comment. -/
  opens : ['/', '*'] <+: piece
  /-- It ends with the mark that closes one. -/
  closes : ['*', '/'] <:+ piece
  /-- At its end no comment is open. -/
  level_eq : level piece = 0
  /-- Until then one has been open. -/
  level_pos : ∀ front, ['/', '*'] <+: front → front <+: piece →
    front ≠ piece → 0 < level front

/-- **A block comment that has not been closed**: from its mark on one is
open. -/
def StaysOpen (piece : List Char) : Prop :=
  ∀ front, ['/', '*'] <+: front → front <+: piece → 0 < level front

/-- **Induction on the rest of a block comment**, by its marks. -/
theorem takeBlock_induction {motive : Nat → List Char → Prop}
    (nil : ∀ depth, motive depth [])
    (opens : ∀ depth rest, motive (depth + 1) rest →
      motive depth ('/' :: '*' :: rest))
    (ends : ∀ rest, motive 0 ('*' :: '/' :: rest))
    (closes : ∀ depth rest, motive depth rest →
      motive (depth + 1) ('*' :: '/' :: rest))
    (other : ∀ depth c rest, ¬ (c = '/' ∧ rest.head? = some '*') →
      ¬ (c = '*' ∧ rest.head? = some '/') → motive depth rest →
        motive depth (c :: rest))
    (depth : Nat) (text : List Char) : motive depth text := by
  fun_induction takeBlock depth text with
  | case1 depth rest ih => exact opens depth rest ih
  | case2 rest => exact ends rest
  | case3 depth rest ih => exact closes depth rest ih
  | case4 depth c rest hopen hend hclose ih =>
    refine other depth c rest ?_ ?_ ih
    · rintro ⟨hc, hhead⟩
      obtain ⟨tail, rfl⟩ := List.head?_eq_some_iff.1 hhead
      exact hopen tail hc rfl
    · rintro ⟨hc, hhead⟩
      obtain ⟨tail, rfl⟩ := List.head?_eq_some_iff.1 hhead
      cases depth with
      | zero => exact hend tail rfl hc rfl
      | succ depth => exact hclose depth tail rfl hc rfl
  | case5 depth => exact nil depth

theorem takeBlock_cons_of_not {rest : List Char}
    (hopen : ¬ (c = '/' ∧ rest.head? = some '*'))
    (hclose : ¬ (c = '*' ∧ rest.head? = some '/')) :
    takeBlock depth (c :: rest) = (takeBlock depth rest).after [c] := by
  rw [takeBlock_cons, if_neg hopen, if_neg hclose]

/-! ## Where the scanner stops

Every front of what has been taken is looked at, also one that ends between
the two characters of a mark; there the level is that before the mark. -/

/-- **Where the rest of a block comment ends** in which one more comment than
`depth` is open: at the mark that closes the last of them, or else at the end
of the text. -/
structure Lexeme.EndsBlock (depth : Nat) (cut : Cut) : Prop where
  /-- In front of its end a comment is open. -/
  level_pos : ∀ front, front <+: cut.1 → front ≠ cut.1 →
    0 < depth + 1 + level front
  /-- At its end none is, or the text is at its end as well. -/
  level_end : ['*', '/'] <:+ cut.1 ∧ depth + 1 + level cut.1 = 0 ∨
    cut.2 = [] ∧ 0 < depth + 1 + level cut.1

theorem front_of_mark {a b : Char} {front text : List Char}
    (h : front <+: a :: b :: text) (hne : front ≠ a :: b :: text) :
    front = [] ∨ front = [a] ∨
      ∃ inner, front = a :: b :: inner ∧ inner <+: text ∧ inner ≠ text := by
  rcases List.prefix_cons_iff.1 h with rfl | ⟨behind, rfl, hbehind⟩
  · exact .inl rfl
  rcases List.prefix_cons_iff.1 hbehind with rfl | ⟨inner, rfl, hinner⟩
  · exact .inr (.inl rfl)
  · exact .inr (.inr ⟨inner, rfl, hinner, fun heq => hne (by rw [heq])⟩)

theorem level_singleton (c : Char) : level [c] = 0 :=
  level_cons_of_not (by simp) (by simp)

namespace Lexeme.EndsBlock

variable {cut : Cut}

/-- A mark in front changes the depth by what it changes the level. -/
theorem mark {a b : Char} {k : Int} {depth' : Nat}
    (hmark : ∀ text, level (a :: b :: text) = level text + k)
    (hdepth : (depth' : Int) = depth + k) (h : EndsBlock depth' cut) :
    EndsBlock depth (cut.after [a, b]) where
  level_pos front hfront hne := by
    rcases front_of_mark hfront hne with
      rfl | rfl | ⟨inner, rfl, hinner, hne⟩
    · rw [level]
      omega
    · rw [level_singleton]
      omega
    · have := h.level_pos inner hinner hne
      rw [hmark]
      omega
  level_end := by
    have hlevel : level (cut.after [a, b]).1 = level cut.1 + k :=
      hmark cut.1
    rw [hlevel]
    rcases h.level_end with ⟨hsuffix, hzero⟩ | ⟨hrest, hpos⟩
    · exact .inl ⟨hsuffix.trans (List.suffix_append ..), by omega⟩
    · exact .inr ⟨hrest, by omega⟩

/-- A character in front that begins no mark changes nothing. -/
theorem char {rest : List Char} (hcut : cut.1 <+: rest)
    (hopen : ¬ (c = '/' ∧ rest.head? = some '*'))
    (hclose : ¬ (c = '*' ∧ rest.head? = some '/')) (h : EndsBlock depth cut) :
    EndsBlock depth (cut.after [c]) := by
  have hlevel : ∀ front, front <+: cut.1 →
      level (c :: front) = level front := by
    intro front hfront
    have hhead : ∀ d, front.head? = some d → rest.head? = some d := by
      intro d hd
      obtain ⟨tail, rfl⟩ := List.head?_eq_some_iff.1 hd
      obtain ⟨back, rfl⟩ := hfront.trans hcut
      rfl
    exact level_cons_of_not (fun ho => hopen ⟨ho.1, hhead _ ho.2⟩)
      (fun hc => hclose ⟨hc.1, hhead _ hc.2⟩)
  constructor
  · intro front hfront hne
    rcases List.prefix_cons_iff.1 hfront with rfl | ⟨inner, rfl, hinner⟩
    · rw [level]
      omega
    · rw [hlevel inner hinner]
      exact h.level_pos inner hinner fun heq => hne (by rw [heq]; rfl)
  · have hend : level (cut.after [c]).1 = level cut.1 :=
      hlevel cut.1 (List.prefix_refl _)
    rw [hend]
    exact h.level_end.imp_left
      (And.imp_left fun hs => hs.trans (List.suffix_append ..))

end Lexeme.EndsBlock

/-- **The scanner of block comments stops where the level is zero** for the
first time. -/
theorem endsBlock_takeBlock (depth : Nat) (text : List Char) :
    EndsBlock depth (takeBlock depth text) := by
  induction depth, text using takeBlock_induction with
  | nil depth =>
    refine ⟨fun front hfront hne => ?_, .inr ⟨rfl, ?_⟩⟩
    · exact absurd (List.prefix_nil.1 hfront) hne
    · show 0 < (depth : Int) + 1 + 0
      omega
  | opens depth rest ih =>
    exact ih.mark (fun _ => rfl) (Int.natCast_succ depth)
  | ends rest =>
    refine ⟨fun front hfront hne => ?_, .inl ⟨List.suffix_refl _, rfl⟩⟩
    rcases front_of_mark hfront hne with
      rfl | rfl | ⟨inner, rfl, hinner, hne⟩
    · decide
    · decide
    · exact absurd (List.prefix_nil.1 hinner) hne
  | closes depth rest ih =>
    exact ih.mark (k := -1) (fun _ => rfl) (by omega)
  | other depth c rest hopen hclose ih =>
    rw [takeBlock_cons_of_not hopen hclose]
    exact ih.char ⟨_, append_takeBlock depth rest⟩ hopen hclose

/-- **What becomes of a block comment.** -/
theorem Lexeme.EndsBlock.closed_or_open {cut : Cut} (h : EndsBlock 0 cut) :
    IsClosed ('/' :: '*' :: cut.1) ∨
      cut.2 = [] ∧ StaysOpen ('/' :: '*' :: cut.1) := by
  have hfront : ∀ front, ['/', '*'] <+: front →
      front <+: '/' :: '*' :: cut.1 → front ≠ '/' :: '*' :: cut.1 →
        0 < level front := by
    rintro front hopens hfront hne
    rcases front_of_mark hfront hne with
      rfl | rfl | ⟨inner, rfl, hinner, hne⟩
    · cases List.prefix_nil.1 hopens
    · exact absurd hopens.length_le (by decide)
    · have := h.level_pos inner hinner hne
      rw [level]
      omega
  rcases h.level_end with ⟨hcloses, hzero⟩ | ⟨hrest, hpos⟩
  · refine .inl ⟨⟨_, rfl⟩, hcloses.trans ⟨['/', '*'], rfl⟩, ?_, hfront⟩
    rw [level]
    omega
  · refine .inr ⟨hrest, fun front hopens hbegins => ?_⟩
    by_cases heq : front = '/' :: '*' :: cut.1
    · rw [heq, level]
      omega
    · exact hfront front hopens hbegins heq

/-! ## Comments inside comments

The text between the marks is put together from comments and from pieces with
no character of a mark, so that where one piece ends and the next begins no
mark arises. -/

/-- **A text that closes one more comment than it has opened** is passed over
at any depth, if a scanner that is one deeper takes it to its end. -/
theorem takeBlock_closed (hrest : (takeBlock depth body).2 = [])
    (hlevel : depth + 1 + level body = 0) (more : Nat) (back : List Char) :
    takeBlock (depth + more + 1) (body ++ back)
      = (takeBlock more back).after body := by
  induction depth, body using takeBlock_induction with
  | nil depth =>
    change (depth : Int) + 1 + 0 = 0 at hlevel
    omega
  | opens depth rest ih =>
    rw [level] at hlevel
    have ih := ih hrest (by omega)
    rw [Nat.add_right_comm depth] at ih
    show (takeBlock (depth + more + 1 + 1) (rest ++ back)).after ['/', '*'] = _
    rw [ih]
    rfl
  | ends rest =>
    obtain rfl : rest = [] := hrest
    rw [Nat.zero_add]
    rfl
  | closes depth rest ih =>
    rw [level] at hlevel
    have ih := ih hrest (by omega)
    rw [Nat.add_right_comm depth]
    show (takeBlock (depth + more + 1) (rest ++ back)).after ['*', '/'] = _
    rw [ih]
    rfl
  | other depth c rest hopen hclose ih =>
    rw [takeBlock_cons_of_not hopen hclose] at hrest
    rw [level_cons_of_not hopen hclose] at hlevel
    cases rest with
    | nil =>
      change (depth : Int) + 1 + 0 = 0 at hlevel
      omega
    | cons d rest =>
      have htake : takeBlock (depth + more + 1) (c :: d :: (rest ++ back))
          = (takeBlock (depth + more + 1) (d :: rest ++ back)).after [c] :=
        takeBlock_cons_of_not hopen hclose
      rw [List.cons_append, List.cons_append, htake, ih hrest hlevel]
      rfl

/-- Text without the characters of marks is passed over. -/
theorem takeBlock_plain (hslash : '/' ∉ body) (hstar : '*' ∉ body)
    (depth : Nat) (back : List Char) :
    takeBlock depth (body ++ back) = (takeBlock depth back).after body := by
  induction body with
  | nil => rfl
  | cons c body ih =>
    simp only [List.mem_cons, not_or] at hslash hstar
    rw [List.cons_append, takeBlock_cons_of_not
      (fun ho => hslash.1 ho.1.symm) (fun he => hstar.1 he.1.symm),
      ih hslash.2 hstar.2]
    rfl

theorem takeLexeme_block (body : List Char) :
    takeLexeme '/' ('*' :: body)
      = (⟨some .comment, '/' :: '*' :: (takeBlock 0 body).1⟩,
          (takeBlock 0 body).2) := by
  unfold takeLexeme
  rfl

/-- **A text that is a block comment and nothing else**: it is one token, and
has been closed. That it ends with the mark is not enough, as `/*/*/` opens
two comments and closes none. -/
structure IsBlockComment (text : List Char) : Prop where
  /-- It begins with the mark that opens a comment. -/
  opens : ['/', '*'] <+: text
  /-- It is one token. -/
  token : tokenize text = [⟨⟨0, Text.size text⟩, .comment⟩]
  /-- Behind it no comment is open. -/
  level_eq : level text = 0

/-- **A block comment around others**: a text, and any number of comments
with a text behind each. -/
def commentAround (first : List Char)
    (inner : List (List Char × List Char)) : List Char :=
  '/' :: '*' :: (first ++ (inner.flatMap fun p => p.1 ++ p.2) ++ ['*', '/'])

theorem leads_block_iff (body : List Char)
    (htext : '/' :: '*' :: body = piece ++ back) :
    Leads .comment piece back ↔ (takeBlock 0 body).2 = back := by
  rw [leads_iff htext (by rw [takeLexeme_block]), takeLexeme_block]

theorem tokenize_block_iff (body : List Char) :
    tokenize ('/' :: '*' :: body)
        = [⟨⟨0, Text.size ('/' :: '*' :: body)⟩, .comment⟩]
      ↔ (takeBlock 0 body).2 = [] :=
  leads_nil_iff.symm.trans (leads_block_iff body (List.append_nil _).symm)

/-- **A block comment is passed over inside another one**, however deep. -/
theorem IsBlockComment.takeBlock_append {text : List Char}
    (h : IsBlockComment text) (depth : Nat) (back : List Char) :
    takeBlock depth (text ++ back) = (takeBlock depth back).after text := by
  obtain ⟨⟨body, rfl⟩, htoken, hlevel⟩ := h
  have hrest := (tokenize_block_iff body).1 htoken
  have hlevel' : level body + 1 = 0 := hlevel
  have hclosed := takeBlock_closed hrest (by omega) depth back
  rw [Nat.zero_add] at hclosed
  show (takeBlock (depth + 1) (body ++ back)).after ['/', '*'] = _
  rw [hclosed]
  rfl

/-- The text between the marks of a comment around others is passed over. -/
theorem takeBlock_inner {inner : List (List Char × List Char)}
    (h : ∀ p ∈ inner, IsBlockComment p.1 ∧ '/' ∉ p.2 ∧ '*' ∉ p.2)
    (depth : Nat) (back : List Char) :
    takeBlock depth ((inner.flatMap fun p => p.1 ++ p.2) ++ back)
      = (takeBlock depth back).after (inner.flatMap fun p => p.1 ++ p.2) := by
  induction inner with
  | nil => rfl
  | cons p inner ih =>
    obtain ⟨⟨hcomment, hslash, hstar⟩, hinner⟩ := List.forall_mem_cons.1 h
    rw [List.flatMap_cons, List.append_assoc, List.append_assoc,
      hcomment.takeBlock_append, takeBlock_plain hslash hstar, ih hinner]
    unfold Cut.after
    simp only [List.append_assoc]

/-- A comment around others is the first token of every text that it begins. -/
theorem leads_commentAround {first : List Char}
    {inner : List (List Char × List Char)}
    (hslash : '/' ∉ first) (hstar : '*' ∉ first)
    (h : ∀ p ∈ inner, IsBlockComment p.1 ∧ '/' ∉ p.2 ∧ '*' ∉ p.2)
    (back : List Char) : Leads .comment (commentAround first inner) back := by
  refine (leads_block_iff
    (first ++ ((inner.flatMap fun p => p.1 ++ p.2) ++ '*' :: '/' :: back))
    (by simp [commentAround])).2 ?_
  rw [takeBlock_plain hslash hstar, takeBlock_inner h]
  rfl

/-- A block comment in front of a character has been closed. -/
theorem isClosed_of_leads
    (h : Leads .comment ('/' :: '*' :: body) (c :: back)) :
    IsClosed ('/' :: '*' :: body) := by
  have hrest := (leads_block_iff (body ++ c :: back) rfl).1 h
  have happ := append_takeBlock 0 (body ++ c :: back)
  have hends := (endsBlock_takeBlock 0 (body ++ c :: back)).closed_or_open
  rw [hrest] at happ hends
  rw [List.append_cancel_right happ] at hends
  rcases hends with hclosed | ⟨hnil, -⟩
  · exact hclosed
  · cases hnil

/-- No closed comment goes on behind another one. -/
theorem IsClosed.eq_of_prefix {front : List Char} (h : IsClosed piece)
    (hfront : IsClosed front) (hbegins : front <+: piece) : front = piece := by
  by_contra hne
  have := h.level_pos front hfront.opens hbegins hne
  have := hfront.level_eq
  omega

/-- **The texts that are one block comment are the closed ones.** -/
theorem isBlockComment_iff {text : List Char} :
    IsBlockComment text ↔ IsClosed text := by
  constructor
  · rintro ⟨⟨body, rfl⟩, htoken, hlevel⟩
    have hrest := (tokenize_block_iff body).1 htoken
    have happ := append_takeBlock 0 body
    rw [hrest, List.append_nil] at happ
    have hends := (endsBlock_takeBlock 0 body).closed_or_open
    rw [happ] at hends
    rcases hends with hclosed | ⟨-, hopen⟩
    · exact hclosed
    · have hpos := hopen _ ⟨body, rfl⟩ (List.prefix_refl _)
      omega
  · intro h
    obtain ⟨body, rfl⟩ := h.opens
    refine ⟨⟨body, rfl⟩, (tokenize_block_iff body).2 ?_, h.level_eq⟩
    rcases (endsBlock_takeBlock 0 body).closed_or_open with
      hclosed | ⟨hrest, -⟩
    · have happ := append_takeBlock 0 body
      have heq := h.eq_of_prefix hclosed ⟨(takeBlock 0 body).2, by
        rw [List.cons_append, List.cons_append, happ]
        rfl⟩
      rw [(List.append_right_inj ['/', '*']).1 heq] at happ
      exact List.append_right_eq_self.1 happ
    · exact hrest

/-- What becomes of the block comments of a text. -/
theorem closed_or_open_of_mem {text : List Char} {t : Token}
    (h : t ∈ tokenize text) :
    ∃ before piece after, t.Spells text before piece after ∧
      (['/', '*'] <+: piece →
        IsClosed piece ∨ after = [] ∧ StaysOpen piece) := by
  obtain ⟨before, c, rest, -, -, hspells⟩ := exists_spells h
  refine ⟨before, _, _, hspells, fun hopens => ?_⟩
  obtain ⟨body, hbody⟩ := hopens
  have happ := text_takeLexeme_append c rest
  rw [← hbody] at happ
  obtain ⟨rfl, hrest⟩ := List.cons.inj happ
  obtain ⟨tail, rfl⟩ : ∃ tail, rest = '*' :: tail := ⟨_, hrest.symm⟩
  rw [takeLexeme_block]
  exact (endsBlock_takeBlock 0 tail).closed_or_open

/-- **Block comments nest**: a comment around block comments is one itself,
whatever follows; and a block comment of a text ends where it has been
closed, or runs to the end of the text. -/
theorem block_comments_nest :
    (∀ first inner, '/' ∉ first → '*' ∉ first →
      (∀ p ∈ inner, IsBlockComment p.1 ∧ '/' ∉ p.2 ∧ '*' ∉ p.2) →
      IsBlockComment (commentAround first inner) ∧
        ∀ back, Leads .comment (commentAround first inner) back) ∧
    ∀ text, ∀ t ∈ tokenize text, ∃ before piece after,
      t.Spells text before piece after ∧
      (['/', '*'] <+: piece →
        IsClosed piece ∨ after = [] ∧ StaysOpen piece) := by
  refine ⟨fun first inner hslash hstar h => ?_,
    fun text t ht => closed_or_open_of_mem ht⟩
  have hleads := leads_commentAround hslash hstar h
  exact ⟨isBlockComment_iff.2 (isClosed_of_leads (hleads [' '])), hleads⟩

/-- A comment with two others inside, the marks of which touch, and one that
seems to end with its opening. -/
theorem block_comments_nest_touching :
    (IsBlockComment "/**/".toList ∧ IsBlockComment "/*/**/*/".toList ∧
      IsBlockComment "/*a/**//*/**/*/b*/".toList ∧
      Leads .comment "/*a/**//*/**/*/b*/".toList "*/ else".toList) ∧
    ⟨⟨0, 3⟩, .comment⟩ ∈ tokenize "/*/".toList ∧
      ∃ before piece after,
        Token.Spells ⟨⟨0, 3⟩, .comment⟩ "/*/".toList before piece after ∧
        (['/', '*'] <+: piece →
          IsClosed piece ∨ after = [] ∧ StaysOpen piece) := by
  obtain ⟨hnest, hends⟩ := block_comments_nest
  have hempty : IsBlockComment "/**/".toList :=
    (hnest [] [] (by decide) (by decide) (List.forall_mem_nil _)).1
  have hone : IsBlockComment "/*/**/*/".toList :=
    (hnest [] [("/**/".toList, [])] (by decide) (by decide)
      (List.forall_mem_singleton.2 ⟨hempty, by decide, by decide⟩)).1
  have htwo := hnest ['a'] [("/**/".toList, []), ("/*/**/*/".toList, ['b'])]
    (by decide) (by decide)
    (List.forall_mem_cons.2 ⟨⟨hempty, by decide, by decide⟩,
      List.forall_mem_singleton.2 ⟨hone, by decide, by decide⟩⟩)
  have hmem : ⟨⟨0, 3⟩, .comment⟩ ∈ tokenize "/*/".toList := by
    decide +kernel
  exact ⟨⟨hempty, hone, htwo.1, htwo.2 "*/ else".toList⟩, hmem,
    hends _ _ hmem⟩

end SwiftStyle
