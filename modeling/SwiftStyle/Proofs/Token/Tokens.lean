import SwiftStyle.Proofs.Text.Split
import SwiftStyle.Proofs.Token.Plain
import SwiftStyle.Token.Tokenizer

/-!
# The tokens of a text

The tokens of a text are its lexemes that have a kind, at the places
where they stand (`exists_of_mem_tokens`). So they classify the text, as
every tokenizer has to (`Tokenizer.lawful_basic`): a lexeme is not empty
and begins where the one before it ends.

Tokenizing is **compositional**. A place inside no token is a border
between lexemes, and the two parts of a text at a border have nothing to
do with each other: the tokens of the text are those of the one part and
then those of the other, moved to their place
(`Tokenizer.tokenize_append_iff`).

The **words** of a text are its tokens without their places: the kind and
the text of each. They are the lexemes that have a kind.

A token is told by its span, and the text at the span is what it **spells**
(`Token.Spells`). To go from a token to the lexeme that it is, and to the
border at which that begins, is the first step of most proofs about tokens
(`exists_spells`); the way back is that a lexeme with a kind that begins at a
border is a token (`mem_tokenize_of_border`).
-/

namespace SwiftStyle

open Lexeme

variable {start : Nat} {c : Char} {front back text : List Char} {t : Token}

/-- The text of lexemes. -/
def Lexeme.join (found : List Lexeme) : List Char :=
  (found.map Lexeme.text).flatten

@[simp] theorem join_lexemes (text : List Char) :
    Lexeme.join (lexemes text) = text :=
  lexemes_flatten text

namespace Lexeme

@[simp] theorem join_cons (lexeme : Lexeme) (found : List Lexeme) :
    join (lexeme :: found) = lexeme.text ++ join found := rfl

/-- The token that a lexeme at an offset is, if it has a kind. -/
def token? (start : Nat) (lexeme : Lexeme) : Option Token :=
  lexeme.kind.map fun kind =>
    ⟨⟨start, start + Text.size lexeme.text⟩, kind⟩

theorem tokens_cons (start : Nat) (lexeme : Lexeme) (found : List Lexeme) :
    tokens start (lexeme :: found)
      = (lexeme.token? start).toList
        ++ tokens (start + Text.size lexeme.text) found := by
  unfold token?
  rw [tokens]
  cases lexeme.kind <;> rfl

theorem tokens_append (start : Nat) (found more : List Lexeme) :
    tokens start (found ++ more)
      = tokens start found
        ++ tokens (start + Text.size (join found)) more := by
  induction found generalizing start with
  | nil => rfl
  | cons lexeme found ih =>
    rw [List.cons_append, tokens_cons, tokens_cons, ih, join_cons,
      Text.size_append, Nat.add_assoc, List.append_assoc]

/-- Where the tokens among lexemes lie. -/
theorem bounds_of_mem_tokens {start : Nat} {found : List Lexeme}
    {t : Token} (hne : ∀ lexeme ∈ found, lexeme.text ≠ [])
    (h : t ∈ tokens start found) :
    start ≤ t.span.start ∧ t.span.start < t.span.stop ∧
      t.span.stop ≤ start + Text.size (join found) := by
  induction found generalizing start with
  | nil => cases h
  | cons lexeme found ih =>
    obtain ⟨hlexeme, hfound⟩ := List.forall_mem_cons.1 hne
    have hpos := Text.size_pos hlexeme
    rw [join_cons, Text.size_append]
    rw [tokens_cons, List.mem_append, Option.mem_toList] at h
    rcases h with h | h
    · obtain ⟨kind, -, rfl⟩ := Option.map_eq_some_iff.1 h
      dsimp only
      omega
    · have := ih hfound h
      omega

end Lexeme

theorem text_ne_nil_of_mem_lexemes {text : List Char} {lexeme : Lexeme}
    (h : lexeme ∈ lexemes text) : lexeme.text ≠ [] := by
  fun_induction lexemes text with
  | case1 => cases h
  | case2 c rest ih =>
    rcases List.mem_cons.1 h with rfl | h
    · exact text_takeLexeme_ne_nil c rest
    · exact ih h

/-- Lexemes are passed over with their text. -/
theorem crossing_text (h : (takeLexeme c text).2 = front ++ back) :
    crossing ((takeLexeme c text).1.text ++ front) back
      = crossing front back := by
  obtain ⟨d, more, hlexeme⟩ :=
    List.exists_cons_of_ne_nil (text_takeLexeme_ne_nil c text)
  have htext := text_takeLexeme_append c text
  rw [h, ← List.append_assoc, hlexeme, List.cons_append, List.cons_append]
    at htext
  obtain ⟨rfl, htail⟩ := List.cons.inj htext
  rw [hlexeme, List.cons_append]
  refine crossing_over (Prod.ext rfl ?_)
  rw [htail]
  exact h

/-- **A token of a text is a lexeme that begins at a border** and has a
kind. -/
theorem exists_of_mem_tokens (h : t ∈ tokens start (lexemes text)) :
    ∃ before c after, text = before ++ c :: after ∧
      crossing before (c :: after) = none ∧
      (takeLexeme c after).1.kind = some t.kind ∧
      t.span = ⟨start + Text.size before,
        start + Text.size (before ++ (takeLexeme c after).1.text)⟩ := by
  induction hn : text.length using Nat.strongRecOn
    generalizing start text with
  | ind n ih =>
    subst hn
    cases text with
    | nil =>
      rw [lexemes] at h
      cases h
    | cons c rest =>
      rw [lexemes_cons, tokens_cons, List.mem_append, Option.mem_toList] at h
      rcases h with h | h
      · -- the token is the first lexeme
        obtain ⟨kind, hkind, rfl⟩ := Option.map_eq_some_iff.1 h
        exact ⟨[], c, rest, rfl, crossing_nil _, hkind, rfl⟩
      · obtain ⟨before, d, after, hrest, hnone, hkind, hspan⟩ :=
          ih _ (length_takeLexeme_lt c rest) h rfl
        refine ⟨(takeLexeme c rest).1.text ++ before, d, after, ?_, ?_,
          hkind, ?_⟩
        · rw [List.append_assoc, ← hrest, text_takeLexeme_append]
        · rw [crossing_text hrest, hnone]
        · rw [hspan, List.append_assoc]
          simp only [Text.size_append, Nat.add_assoc]

/-- **What a token spells in a text**: the piece between its first byte and
its last. -/
structure Token.Spells (t : Token) (text before piece after : List Char) :
    Prop where
  /-- The piece stands between two others. -/
  text_eq : text = before ++ (piece ++ after)
  /-- The token begins and ends with it. -/
  span_eq : t.span = ⟨Text.size before, Text.size (before ++ piece)⟩

/-- A token of a text spells the lexeme that it is. -/
theorem exists_spells {text : List Char} (h : t ∈ tokenize text) :
    ∃ before c rest, text = before ++ c :: rest ∧
      (takeLexeme c rest).1.kind = some t.kind ∧
      t.Spells text before (takeLexeme c rest).1.text
        (takeLexeme c rest).2 := by
  obtain ⟨before, c, rest, htext, -, hkind, hspan⟩ := exists_of_mem_tokens h
  rw [Nat.zero_add, Nat.zero_add] at hspan
  exact ⟨before, c, rest, htext, hkind,
    by rw [text_takeLexeme_append, htext], hspan⟩

/-- Where the tokens of a text lie. -/
theorem bounds_of_mem {start : Nat} {text : List Char} {t : Token}
    (h : t ∈ tokens start (lexemes text)) :
    start ≤ t.span.start ∧ t.span.start < t.span.stop ∧
      t.span.stop ≤ start + Text.size text := by
  have := bounds_of_mem_tokens (fun _ => text_ne_nil_of_mem_lexemes) h
  rwa [join_lexemes] at this

/-! ## What every tokenizer owes

Tokens are made from lexemes one behind the other, so their order is that of
the offsets; that they begin and end between characters is that an offset is
the size of a front of the text. -/

theorem pairwise_tokens {found : List Lexeme}
    (hne : ∀ lexeme ∈ found, lexeme.text ≠ []) :
    (tokens start found).Pairwise fun t u => t.span.stop ≤ u.span.start := by
  induction found generalizing start with
  | nil => exact .nil
  | cons lexeme found ih =>
    have hfound := (List.forall_mem_cons.1 hne).2
    rw [tokens_cons]
    refine List.pairwise_append.2 ⟨?_, ih hfound, fun t ht u hu => ?_⟩
    · unfold token?
      cases lexeme.kind with
      | none => exact .nil
      | some kind => exact List.pairwise_singleton ..
    · obtain ⟨kind, -, rfl⟩ := Option.map_eq_some_iff.1 (Option.mem_toList.1 ht)
      exact (bounds_of_mem_tokens hfound hu).1

/-- **The tokens of every text classify it.** -/
theorem Tokenizer.lawful_basic : Tokenizer.basic.Lawful := by
  intro text
  show Token.Classifies text.toList (tokens 0 (lexemes text.toList))
  refine ⟨pairwise_tokens fun _ => text_ne_nil_of_mem_lexemes,
    fun t ht => (bounds_of_mem ht).2.1, fun t ht => ?_⟩
  obtain ⟨before, c, after, htext, -, -, hspan⟩ := exists_of_mem_tokens ht
  rw [hspan, Nat.zero_add, Nat.zero_add, Option.isSome_iff_exists]
  refine ⟨_, Text.slice?_eq_some.2
    ⟨before, (takeLexeme c after).2, ?_, rfl, rfl⟩⟩
  rw [htext, List.append_assoc, text_takeLexeme_append]

/-! ## Borders

The tokens behind a border, and the token that crosses a place that is none,
are found by dropping the tokens that end before the place. This is also what
a search for the tokens of a stretch does. -/

theorem tokens_add (start distance : Nat) (found : List Lexeme) :
    tokens (start + distance) found
      = (tokens start found).map (·.shift distance) := by
  induction found generalizing start with
  | nil => rfl
  | cons lexeme found ih =>
    have hshift : lexeme.token? (start + distance)
        = (lexeme.token? start).map (·.shift distance) := by
      unfold token?
      rw [Option.map_map]
      refine congrArg (lexeme.kind.map ·) (funext fun kind => ?_)
      show (⟨⟨start + distance, start + distance + _⟩, kind⟩ : Token)
        = ⟨⟨start + distance, start + _ + distance⟩, kind⟩
      rw [Nat.add_right_comm]
    rw [tokens_cons, tokens_cons, List.map_append, hshift,
      Nat.add_right_comm, ih]
    cases lexeme.token? start <;> rfl

/-- The tokens that end behind a border are those of the text behind
it. -/
theorem dropWhile_tokens_of_border (start : Nat)
    (h : crossing front back = none) :
    (tokens start (lexemes (front ++ back))).dropWhile
        (fun t => decide (t.span.stop ≤ start + Text.size front))
      = tokens (start + Text.size front) (lexemes back) := by
  rw [lexemes_append h, tokens_append, join_lexemes,
    List.dropWhile_append_of_pos]
  · cases hb : tokens (start + Text.size front) (lexemes back) with
    | nil => rfl
    | cons t rest =>
      have ht := bounds_of_mem (hb ▸ List.mem_cons_self)
      rw [List.dropWhile_cons_of_neg]
      rw [decide_eq_true_eq]
      omega
  · intro t ht
    exact decide_eq_true (bounds_of_mem ht).2.2

/-- The first token that ends behind a place is the one that crosses
it. -/
theorem dropWhile_tokens_of_crossing (start : Nat) {kind : Token.Kind}
    (h : crossing front back = some kind) :
    ∃ t rest, (tokens start (lexemes (front ++ back))).dropWhile
        (fun t => decide (t.span.stop ≤ start + Text.size front))
          = t :: rest ∧
      t.kind = kind ∧ t.span.start < start + Text.size front ∧
        start + Text.size front < t.span.stop := by
  induction front using crossing_induction back
    generalizing start with
  | nil =>
    rw [crossing_nil] at h
    cases h
  | inside c front hlt =>
    -- the first lexeme crosses the place, so it has a kind and is a token
    rw [crossing_inside hlt] at h
    have happ := (text_takeLexeme_append c (front ++ back)).symm
    rw [← List.cons_append] at happ
    obtain ⟨middle, htext, hback⟩ :=
      exists_append_of_length_le happ (Nat.le_of_lt hlt)
    have hpos : 0 < Text.size middle := by
      refine Text.size_pos ?_
      rintro rfl
      have hlen := congrArg List.length hback
      rw [List.nil_append] at hlen
      omega
    rw [List.cons_append, lexemes_cons, tokens_cons]
    unfold token?
    rw [h, htext, Text.size_append, Option.map_some, Option.toList_some,
      List.singleton_append, List.dropWhile_cons_of_neg]
    · have hc := c.utf8Size_pos
      refine ⟨_, _, rfl, rfl, ?_, ?_⟩
      · rw [Text.size_cons]
        dsimp only
        omega
      · dsimp only
        omega
    · rw [decide_eq_true_eq]
      dsimp only
      omega
  | beyond c front lexeme rest htake ih =>
    -- the first lexeme ends before the place and is dropped, token or not
    rw [crossing_over htake] at h
    have hsize := congrArg Text.size (exists_text_append htake)
    rw [Text.size_append] at hsize
    rw [List.cons_append, lexemes_cons, htake, tokens_cons, hsize,
      ← Nat.add_assoc, List.dropWhile_append_of_pos]
    · exact ih _ h
    · intro t ht
      obtain ⟨kind, -, rfl⟩ := Option.map_eq_some_iff.1 (Option.mem_toList.1 ht)
      exact decide_eq_true (by dsimp only; omega)

/-- **A place that no token crosses is a border.** -/
theorem crossing_eq_none (start : Nat)
    (h : ∀ t ∈ tokens start (lexemes (front ++ back)),
      ¬ (t.span.start < start + Text.size front ∧
        start + Text.size front < t.span.stop)) :
    crossing front back = none := by
  cases hcross : crossing front back with
  | none => rfl
  | some kind =>
    obtain ⟨t, rest, hdrop, -, hspan⟩ :=
      dropWhile_tokens_of_crossing start hcross
    have ht : t ∈ t :: rest := List.mem_cons_self
    rw [← hdrop] at ht
    exact absurd hspan (h t ((List.dropWhile_sublist _).mem ht))

/-- **A token that begins before a place and ends behind it** crosses the
place: it is a lexeme that goes on there. -/
theorem exists_of_straddling (h : t ∈ tokenize (front ++ back))
    (hstart : t.span.start < Text.size front)
    (hstop : Text.size front < t.span.stop) :
    ∃ before c after, front = before ++ c :: after ∧
      (takeLexeme c (after ++ back)).1.kind = some t.kind ∧
      (takeLexeme c (after ++ back)).2.length < back.length ∧
      crossing front back = some t.kind ∧
      t.Spells (front ++ back) before (takeLexeme c (after ++ back)).1.text
        (takeLexeme c (after ++ back)).2 := by
  obtain ⟨before, c, rest, htext, hnone, hkind, hspan⟩ :=
    exists_of_mem_tokens h
  rw [Nat.zero_add, Nat.zero_add] at hspan
  rw [hspan] at hstart hstop
  obtain ⟨middle, rfl, hmiddle⟩ :=
    Text.exists_append_of_size_le htext.symm (Nat.le_of_lt hstart)
  cases middle with
  | nil =>
    rw [List.append_nil] at hstart
    exact absurd hstart (Nat.lt_irrefl _)
  | cons d after =>
    obtain ⟨rfl, hrest⟩ := List.cons.inj hmiddle
    obtain rfl : rest = after ++ back := hrest
    have happ := text_takeLexeme_append c (after ++ back)
    have hlt : (takeLexeme c (after ++ back)).2.length < back.length := by
      by_contra hle
      obtain ⟨more, hmore, -⟩ := exists_append_of_length_le
        (happ.trans (List.cons_append ..).symm) (Nat.le_of_not_lt hle)
      rw [hmore, Text.size_append, Text.size_append, Text.size_append] at hstop
      dsimp only at hstop
      omega
    refine ⟨before, c, after, rfl, hkind, hlt, ?_, ?_, hspan⟩
    · rw [crossing_from hnone hlt, hkind]
    · rw [happ, htext]

/-- A lexeme that begins at a border is a token if it has a kind. -/
theorem mem_tokenize_of_border {rest : List Char} {kind : Token.Kind}
    (h : crossing front (c :: rest) = none)
    (hkind : (takeLexeme c rest).1.kind = some kind) :
    ⟨⟨Text.size front,
      Text.size front + Text.size (takeLexeme c rest).1.text⟩, kind⟩
        ∈ tokenize (front ++ c :: rest) := by
  unfold tokenize
  rw [lexemes_append h, tokens_append, join_lexemes, Nat.zero_add,
    lexemes_cons, tokens_cons]
  unfold token?
  rw [hkind]
  simp

/-- **Which token begins at a place**: the lexeme that begins there, if it
has a kind. -/
theorem mem_tokenize_iff {rest : List Char} {kind : Token.Kind} {stop : Nat} :
    ⟨⟨Text.size front, stop⟩, kind⟩ ∈ tokenize (front ++ c :: rest)
      ↔ crossing front (c :: rest) = none ∧
        (takeLexeme c rest).1.kind = some kind ∧
        stop = Text.size front + Text.size (takeLexeme c rest).1.text := by
  constructor
  · intro h
    obtain ⟨before, d, after, htext, hnone, hkind, hspan⟩ :=
      exists_of_mem_tokens h
    rw [Nat.zero_add, Nat.zero_add] at hspan
    obtain ⟨hsize, hstop⟩ := Span.mk.inj hspan
    obtain ⟨rfl, hrest⟩ := Text.split_size_unique hsize htext
    obtain ⟨rfl, rfl⟩ := List.cons.inj hrest
    exact ⟨hnone, hkind, hstop.trans (Text.size_append ..)⟩
  · rintro ⟨hnone, hkind, rfl⟩
    exact mem_tokenize_of_border hnone hkind

/-- At a border the tokens of a text are those of its two parts. -/
theorem tokenize_append (h : crossing front back = none) :
    tokenize (front ++ back)
      = tokenize front ++ (tokenize back).map (·.shift (Text.size front)) := by
  unfold tokenize
  rw [lexemes_append h, tokens_append, join_lexemes, tokens_add]

/-- **Tokenizing is compositional**: the tokens of a text are those of the
text before a place and those of the text behind it exactly if the place
is not strictly inside a token. -/
theorem Tokenizer.tokenize_append_iff (front back : String) :
    Tokenizer.basic.tokenize (front ++ back)
        = Tokenizer.basic.tokenize front
          ++ (Tokenizer.basic.tokenize back).map
              (·.shift front.utf8ByteSize)
      ↔ ∀ t ∈ Tokenizer.basic.tokenize (front ++ back),
          ¬ (t.span.start < front.utf8ByteSize ∧
            front.utf8ByteSize < t.span.stop) := by
  show SwiftStyle.tokenize (front ++ back).toList
      = SwiftStyle.tokenize front.toList
        ++ (SwiftStyle.tokenize back.toList).map (·.shift front.utf8ByteSize)
    ↔ ∀ t ∈ SwiftStyle.tokenize (front ++ back).toList, _
  rw [String.toList_append, ← Text.size_toList]
  constructor
  · intro heq t ht
    rw [heq] at ht
    rcases List.mem_append.1 ht with ht | ht
    · have := (bounds_of_mem ht).2.2
      omega
    · obtain ⟨u, -, rfl⟩ := List.mem_map.1 ht
      have : Text.size front.toList
          ≤ (u.shift (Text.size front.toList)).span.start :=
        Nat.le_add_left ..
      omega
  · intro h
    refine SwiftStyle.tokenize_append (crossing_eq_none 0 fun t ht => ?_)
    rw [Nat.zero_add]
    exact h t ht

/-! ## The first token

What is proved of a literal or a comment on its own is that it leads any text,
or any text behind a line feed: it is the first token, and what follows is
divided as if nothing had been there. With a border in front of it this is
enough to find it in a longer text. -/

/-- **A piece of text leads another as a token**: it is the first token of
the two, and the text behind it is divided as it is on its own. -/
def Leads (kind : Token.Kind) (piece back : List Char) : Prop :=
  tokenize (piece ++ back)
    = ⟨⟨0, Text.size piece⟩, kind⟩
      :: (tokenize back).map (·.shift (Text.size piece))

instance (kind : Token.Kind) (piece back : List Char) :
    Decidable (Leads kind piece back) :=
  inferInstanceAs (Decidable (_ = _))

/-- A piece leads no text if it is one token from end to end. -/
theorem leads_nil_iff {kind : Token.Kind} {piece : List Char} :
    Leads kind piece []
      ↔ tokenize piece = [⟨⟨0, Text.size piece⟩, kind⟩] := by
  have hnil : tokenize [] = [] := by
    unfold tokenize
    rw [lexemes]
    rfl
  unfold Leads
  rw [List.append_nil, hnil, List.map_nil]

theorem leads_of_takeLexeme {kind : Token.Kind} {piece rest : List Char}
    (h : takeLexeme c rest = (⟨some kind, piece⟩, back)) :
    Leads kind piece back := by
  have htext := text_takeLexeme_append c rest
  rw [h] at htext
  unfold Leads tokenize
  rw [htext, lexemes_cons, h, tokens_cons, tokens_add]
  unfold token?
  rw [Nat.zero_add]
  rfl

/-- **A piece leads a text exactly if the first lexeme ends with it.** -/
theorem leads_iff {kind : Token.Kind} {piece rest : List Char}
    (htext : c :: rest = piece ++ back)
    (hkind : (takeLexeme c rest).1.kind = some kind) :
    Leads kind piece back ↔ (takeLexeme c rest).2 = back := by
  have happ := text_takeLexeme_append c rest
  cases htake : takeLexeme c rest with
  | mk lexeme after =>
    obtain ⟨_, first⟩ := lexeme
    rw [htake] at hkind happ
    obtain rfl := hkind
    have hfirst := leads_of_takeLexeme htake
    constructor
    · intro hleads
      unfold Leads at hfirst hleads
      rw [happ, htext, hleads] at hfirst
      have hsize := congrArg (·.span.stop) (List.cons.inj hfirst).1
      exact (Text.split_size_unique hsize.symm (happ.trans htext)).2
    · rintro rfl
      obtain rfl : first = piece :=
        List.append_cancel_right (happ.trans htext)
      exact hfirst

/-- Inert text has no tokens. -/
theorem tokens_inert {text : List Char} (h : ∀ c ∈ text, isInert c)
    (start : Nat) (back : List Char) :
    tokens start (lexemes (text ++ back))
      = tokens (start + Text.size text) (lexemes back) := by
  induction text generalizing start with
  | nil => rfl
  | cons c text ih =>
    obtain ⟨hc, htext⟩ := List.forall_mem_cons.1 h
    rw [List.cons_append, lexemes_cons, takeLexeme_inert hc, tokens_cons,
      ih htext, Text.size_cons]
    unfold token?
    dsimp only
    rw [Option.map_none, Option.toList_none, List.nil_append,
      Nat.add_assoc, Text.size_cons, Text.size_nil, Nat.add_zero]

/-! ## Words

A correction moves everything behind it, so what it keeps are not tokens but
words. -/

/-- The word that a lexeme is, if it has a kind. -/
def Lexeme.word? (lexeme : Lexeme) : Option (Token.Kind × List Char) :=
  lexeme.kind.map (·, lexeme.text)

/-- The words of a text. -/
def words (text : List Char) : List (Token.Kind × List Char) :=
  (lexemes text).filterMap Lexeme.word?

theorem words_inert (h : ∀ c ∈ front, isInert c) (back : List Char) :
    words (front ++ back) = words back := by
  induction front with
  | nil => rfl
  | cons c front ih =>
    obtain ⟨hc, hfront⟩ := List.forall_mem_cons.1 h
    unfold words at ih ⊢
    rw [List.cons_append, lexemes_cons, takeLexeme_inert hc,
      List.filterMap_cons_none rfl, ih hfront]

theorem words_append (h : crossing front back = none) :
    words (front ++ back) = words front ++ words back := by
  unfold words
  rw [lexemes_append h, List.filterMap_append]

theorem filterMap_tokens (front : List Char) (found : List Lexeme) :
    (tokens (Text.size front) found).filterMap (fun t =>
        (Text.slice? t.span.start t.span.stop (front ++ join found)).map
          (t.kind, ·))
      = found.filterMap Lexeme.word? := by
  induction found generalizing front with
  | nil => rfl
  | cons lexeme found ih =>
    have ih := ih (front ++ lexeme.text)
    rw [Text.size_append, List.append_assoc] at ih
    rw [join_cons, tokens_cons, List.filterMap_append, ih]
    unfold token?
    cases hk : lexeme.kind with
    | none =>
      rw [List.filterMap_cons_none (by unfold Lexeme.word?; rw [hk]; rfl)]
      rfl
    | some kind =>
      have hslice : Text.slice? (Text.size front)
          (Text.size front + Text.size lexeme.text)
          (front ++ (lexeme.text ++ join found)) = some lexeme.text :=
        Text.slice?_eq_some.2 ⟨front, join found,
          (List.append_assoc ..).symm, rfl, Text.size_append ..⟩
      rw [List.filterMap_cons_some
        (by unfold Lexeme.word?; rw [hk]; rfl)]
      rw [Option.map_some, Option.toList_some, List.filterMap_cons_some
        (by dsimp only; rw [hslice]; rfl)]
      rfl

end SwiftStyle
