import SwiftStyle.Text.Name
import SwiftStyle.Token.Basic

/-!
# Lexemes

Source text is a sequence of **lexemes**: pieces that each are one
token, and single characters that belong to no token. Every scanner of
this module takes a text and answers with the piece it takes from its
front and the rest; nothing is lost, since the two make up the text
again (`append_…`). `lexemes` repeats `takeLexeme` to the end of the
text, which is reached because a lexeme is never empty
(`length_takeLexeme_lt`), and `lexemes_flatten` says that the pieces
spell the text.

How tokens end, where the text is not well formed:

* a block comment whose comments are not all closed runs to the end;
* a string of one line ends before the line feed, one of several lines
  at the end of the text;
* a backquote without a partner on its line ends before the line feed.

The scanners are functions of the text behind a place, and of nothing before
it: a lexeme never depends on what the lexemes before it were. Where a scanner
has to know more, as of the delimiters of a string or of the depth of
comments, it is an argument.
-/

namespace SwiftStyle

namespace Lexeme

/-- A piece of text and the text after it. -/
abbrev Cut := List Char × List Char

/-- The same cut with a text before its first part. -/
def Cut.after (front : List Char) (cut : Cut) : Cut :=
  (front ++ cut.1, cut.2)

/-- The longest front of a text whose characters all satisfy `p`. -/
def takeRun (p : Char → Bool) (text : List Char) : Cut :=
  (text.takeWhile p, text.dropWhile p)

@[simp] theorem append_takeRun (p : Char → Bool) (text : List Char) :
    (takeRun p text).1 ++ (takeRun p text).2 = text :=
  List.takeWhile_append_dropWhile

/-! ## Comments -/

/-- The rest of a block comment in which one more comment than `depth`
is open: comments nest, so it ends with the mark that closes the
outermost. -/
def takeBlock : (depth : Nat) → List Char → Cut
  | depth, '/' :: '*' :: rest =>
    Cut.after ['/', '*'] (takeBlock (depth + 1) rest)
  | 0, '*' :: '/' :: rest => (['*', '/'], rest)
  | depth + 1, '*' :: '/' :: rest =>
    Cut.after ['*', '/'] (takeBlock depth rest)
  | depth, c :: rest => Cut.after [c] (takeBlock depth rest)
  | _, [] => ([], [])

@[simp] theorem append_takeBlock (depth : Nat) (text : List Char) :
    (takeBlock depth text).1 ++ (takeBlock depth text).2 = text := by
  fun_induction takeBlock depth text <;> simp_all [Cut.after]

/-! ## Strings -/

/-- What is left of a text after so many times a character, if the text
begins with them. -/
def dropRepeated? (c : Char) : Nat → List Char → Option (List Char)
  | 0, text => some text
  | n + 1, d :: rest => if d = c then dropRepeated? c n rest else none
  | _ + 1, [] => none

theorem dropRepeated?_eq_some {c : Char} {n : Nat}
    {text rest : List Char} :
    dropRepeated? c n text = some rest ↔
      text = List.replicate n c ++ rest := by
  induction n generalizing text with
  | zero => simp [dropRepeated?]
  | succ n ih =>
    cases text with
    | nil => simp [dropRepeated?, List.replicate_succ]
    | cons d tail =>
      by_cases h : d = c <;>
        simp [dropRepeated?, List.replicate_succ, h, ih]

/-- **The delimiters of a string literal**: how many number signs stand
before its opening quotation marks, and whether it has three quotation
marks and may span lines. -/
structure Delimiter where
  /-- Number signs on either side of the quotation marks. -/
  hashes : Nat
  /-- Whether the literal may span lines. -/
  multiline : Bool
deriving DecidableEq, Repr

namespace Delimiter

/-- The text that opens the literal. -/
def opening (d : Delimiter) : List Char :=
  List.replicate d.hashes '#' ++
    List.replicate (if d.multiline then 3 else 1) '"'

/-- The text that closes the literal. -/
def closing (d : Delimiter) : List Char :=
  List.replicate (if d.multiline then 3 else 1) '"' ++
    List.replicate d.hashes '#'

/-- The text that takes its meaning from the character after it. -/
def escape (d : Delimiter) : List Char :=
  '\\' :: List.replicate d.hashes '#'

/-- What is left of a text after the closing, if it begins with it. -/
def dropClosing? (d : Delimiter) (text : List Char) :
    Option (List Char) :=
  (dropRepeated? '"' (if d.multiline then 3 else 1) text).bind
    (dropRepeated? '#' d.hashes)

/-- What is left of a text after the start of an escape, if it begins
with one. -/
def dropEscape? (d : Delimiter) (text : List Char) :
    Option (List Char) :=
  (dropRepeated? '\\' 1 text).bind (dropRepeated? '#' d.hashes)

theorem dropClosing?_eq_some {d : Delimiter} {text rest : List Char} :
    d.dropClosing? text = some rest ↔ text = d.closing ++ rest := by
  simp only [dropClosing?, Option.bind_eq_some_iff, dropRepeated?_eq_some,
    closing, List.append_assoc, exists_eq_right]

theorem dropEscape?_eq_some {d : Delimiter} {text rest : List Char} :
    d.dropEscape? text = some rest ↔ text = d.escape ++ rest := by
  simp only [dropEscape?, Option.bind_eq_some_iff, dropRepeated?_eq_some,
    exists_eq_right]
  rfl

end Delimiter

/-- The delimiters at the front of a text that starts a string. -/
def delimiter (text : List Char) : Delimiter :=
  let (hashes, rest) := takeRun (· == '#') text
  ⟨hashes.length, ['"', '"', '"'].isPrefixOf rest⟩

/-- The rest of a string literal after its opening. An escape takes the
character after it along, except that nothing takes the line feed that
ends a string of one line. -/
def takeString (d : Delimiter) (text : List Char) : Cut :=
  match text with
  | [] => ([], [])
  | c :: rest =>
    match _escaped : d.dropEscape? (c :: rest) with
    | some [] => (d.escape, [])
    | some (e :: after) =>
      if e != '\n' || d.multiline then
        Cut.after (d.escape ++ [e]) (takeString d after)
      else Cut.after d.escape (takeString d (e :: after))
    | none =>
      match d.dropClosing? (c :: rest) with
      | some after => (d.closing, after)
      | none =>
        if c == '\n' && !d.multiline then ([], c :: rest)
        else Cut.after [c] (takeString d rest)
termination_by text.length
decreasing_by
  · have := congrArg List.length (Delimiter.dropEscape?_eq_some.1 _escaped)
    simp only [Delimiter.escape, List.length_append, List.length_cons] at this
    simp only [List.length_cons]
    omega
  · have := congrArg List.length (Delimiter.dropEscape?_eq_some.1 _escaped)
    simp only [Delimiter.escape, List.length_append, List.length_cons] at this
    simp only [List.length_cons]
    omega
  · simp

@[simp] theorem append_takeString (d : Delimiter) (text : List Char) :
    (takeString d text).1 ++ (takeString d text).2 = text := by
  fun_induction takeString d text with
  | case1 => rfl
  | case2 c rest h => simpa using (Delimiter.dropEscape?_eq_some.1 h).symm
  | case3 c rest e after h _ ih =>
    simpa [Cut.after, ih] using (Delimiter.dropEscape?_eq_some.1 h).symm
  | case4 c rest e after h _ ih =>
    simpa [Cut.after, ih] using (Delimiter.dropEscape?_eq_some.1 h).symm
  | case5 c rest _ after h => exact (Delimiter.dropClosing?_eq_some.1 h).symm
  | case6 => rfl
  | case7 c rest _ _ _ ih => simp [Cut.after, ih]

/-! ## Names and numbers -/

/-- The rest of a name between backquotes. -/
def takeQuotedName (text : List Char) : Cut :=
  let (name, rest) := takeRun (fun c => c != '\x60' && c != '\n') text
  match rest with
  | '\x60' :: after => (name ++ ['\x60'], after)
  | _ => (name, rest)

@[simp] theorem append_takeQuotedName (text : List Char) :
    (takeQuotedName text).1 ++ (takeQuotedName text).2 = text := by
  have h := append_takeRun (fun c => c != '\x60' && c != '\n') text
  unfold takeQuotedName
  simp only
  split
  next after heq => rw [heq] at h; simpa using h
  next => exact h

/-- The longest front of a text that is made of ASCII letters, digits and
low lines, and of points that a digit follows. -/
def takeNumber : List Char → Cut
  | '.' :: d :: rest =>
    if d.isDigit then Cut.after ['.'] (takeNumber (d :: rest))
    else ([], '.' :: d :: rest)
  | c :: rest =>
    if c.isAlphanum || c == '_' then Cut.after [c] (takeNumber rest)
    else ([], c :: rest)
  | [] => ([], [])

@[simp] theorem append_takeNumber (text : List Char) :
    (takeNumber text).1 ++ (takeNumber text).2 = text := by
  fun_induction takeNumber text <;> simp_all [Cut.after]

end Lexeme

/-- **A lexeme**: a piece of text, and its kind if it is a token. -/
structure Lexeme where
  /-- The kind, if the piece is a token. -/
  kind : Option Token.Kind
  /-- The piece. -/
  text : List Char
deriving DecidableEq, Repr

namespace Lexeme

/-- Whether a text starts a string literal: a quotation mark, or number
signs and then a quotation mark. -/
def startsString (text : List Char) : Bool :=
  (text.dropWhile (· == '#')).head? == some '"'

/-- The lexeme at the front of a text with a first character, and the
text after it. -/
def takeLexeme (c : Char) (rest : List Char) : Lexeme × List Char :=
  if c = '/' && rest.head? = some '/' then
    let (body, after) := takeRun (· != '\n') rest
    (⟨some .comment, c :: body⟩, after)
  else if c = '/' && rest.head? = some '*' then
    let (body, after) := takeBlock 0 rest.tail
    (⟨some .comment, c :: '*' :: body⟩, after)
  else if startsString (c :: rest) then
    let d := delimiter (c :: rest)
    let (body, after) :=
      takeString d ((c :: rest).drop d.opening.length)
    (⟨some .string, d.opening ++ body⟩, after)
  else if c = '\x60' then
    let (body, after) := takeQuotedName rest
    (⟨some .identifier, c :: body⟩, after)
  else if c = '@' && rest.head?.any Text.startsName then
    let (body, after) := takeRun Text.continuesName rest
    (⟨some .attribute, c :: body⟩, after)
  else if c.isDigit then
    let (body, after) := takeNumber rest
    (⟨some .number, c :: body⟩, after)
  else if Text.startsName c then
    let (body, after) := takeRun Text.continuesName rest
    let kind :=
      if Token.isReserved (c :: body) then .keyword else .identifier
    (⟨some kind, c :: body⟩, after)
  else (⟨none, [c]⟩, rest)

/-- A text that starts a string begins with the opening of its
delimiters. -/
theorem opening_append_drop {text : List Char} (h : startsString text) :
    (delimiter text).opening ++
      text.drop (delimiter text).opening.length = text := by
  obtain ⟨rest, hrest⟩ :
      ∃ rest, (takeRun (· == '#') text).2 = '"' :: rest := by
    change (takeRun (· == '#') text).2.head? == some '"' at h
    cases hr : (takeRun (· == '#') text).2 with
    | nil => simp [hr] at h
    | cons c rest => simp [hr] at h; exact ⟨rest, by rw [h]⟩
  have hrun : (takeRun (· == '#') text).1 =
      List.replicate (takeRun (· == '#') text).1.length '#' :=
    List.eq_replicate_of_mem fun c hc => by
      simpa using List.all_eq_true.1
        (List.all_takeWhile (p := (· == '#')) (l := text)) c hc
  obtain ⟨tail, htail⟩ :
      ∃ tail, text = (delimiter text).opening ++ tail := by
    have happ := append_takeRun (· == '#') text
    by_cases hm : ['"', '"', '"'].isPrefixOf (takeRun (· == '#') text).2
    · obtain ⟨tail, ht⟩ := List.isPrefixOf_iff_prefix.1 hm
      refine ⟨tail, ?_⟩
      simp only [delimiter, Delimiter.opening, hm, if_true, ← hrun]
      rw [List.append_assoc]
      exact (happ.symm.trans (by rw [← ht]; rfl))
    · refine ⟨rest, ?_⟩
      simp only [delimiter, Delimiter.opening, hm, ← hrun]
      rw [List.append_assoc]
      exact (happ.symm.trans (by rw [hrest]; rfl))
  generalize (delimiter text).opening = opening at htail ⊢
  subst htail
  simp

/-- A lexeme and the text after it make up the text. -/
theorem text_takeLexeme_append (c : Char) (rest : List Char) :
    (takeLexeme c rest).1.text ++ (takeLexeme c rest).2 = c :: rest := by
  unfold takeLexeme
  split
  · simp
  split
  next h =>
    obtain ⟨tail, rfl⟩ : ∃ tail, rest = '*' :: tail := by
      cases rest with
      | nil => simp at h
      | cons d tail => simp at h; exact ⟨tail, by rw [h.2]⟩
    simp_all
  split
  next h =>
    have := opening_append_drop h
    simpa using this
  split
  · simp
  split
  · simp
  split
  · simp
  split
  · simp
  · simp

/-- A lexeme is not empty. -/
theorem text_takeLexeme_ne_nil (c : Char) (rest : List Char) :
    (takeLexeme c rest).1.text ≠ [] := by
  unfold takeLexeme
  split
  · simp
  split
  · simp
  split
  · simp only [Delimiter.opening]
    cases (delimiter (c :: rest)).multiline <;> simp [List.replicate]
  split
  · simp
  split
  · simp
  split
  · simp
  split
  · simp
  · simp

/-- The text after a lexeme is shorter than the text it was taken from. -/
theorem length_takeLexeme_lt (c : Char) (rest : List Char) :
    (takeLexeme c rest).2.length < (c :: rest).length := by
  have happ := congrArg List.length (text_takeLexeme_append c rest)
  have hpos := List.length_pos_iff.2 (text_takeLexeme_ne_nil c rest)
  simp only [List.length_append] at happ
  omega

end Lexeme

/-- **The lexemes of a text**, from its front to its end. -/
def lexemes : List Char → List Lexeme
  | [] => []
  | c :: rest =>
    (Lexeme.takeLexeme c rest).1 :: lexemes (Lexeme.takeLexeme c rest).2
termination_by text => text.length
decreasing_by exact Lexeme.length_takeLexeme_lt c rest

/-- The lexemes of a text spell it. -/
theorem lexemes_flatten (text : List Char) :
    ((lexemes text).map Lexeme.text).flatten = text := by
  fun_induction lexemes text with
  | case1 => rfl
  | case2 c rest ih =>
    simp [ih, Lexeme.text_takeLexeme_append]

end SwiftStyle
