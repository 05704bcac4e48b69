/-!
# Glob patterns

A glob pattern describes paths by their text:

* a question mark stands for any one character, and an asterisk for any
  characters, slashes among them;
* two asterisks stand for whole components – for nothing, for anything
  that ends with a slash, or for all of the rest – and make up a
  component themselves;
* characters between square brackets stand for any one of them, or, with
  an exclamation mark before them, for any other character; a hyphen
  between two characters makes a range, and a closing bracket that comes
  first is one of the characters.

Everything else stands for itself. Not every text is a pattern:
`Glob.parse?` refuses three asterisks in a row, two within a component,
and a bracket that is not closed.
-/

namespace SwiftStyle.Glob

/-- **A range of characters**, from the first to the last. -/
structure CharRange where
  /-- The first character. -/
  first : Char
  /-- The last character. -/
  last : Char
deriving DecidableEq, Repr

/-- Whether a character lies in a range. -/
def CharRange.contains (r : CharRange) (c : Char) : Bool :=
  decide (r.first ≤ c) && decide (c ≤ r.last)

/-- **A part of a pattern.** -/
inductive Token where
  /-- A character that stands for itself. -/
  | char (c : Char)
  /-- Any one character. -/
  | any
  /-- Any characters. -/
  | run
  /-- Any components. -/
  | tree
  /-- One character of some ranges. -/
  | within (ranges : List CharRange)
  /-- One character outside some ranges. -/
  | outside (ranges : List CharRange)
deriving DecidableEq, Repr

/-- The ranges that are written between brackets. -/
def rangesOf : List Char → List CharRange
  | a :: '-' :: b :: rest => ⟨a, b⟩ :: rangesOf rest
  | a :: rest => ⟨a, a⟩ :: rangesOf rest
  | [] => []

/-- The characters up to a closing bracket, the first of which may be one
itself, and the text behind the bracket. -/
def takeBracket : List Char → Option (List Char × List Char)
  | [] => none
  | c :: rest =>
    match rest.dropWhile (· != ']') with
    | [] => none
    | _ :: after => some (c :: rest.takeWhile (· != ']'), after)

theorem length_takeBracket_lt {text inside rest : List Char}
    (h : takeBracket text = some (inside, rest)) :
    rest.length < text.length := by
  unfold takeBracket at h
  split at h
  · simp at h
  next c tail =>
    split at h
    · simp at h
    next d after heq =>
      have hs := (List.dropWhile_suffix (l := tail) (· != ']')).length_le
      rw [heq] at hs
      simp only [Option.some.injEq, Prod.mk.injEq] at h
      obtain ⟨_, rfl⟩ := h
      simp only [List.length_cons] at hs ⊢
      omega

/-- The part in brackets at the front of a text that stands behind the
opening bracket. -/
def takeClass (text : List Char) : Option (Token × List Char) :=
  match text with
  | '!' :: rest =>
    (takeBracket rest).map fun (inside, after) =>
      (.outside (rangesOf inside), after)
  | _ =>
    (takeBracket text).map fun (inside, after) =>
      (.within (rangesOf inside), after)

theorem length_takeClass_lt {text rest : List Char} {token : Token}
    (h : takeClass text = some (token, rest)) :
    rest.length < text.length := by
  unfold takeClass at h
  split at h
  next tail =>
    obtain ⟨⟨inside, after⟩, hb, he⟩ := Option.map_eq_some_iff.1 h
    obtain ⟨_, rfl⟩ := Prod.mk.injEq .. ▸ he
    have := length_takeBracket_lt hb
    simp only [List.length_cons]
    omega
  next =>
    obtain ⟨⟨inside, after⟩, hb, he⟩ := Option.map_eq_some_iff.1 h
    obtain ⟨_, rfl⟩ := Prod.mk.injEq .. ▸ he
    have := length_takeBracket_lt hb
    omega

/-- The parts of a pattern from a place on; `fresh` says that a component
begins there. -/
def parseFrom (fresh : Bool) (text : List Char) : Option (List Token) :=
  match text with
  | [] => some []
  | '*' :: '*' :: '*' :: _ => none
  | '*' :: '*' :: rest =>
    if fresh then
      match rest with
      | [] => some [.tree]
      | '/' :: more => (parseFrom true more).map (.tree :: ·)
      | _ => none
    else none
  | '*' :: rest => (parseFrom false rest).map (.run :: ·)
  | '?' :: rest => (parseFrom false rest).map (.any :: ·)
  | '[' :: rest =>
    match _class : takeClass rest with
    | some (token, after) => (parseFrom false after).map (token :: ·)
    | none => none
  | c :: rest => (parseFrom (c == '/') rest).map (.char c :: ·)
termination_by text.length
decreasing_by
  · simp only [List.length_cons]; omega
  · simp
  · simp
  · have := length_takeClass_lt _class
    simp only [List.length_cons]
    omega
  · simp

/-- **The parts of a pattern**, if the text is one. -/
def parse? (text : List Char) : Option (List Token) :=
  parseFrom true text

/-- Whether a part stands for a given character and no others. -/
def Token.admits : Token → Char → Bool
  | char a, c => a == c
  | any, _ => true
  | within ranges, c => ranges.any fun r => r.contains c
  | outside ranges, c => !ranges.any fun r => r.contains c
  | run, _ => false
  | tree, _ => false

/-- A text and all texts that are left of it from some place on. -/
def suffixes : List Char → List (List Char)
  | [] => [[]]
  | c :: rest => (c :: rest) :: suffixes rest

/-- What is left of a text behind each of its slashes. -/
def behindSlashes : List Char → List (List Char)
  | [] => []
  | c :: rest =>
    if c = '/' then rest :: behindSlashes rest else behindSlashes rest

/-- **Whether a pattern means a text.** This says what the parts stand
for; `isMatch` decides it without trying every way of dividing the text
among them. -/
def denotes : List Token → List Char → Bool
  | [], text => text.isEmpty
  | .run :: tokens, text => (suffixes text).any (denotes tokens)
  | .tree :: tokens, text =>
    denotes tokens text || (behindSlashes text).any (denotes tokens) ||
      denotes tokens []
  | token :: tokens, c :: rest => token.admits c && denotes tokens rest
  | _ :: _, [] => false

/-! ## Deciding what a pattern describes

The parts are taken from the last to the first. For the parts behind each
of them there is a **row**, which tells of every suffix of the text, the
longest first, whether they mean it; the row with that part before them
follows from it. -/

/-- The row of a part that stands for one character. -/
def rowOfOne (token : Token) : List Char → List Bool → List Bool
  | c :: rest, _ :: behind =>
    (token.admits c && behind.headD false) :: rowOfOne token rest behind
  | _, _ => [false]

/-- The row of a part that stands for any characters. -/
def rowOfRun : List Bool → List Bool
  | [] => []
  | here :: behind =>
    let below := rowOfRun behind
    (here || below.headD false) :: below

/-- Whether a row holds somewhere behind a slash. -/
def rowOfSlashes : List Char → List Bool → List Bool
  | c :: rest, _ :: behind =>
    let below := rowOfSlashes rest behind
    (c = '/' && behind.headD false || below.headD false) :: below
  | _, _ => [false]

/-- The row of a part, given the row of the parts behind it. -/
def Token.row (text : List Char) (behind : List Bool) : Token → List Bool
  | run => rowOfRun behind
  | tree =>
    let atEnd := behind.getLastD false
    List.zipWith (fun here slashes => here || slashes || atEnd)
      behind (rowOfSlashes text behind)
  | token => rowOfOne token text behind

/-- The row of a pattern. -/
def row (text : List Char) (tokens : List Token) : List Bool :=
  tokens.foldr (fun token behind => token.row text behind)
    ((suffixes text).map List.isEmpty)

/-- **Whether a pattern describes a text.** -/
def isMatch (tokens : List Token) (text : List Char) : Bool :=
  (row text tokens).headD false

theorem headD_map_suffixes (f : List Char → Bool) (text : List Char) :
    ((suffixes text).map f).headD false = f text := by
  cases text <;> rfl

theorem getLastD_map_suffixes (f : List Char → Bool) (text : List Char) :
    ((suffixes text).map f).getLastD false = f [] := by
  induction text with
  | nil => rfl
  | cons c rest ih =>
    cases rest with
    | nil => rfl
    | cons d tail => simpa [suffixes, List.getLastD] using ih

theorem rowOfOne_suffixes (token : Token) (f : List Char → Bool)
    (text : List Char) :
    rowOfOne token text ((suffixes text).map f) =
      (suffixes text).map fun
        | [] => false
        | c :: rest => token.admits c && f rest := by
  induction text with
  | nil => rfl
  | cons c rest ih =>
    simp only [suffixes, List.map_cons, rowOfOne, headD_map_suffixes, ih]

theorem rowOfRun_suffixes (f : List Char → Bool) (text : List Char) :
    rowOfRun ((suffixes text).map f) =
      (suffixes text).map fun s => (suffixes s).any f := by
  induction text with
  | nil => simp [suffixes, rowOfRun]
  | cons c rest ih =>
    simp only [suffixes, List.map_cons, rowOfRun, ih, headD_map_suffixes,
      List.any_cons]

theorem rowOfSlashes_suffixes (f : List Char → Bool) (text : List Char) :
    rowOfSlashes text ((suffixes text).map f) =
      (suffixes text).map fun s => (behindSlashes s).any f := by
  induction text with
  | nil => rfl
  | cons c rest ih =>
    simp only [suffixes, List.map_cons, rowOfSlashes, ih,
      headD_map_suffixes, behindSlashes]
    by_cases h : c = '/' <;> simp [h]

/-- The row of a pattern tells of each suffix whether it is meant. -/
theorem row_eq (text : List Char) (tokens : List Token) :
    row text tokens = (suffixes text).map (denotes tokens) := by
  induction tokens with
  | nil =>
    simp only [row, List.foldr_nil]
    exact List.map_congr_left fun s _ => by cases s <;> rfl
  | cons token tokens ih =>
    simp only [row, List.foldr_cons] at ih ⊢
    rw [ih]
    cases token with
    | run =>
      simp only [Token.row, rowOfRun_suffixes]
      exact List.map_congr_left fun s _ => by rw [denotes]
    | tree =>
      simp only [Token.row, rowOfSlashes_suffixes, getLastD_map_suffixes,
        List.zipWith_map, List.zipWith_self]
      exact List.map_congr_left fun s _ => by rw [denotes]
    | char a =>
      simp only [Token.row, rowOfOne_suffixes]
      exact List.map_congr_left fun s _ => by cases s <;> simp [denotes]
    | any =>
      simp only [Token.row, rowOfOne_suffixes]
      exact List.map_congr_left fun s _ => by cases s <;> simp [denotes]
    | within ranges =>
      simp only [Token.row, rowOfOne_suffixes]
      exact List.map_congr_left fun s _ => by cases s <;> simp [denotes]
    | outside ranges =>
      simp only [Token.row, rowOfOne_suffixes]
      exact List.map_congr_left fun s _ => by cases s <;> simp [denotes]

/-- A pattern describes the texts that it means. -/
theorem isMatch_eq_denotes (tokens : List Token) (text : List Char) :
    isMatch tokens text = denotes tokens text := by
  rw [isMatch, row_eq, headD_map_suffixes]

end SwiftStyle.Glob
