import SwiftStyle.Toml.Layout

/-!
# Quoted texts

A text stands between double quotation marks, with escapes, or between
single ones, as it is. Three marks on either side make a text that may
span lines: a line break right after the opening marks is dropped, a line
break is read as a line feed however it is written, and a backslash at
the end of a line drops the break and all blanks and breaks after it.

In a text of the second sort, one or two quotation marks stand for
themselves, and so do up to two before the closing three.

Both sorts are read by the same two scanners, one for texts of one line and
one for those that may span lines. The mark that a scanner is given decides
whether there are escapes (`escapes`).
-/

namespace SwiftStyle.Toml

/-- The value of a hexadecimal digit. -/
def hexDigit? (c : Char) : Option Nat :=
  if c.isDigit then some (c.toNat - '0'.toNat)
  else if 'a' ≤ c && c ≤ 'f' then some (c.toNat - 'a'.toNat + 10)
  else if 'A' ≤ c && c ≤ 'F' then some (c.toNat - 'A'.toNat + 10)
  else none

/-- The number that digits of a base stand for, given the value of each
digit. -/
def ofDigits (base : Nat) (digits : List Nat) : Nat :=
  digits.foldl (fun n d => base * n + d) 0

/-- The character with a code point, if it is one. -/
def scalar? (n : Nat) : Option Char :=
  if n.isValidChar then some (Char.ofNat n) else none

/-- The character given by a number of hexadecimal digits at the front
of a text. -/
def takeCode (digits : Nat) : Scan Char := fun text => do
  let code := text.take digits
  if code.length < digits then none
  else
    let values ← code.mapM hexDigit?
    let c ← scalar? (ofDigits 16 values)
    return (c, text.drop digits)

/-- The character that an escape stands for; the text begins behind the
backslash. -/
def takeEscape : Scan Char
  | 'b' :: rest => some ('\x08', rest)
  | 't' :: rest => some ('\t', rest)
  | 'n' :: rest => some ('\n', rest)
  | 'f' :: rest => some ('\x0c', rest)
  | 'r' :: rest => some ('\r', rest)
  | '"' :: rest => some ('"', rest)
  | '\\' :: rest => some ('\\', rest)
  | 'u' :: rest => takeCode 4 rest
  | 'U' :: rest => takeCode 8 rest
  | _ => none

theorem length_takeCode_le {digits : Nat} {text rest : List Char} {c : Char}
    (h : takeCode digits text = some (c, rest)) :
    rest.length ≤ text.length := by
  unfold takeCode at h
  simp only [Option.bind_eq_bind] at h
  split at h
  · simp at h
  · simp only [Option.bind_eq_some_iff, pure, Option.some.injEq,
      Prod.mk.injEq] at h
    obtain ⟨_, _, _, _, _, rfl⟩ := h
    simp

theorem length_takeEscape_le {text rest : List Char} {c : Char}
    (h : takeEscape text = some (c, rest)) :
    rest.length ≤ text.length := by
  unfold takeEscape at h
  split at h
  case h_8 => have := length_takeCode_le h; simp only [List.length_cons]; omega
  case h_9 => have := length_takeCode_le h; simp only [List.length_cons]; omega
  case h_10 => simp at h
  all_goals
    simp only [Option.some.injEq, Prod.mk.injEq] at h
    simp [← h.2]

/-- Whether a quotation mark allows escapes. -/
def escapes (mark : Char) : Bool :=
  mark == '"'

/-- Whether a character stands for itself between quotation marks. -/
def isPlain (mark c : Char) : Bool :=
  c != mark && !(escapes mark && c == '\\') && isPrintable c

/-- The rest of a quoted text of one line, behind the opening mark. -/
def takeLine (mark : Char) (text : List Char) :
    Option (List Char × List Char) :=
  match text with
  | [] => none
  | c :: rest =>
    if c = mark then some ([], rest)
    else if escapes mark && c = '\\' then
      match _escape : takeEscape rest with
      | some (e, after) =>
        (takeLine mark after).map fun (body, more) => (e :: body, more)
      | none => none
    else if isPlain mark c then
      (takeLine mark rest).map fun (body, more) => (c :: body, more)
    else none
termination_by text.length
decreasing_by
  · have := length_takeEscape_le _escape
    simp only [List.length_cons]
    omega
  · simp

/-- The text behind a line break that is written behind a backslash, with
all blanks and breaks after it. -/
def skipContinuation? (text : List Char) : Option (List Char) :=
  (skipBreak? (skipGap text)).map skipFold

theorem length_skipBreak?_le {text rest : List Char}
    (h : skipBreak? text = some rest) : rest.length ≤ text.length := by
  unfold skipBreak? at h
  split at h
  · obtain rfl := Option.some.inj h
    exact Nat.le_succ _
  · obtain rfl := Option.some.inj h
    simp only [List.length_cons]
    omega
  · cases h

theorem length_skipContinuation?_le {text rest : List Char}
    (h : skipContinuation? text = some rest) :
    rest.length ≤ text.length := by
  simp only [skipContinuation?, Option.map_eq_some_iff] at h
  obtain ⟨more, hb, rfl⟩ := h
  have h₁ := length_skipFold_le more
  have h₂ := length_skipBreak?_le hb
  have h₃ := (List.dropWhile_suffix (l := text) isGap).length_le
  unfold skipGap at h₂
  omega

/-- The rest of a quoted text of several lines, behind the opening marks
and the line break that may follow them. -/
def takeLines (mark : Char) (text : List Char) :
    Option (List Char × List Char) :=
  match text with
  | [] => none
  | c :: rest =>
    if c = mark then
      let run := (text.takeWhile (· == mark)).length
      if 3 ≤ run then
        let more := min (run - 3) 2
        some (List.replicate more mark, text.drop (3 + more))
      else (takeLines mark rest).map fun (body, after) => (c :: body, after)
    else if escapes mark && c = '\\' then
      match _continued : skipContinuation? rest with
      | some after => takeLines mark after
      | none =>
        match _escape : takeEscape rest with
        | some (e, after) =>
          (takeLines mark after).map fun (body, more) => (e :: body, more)
        | none => none
    else
      match _broken : skipBreak? (c :: rest) with
      | some after =>
        if after.length < (c :: rest).length then
          (takeLines mark after).map fun (body, more) => ('\n' :: body, more)
        else none
      | none =>
        if isPlain mark c then
          (takeLines mark rest).map fun (body, after) => (c :: body, after)
        else none
termination_by text.length
decreasing_by
  · simp
  · have := length_skipContinuation?_le _continued
    simp only [List.length_cons]
    omega
  · have := length_takeEscape_le _escape
    simp only [List.length_cons]
    omega
  · assumption
  · simp

/-- **A quoted text of either sort.** -/
def takeQuoted (text : List Char) : Option (String × List Char) :=
  match text with
  | mark :: rest =>
    if mark = '"' || mark = '\x27' then
      let taken :=
        if [mark, mark].isPrefixOf rest then
          let body := rest.drop 2
          takeLines mark ((skipBreak? body).getD body)
        else takeLine mark rest
      taken.map fun (body, after) => (String.ofList body, after)
    else none
  | [] => none

end SwiftStyle.Toml
