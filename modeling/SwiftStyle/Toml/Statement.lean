import SwiftStyle.Toml.Number

/-!
# Statements of a configuration text

A configuration text is a sequence of statements: names with values, and
headers that say which table the names after them belong to. A name is a
sequence of keys with points between them. Arrays may hold anything and
span lines; inline tables stand on one line and hold names with values.

Nothing here asks whether the statements agree with each other: inline
tables are read as the lists of pairs they are written as. How deep
values may be nested and how many keys a name may have is bounded.

The bounds are part of what is accepted: a text that goes beyond one of them
is refused as a whole, like one that is not well formed.
-/

namespace SwiftStyle.Toml

/-- **A name**: keys that lead from a table to a value within it. -/
abbrev KeyPath := List String

/-- **A value as it is written**, its inline tables as lists of pairs. -/
inductive Draft where
  /-- A value that is no table and no array. -/
  | plain (value : Value)
  /-- An array. -/
  | array (items : List Draft)
  /-- An inline table. -/
  | inline (pairs : List (KeyPath × Draft))
deriving Repr, Inhabited

/-- How many arrays and inline tables may stand inside one another. -/
def maxNesting : Nat := 79

/-- How many keys a name may have. -/
def maxKeys : Nat := 79

/-! ## Names -/

/-- Whether a character may stand in a key without quotation marks. -/
def isBare (c : Char) : Bool :=
  c.isAlphanum || c == '_' || c == '-'

/-- One key. -/
def takeKey : Scan String := fun text =>
  match text with
  | [] => none
  | c :: rest =>
    if c = '"' || c = '\x27' then
      (takeLine c rest).map fun (body, after) => (String.ofList body, after)
    else
      match text.takeWhile isBare with
      | [] => none
      | key => some (String.ofList key, text.dropWhile isBare)

/-- Keys with points between them, and blanks around them. -/
def takeKeys (text : List Char) : Option (KeyPath × List Char) := do
  let (key, rest) ← takeKey (skipGap text)
  match skipGap rest with
  | '.' :: more =>
    if more.length < text.length then
      let (keys, after) ← takeKeys more
      return (key :: keys, after)
    else none
  | after => return ([key], after)
termination_by text.length

/-- **A name.** -/
def takeName : Scan KeyPath := fun text => do
  let (keys, rest) ← takeKeys text
  if keys.length ≤ maxKeys then some (keys, rest) else none

/-! ## Values -/

/-- A text at the front of a text. -/
def skipText? (front text : List Char) : Option (List Char) :=
  if front.isPrefixOf text then some (text.drop front.length) else none

/-- A value that is no table and no array. -/
def takePlain : Scan Value := fun text =>
  match text with
  | [] => none
  | c :: _ =>
    if c = '"' || c = '\x27' then
      (takeQuoted text).map fun (body, rest) => (.string body, rest)
    else if c = 't' then
      (skipText? "true".toList text).map fun rest => (.boolean true, rest)
    else if c = 'f' then
      (skipText? "false".toList text).map fun rest => (.boolean false, rest)
    else
      match takeDatetime text with
      | some (d, rest) => some (.datetime d, rest)
      | none => takeNumber text

/-- The items of an array up to its end, each read by a scanner. The last
may have a comma behind it. -/
def takeItems {α : Type} (item : Scan α) (text : List Char) :
    Option (List α × List Char) := do
  match ← skipLayout? false text with
  | ']' :: rest => return ([], rest)
  | front =>
    let (first, rest) ← item front
    match ← skipLayout? false rest with
    | ']' :: rest => return ([first], rest)
    | ',' :: more =>
      if more.length < text.length then
        let (others, after) ← takeItems item more
        return (first :: others, after)
      else none
    | _ => none
termination_by text.length

/-- A name with a value that is read by a scanner. -/
def takePair {α : Type} (value : Scan α) : Scan (KeyPath × α) :=
  fun text => do
    let (name, rest) ← takeName text
    let rest ← skipChar? '=' rest
    let (a, rest) ← value (skipGap rest)
    return ((name, a), rest)

/-- Names with values up to the end of an inline table; there is at least
one, and no comma behind the last. -/
def takePairs {α : Type} (value : Scan α) (text : List Char) :
    Option (List (KeyPath × α) × List Char) := do
  let (first, rest) ← takePair value text
  match skipGap rest with
  | '}' :: after => return ([first], after)
  | ',' :: more =>
    if more.length < text.length then
      let (others, after) ← takePairs value more
      return (first :: others, after)
    else none
  | _ => none
termination_by text.length

/-- The inside of an inline table and its end. -/
def takeInline {α : Type} (value : Scan α) :
    Scan (List (KeyPath × α)) := fun text =>
  match skipGap text with
  | '}' :: rest => some ([], rest)
  | _ => takePairs value text

/-- **A value** in which arrays and inline tables are nested at most so
deep. -/
def takeValue : (depth : Nat) → Scan Draft
  | 0, text =>
    if text.head? = some '[' || text.head? = some '{' then none
    else (takePlain text).map fun (v, rest) => (.plain v, rest)
  | depth + 1, '[' :: rest =>
    (takeItems (takeValue depth) rest).map fun (items, after) =>
      (.array items, after)
  | depth + 1, '{' :: rest =>
    (takeInline (takeValue depth) rest).map fun (pairs, after) =>
      (.inline pairs, after)
  | _ + 1, text => (takePlain text).map fun (v, rest) => (.plain v, rest)

/-! ## Statements -/

/-- **A statement.** -/
inductive Statement where
  /-- A name with a value. -/
  | pair (name : KeyPath) (value : Draft)
  /-- The header of a table. -/
  | table (name : KeyPath)
  /-- The header of the next table of an array of tables. -/
  | arrayItem (name : KeyPath)
deriving Repr, Inhabited

/-- The statement at the front of a text, up to the end of its line. -/
def takeStatement : Scan Statement := fun text => do
  match text with
  | '[' :: '[' :: rest =>
    let (name, rest) ← takeName rest
    let rest ← skipText? [']', ']'] rest
    return (.arrayItem name, ← skipTrailing? rest)
  | '[' :: rest =>
    let (name, rest) ← takeName rest
    let rest ← skipText? [']'] rest
    return (.table name, ← skipTrailing? rest)
  | _ =>
    let ((name, value), rest) ← takePair (takeValue maxNesting) text
    return (.pair name value, ← skipTrailing? rest)

/-- The statements of a text. -/
def statementsFrom (text : List Char) : Option (List Statement) :=
  match skipGap text with
  | [] => some []
  | '#' :: rest => do
    let rest ← skipLineEnd? (rest.dropWhile isPrintable)
    if rest.length < text.length then statementsFrom rest else none
  | c :: rest =>
    match skipBreak? (c :: rest) with
    | some rest =>
      if rest.length < text.length then statementsFrom rest else none
    | none => do
      let (statement, rest) ← takeStatement (c :: rest)
      if rest.length < text.length then
        let others ← statementsFrom rest
        return statement :: others
      else none
termination_by text.length

/-- **The statements of a text**, which may begin with a byte order
mark. -/
def statements (text : List Char) : Option (List Statement) :=
  match text with
  | '\ufeff' :: rest => statementsFrom rest
  | _ => statementsFrom text

end SwiftStyle.Toml
