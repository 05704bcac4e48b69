import SwiftStyle.Number.Binary64
import SwiftStyle.Toml.Datetime

/-!
# Values of configuration texts

A configuration text is a table: names with values, which may be tables
again. The names of a table are distinct, and their order means nothing.
-/

namespace SwiftStyle.Toml

/-- **A value.** Integers have sixty-four bits. -/
inductive Value where
  /-- A text. -/
  | string (text : String)
  /-- An integer. -/
  | integer (n : Int)
  /-- A double. -/
  | float (x : Binary64)
  /-- A truth value. -/
  | boolean (b : Bool)
  /-- A date, a time, or both. -/
  | datetime (d : Datetime)
  /-- Several values. -/
  | array (items : List Value)
  /-- Names with values. -/
  | table (entries : List (String × Value))
deriving Repr, Inhabited

/-- The value of a name among names with values. -/
def lookup (name : String) (entries : List (String × Value)) :
    Option Value :=
  (entries.find? fun entry => entry.1 == name).map (·.2)

namespace Value

/-- The text, if the value is one. -/
def string? : Value → Option String
  | string text => some text
  | _ => none

/-- The integer, if the value is one. -/
def integer? : Value → Option Int
  | integer n => some n
  | _ => none

/-- The truth value, if the value is one. -/
def boolean? : Value → Option Bool
  | boolean b => some b
  | _ => none

/-- The items, if the value is an array. -/
def array? : Value → Option (List Value)
  | array items => some items
  | _ => none

/-- The entries, if the value is a table. -/
def table? : Value → Option (List (String × Value))
  | table entries => some entries
  | _ => none

end Value
end SwiftStyle.Toml
