import SwiftStyle.Toml.Document

/-!
# Dates as tables

Where a table is wanted, a date may stand in for one: it is read as the
table that has the text of the date under one reserved name, the tag.
The other way round, a table that begins with the tag is read as the
date whose text it holds, wherever any value is wanted.
-/

namespace SwiftStyle.Toml

/-- The name under which a date stands in a table. -/
def dateTag : String := "$__toml_private_datetime"

/-- The date, time, or both, of a whole text. -/
def Datetime.ofText? (text : String) : Option Datetime :=
  match takeDatetime text.toList with
  | some (d, []) => some d
  | _ => none

namespace Value

/-- The entries of a table or of what stands in for one. -/
def entries? : Value → Option (List (String × Value))
  | table entries => some entries
  | datetime d => some [(dateTag, .string d.text)]
  | _ => none

mutual

/-- **The value with its tagged tables read as dates**, if they hold
dates. -/
def untag? : Value → Option Value
  | string text => some (string text)
  | integer n => some (integer n)
  | float x => some (float x)
  | boolean b => some (boolean b)
  | datetime d => some (datetime d)
  | array items => (untagAll? items).map array
  | table entries =>
    match entries with
    | [] => some (table [])
    | (key, first) :: rest =>
      if key = dateTag then do
        let d ← Datetime.ofText? (← first.string?)
        return datetime d
      else do
        let first ← first.untag?
        let rest ← untagEntries? rest
        return table ((key, first) :: rest)

/-- The same for several values. -/
def untagAll? : List Value → Option (List Value)
  | [] => some []
  | item :: rest => do
    let item ← item.untag?
    let rest ← untagAll? rest
    return item :: rest

/-- The same for the values of a table. -/
def untagEntries? :
    List (String × Value) → Option (List (String × Value))
  | [] => some []
  | (key, item) :: rest => do
    let item ← item.untag?
    let rest ← untagEntries? rest
    return (key, item) :: rest

end

/-- The value that a text stands for behind an equals sign. -/
def ofText? (text : String) : Option Value := do
  let entries ← parse ("v = " ++ text)
  lookup "v" (← untagEntries? entries)

end Value
end SwiftStyle.Toml
