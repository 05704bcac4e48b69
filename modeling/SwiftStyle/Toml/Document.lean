import SwiftStyle.Toml.Statement

/-!
# Tables of a configuration text

The statements of a configuration text build a table. Each value goes
where its name leads from the table of its header, and tables that are
missing on the way are made. A table that was only made on the way – it
is **implicit** – may still get a header of its own or, if it was made on
the way of a value – it is **dotted** – more values through names of the
same sort. Nothing else may be defined twice:

* a key with a value keeps it;
* a table with a header gets no second one, and no values through the
  names of other tables;
* a dotted table gets no header.

The items of an array of tables are told apart by their headers, and a
name that leads through such an array leads into its last item.
-/

namespace SwiftStyle.Toml

/-- **What a key stands for** while a table is being built. -/
inductive Slot where
  /-- A value. -/
  | value (v : Value)
  /-- A table, perhaps made on the way to another table or value. -/
  | table (implicit dotted : Bool) (entries : List (String × Slot))
  /-- An array of tables. -/
  | tables (items : List (List (String × Slot)))
deriving Repr, Inhabited

/-- The keys of a table that is being built. -/
abbrev Slots := List (String × Slot)

namespace Slots

/-- What a key stands for. -/
def find? (key : String) (slots : Slots) : Option Slot :=
  (List.find? (fun entry => entry.1 == key) slots).map (·.2)

/-- The keys with one of them set, where it was or else at the end. -/
def set (key : String) (slot : Slot) : Slots → Slots
  | [] => [(key, slot)]
  | entry :: rest =>
    if entry.1 == key then (key, slot) :: rest
    else entry :: set key slot rest

/-- The keys without one of them. -/
def erase (key : String) (slots : Slots) : Slots :=
  slots.filter fun entry => entry.1 != key

/-- **Change the table that a name leads to**, and make the tables that
are missing on the way. `viaName` says that the way is part of the name
of a value and not of a header, and `act` is told whether the table it
changes is dotted. -/
def descend (viaName : Bool)
    (act : (dotted : Bool) → Slots → Option Slots) :
    KeyPath → (dotted : Bool) → Slots → Option Slots
  | [], dotted, slots => act dotted slots
  | key :: rest, _, slots =>
    match slots.find? key with
    | none => do
      let inner ← descend viaName act rest viaName []
      return slots ++ [(key, .table true viaName inner)]
    | some (.value _) => none
    | some (.table implicit dotted inner) =>
      if viaName && !implicit then none
      else do
        let inner ← descend viaName act rest dotted inner
        return slots.set key (.table implicit dotted inner)
    | some (.tables items) => do
      let last ← descend viaName act rest false (← items.getLast?)
      return slots.set key (.tables (items.dropLast ++ [last]))

/-- Add a key with a value to a table. A table that the name of the value
led to must be dotted. -/
def add (nested : Bool) (key : String) (v : Value) (dotted : Bool)
    (slots : Slots) : Option Slots :=
  if dotted != nested || (slots.find? key).isSome then none
  else some (slots ++ [(key, .value v)])

/-- **Add a value under a name.** -/
def addPair (name : KeyPath) (v : Value) (slots : Slots) :
    Option Slots := do
  let key ← name.getLast?
  let way := name.dropLast
  slots.descend true (add (!way.isEmpty) key v) way false

/-- Add values under names, one after the other. -/
def addPairs (pairs : List (KeyPath × Value)) (slots : Slots) :
    Option Slots :=
  pairs.foldlM (fun slots (name, v) => slots.addPair name v) slots

end Slots

mutual

/-- The value that a key stands for. -/
def Slot.toValue : Slot → Value
  | .value v => v
  | .table _ _ entries => .table (Slots.toEntries entries)
  | .tables items => .array (Slots.toTables items)

/-- The entries of a table that has been built. -/
def Slots.toEntries : List (String × Slot) → List (String × Value)
  | [] => []
  | (key, slot) :: rest => (key, slot.toValue) :: Slots.toEntries rest

/-- The items of an array of tables that has been built. -/
def Slots.toTables : List (List (String × Slot)) → List Value
  | [] => []
  | item :: rest => .table (Slots.toEntries item) :: Slots.toTables rest

end

mutual

/-- **The value that is written**, if its inline tables define nothing
twice. -/
def Draft.toValue? : Draft → Option Value
  | .plain v => some v
  | .array items => (Draft.toValues? items).map .array
  | .inline pairs => do
    let slots ← Slots.addPairs (← Draft.toPairs? pairs) []
    return .table (Slots.toEntries slots)

/-- The values that are written. -/
def Draft.toValues? : List Draft → Option (List Value)
  | [] => some []
  | item :: rest => do
    let v ← item.toValue?
    let vs ← Draft.toValues? rest
    return v :: vs

/-- The names and the values that are written. -/
def Draft.toPairs? :
    List (KeyPath × Draft) → Option (List (KeyPath × Value))
  | [] => some []
  | (name, item) :: rest => do
    let v ← item.toValue?
    let pairs ← Draft.toPairs? rest
    return (name, v) :: pairs

end

/-- **A header and the pairs under it.** The pairs before the first header
have none. -/
structure Section where
  /-- The header: its name, and whether it starts an item of an array. -/
  header : Option (KeyPath × Bool)
  /-- The pairs. -/
  pairs : List (KeyPath × Draft)
deriving Repr, Inhabited

/-- The pairs before the first header, and the sections from there on. -/
def splitSections :
    List Statement → List (KeyPath × Draft) × List Section
  | [] => ([], [])
  | .pair name v :: rest =>
    let (pairs, sections) := splitSections rest
    ((name, v) :: pairs, sections)
  | .table name :: rest =>
    let (pairs, sections) := splitSections rest
    ([], ⟨some (name, false), pairs⟩ :: sections)
  | .arrayItem name :: rest =>
    let (pairs, sections) := splitSections rest
    ([], ⟨some (name, true), pairs⟩ :: sections)

/-- The sections of statements. -/
def sectionsOf (statements : List Statement) : List Section :=
  let (pairs, sections) := splitSections statements
  ⟨none, pairs⟩ :: sections

/-- Give a table a header and pairs. -/
def Slots.addTable (key : String) (pairs : List (KeyPath × Value))
    (slots : Slots) : Option Slots := do
  let inner ←
    match slots.find? key with
    | none => some []
    | some (.table true false inner) => some inner
    | some _ => none
  let inner ← Slots.addPairs pairs inner
  return slots.erase key ++ [(key, .table false false inner)]

/-- Add an item to an array of tables. -/
def Slots.addItem (key : String) (pairs : List (KeyPath × Value))
    (slots : Slots) : Option Slots := do
  let items ←
    match slots.find? key with
    | none => some []
    | some (.tables items) => some items
    | some _ => none
  let inner ← Slots.addPairs pairs []
  return slots.set key (.tables (items ++ [inner]))

/-- Add a section to the table of the whole text. -/
def Slots.addSection (slots : Slots) (s : Section) : Option Slots := do
  let pairs ← Draft.toPairs? s.pairs
  match s.header with
  | none => slots.addPairs pairs
  | some (name, isItem) =>
    let key ← name.getLast?
    let act := if isItem then addItem key pairs else addTable key pairs
    slots.descend false (fun _ => act) name.dropLast false

/-- **The table that a configuration text stands for.** -/
def parse (text : String) : Option (List (String × Value)) := do
  let written ← statements text.toList
  let slots ← (sectionsOf written).foldlM Slots.addSection []
  return Slots.toEntries slots

end SwiftStyle.Toml
