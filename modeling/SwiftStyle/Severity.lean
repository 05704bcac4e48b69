/-!
# Severities

How serious a violation is. Severities are ordered, an error being the
most serious.

They are compared by their ranks, so the order is a total one and can be
decided. A name is read as it is spelled (`Severity.ofName?`), which is what a
configuration asks for, or whatever the case of its letters
(`Severity.parse`).
-/

namespace SwiftStyle

/-- **How serious a violation is.** -/
inductive Severity where
  /-- Worth knowing; fails no run unless asked to. -/
  | info
  /-- To be looked at. -/
  | warning
  /-- To be mended. -/
  | error
deriving DecidableEq, Repr, Inhabited

namespace Severity

/-- The place of a severity in the order. -/
def rank : Severity → Nat
  | info => 0
  | warning => 1
  | error => 2

instance : LE Severity := ⟨fun a b => a.rank ≤ b.rank⟩

instance (a b : Severity) : Decidable (a ≤ b) :=
  inferInstanceAs (Decidable (a.rank ≤ b.rank))

/-- The order of severities. -/
def compare (a b : Severity) : Ordering :=
  Ord.compare a.rank b.rank

/-- The name of a severity. -/
def name : Severity → String
  | info => "info"
  | warning => "warning"
  | error => "error"

/-- The severity of a name, spelled as it is. -/
def ofName? (text : String) : Option Severity :=
  [info, warning, error].find? fun s => s.name == text

/-- A text with its ASCII capitals made small. -/
def lower (text : String) : String :=
  String.ofList (text.toList.map Char.toLower)

/-- **Read a severity**, whatever the case of its ASCII letters. -/
def parse (text : String) : Except String Severity :=
  match ofName? (lower text) with
  | some severity => .ok severity
  | none => .error ("unknown severity: " ++ lower text)

@[simp] theorem ofName?_name (s : Severity) : ofName? s.name = some s := by
  cases s <;> decide

end Severity
end SwiftStyle
