import SwiftStyle.Rule.Basic

/-!
# The position of statements

An `else` or a `catch` stands on the line of the closing brace before it,
one space behind the brace. A gap of another sort is violated at the
keyword, and corrected to one space. Both are asked for only where the
keyword is one: nothing happens inside strings and comments.
-/

namespace SwiftStyle.StatementPosition

/-- What is known about the rule. -/
def description : RuleDescription where
  identifier := "statement_position"
  name := "Statement Position"
  description :=
    "Else and catch should be on the same line, one space after the " ++
      "previous declaration."
  nonTriggering :=
    ["\x7d else if \x7b", "\x7d else \x7b", "\x7d catch \x7b",
     "\"\x7delse\x7b\"",
     "struct A \x7b let catchphrase: Int \x7d\n" ++
       "let a = A(\n catchphrase: 0\n)",
     "struct A \x7b let \x60catch\x60: Int \x7d\n" ++
       "let a = A(\n \x60catch\x60: 0\n)"]
  triggering :=
    ["\x7delse if \x7b", "\x7d  else \x7b", "\x7d\ncatch \x7b",
     "\x7d\n\t  catch \x7b"]
  corrections :=
    [("\x7d\n else \x7b\n", "\x7d else \x7b\n"),
     ("\x7d\n   else if \x7b\n", "\x7d else if \x7b\n"),
     ("\x7d\n catch \x7b\n", "\x7d catch \x7b\n"),
     ("\x7d  else \x7b\n", "\x7d else \x7b\n"),
     ("\x7delse if \x7b\n", "\x7d else if \x7b\n")]

/-- A space, a tab or a carriage return. -/
def isInline (c : Char) : Bool :=
  c == ' ' || c == '\t' || c == '\r'

/-- A tab or a carriage return. -/
def isOdd (c : Char) : Bool :=
  c == '\t' || c == '\r'

/-- White space between a brace and a keyword that is not one space and
not nothing. -/
def gap : Pattern :=
  .oneOf (.seq (.one isInline) (.oneOrMore isInline))
    [.one isOdd, .inOrder [.blanks, .char '\n', .blanks]]

/-- A closing brace and one of the keywords, with anything but one space
between them. -/
def pattern : Pattern :=
  .inOrder
    [.char '\x7d', .optional gap, .wordEdge,
     .group 1 none (.oneOf (.text "else") [.text "catch"]), .wordEdge]

/-- Whether a match begins with a keyword: the brace is no token. -/
def keeps (m : SourceMatch) : Bool :=
  m.startsWith .keyword

/-- The correction: one space. -/
def substitution : Substitution where
  pattern := pattern
  template := .ofString "\x7d $1"
  keep := keeps

/-- The violations in a file. -/
def validate (file : SourceFile) : List Violation :=
  ((file.matchesOf pattern).filter keeps).filterMap fun m =>
    (m.firstOf? .keyword).map fun keyword =>
      description.violationAt file keyword.span.start

/-- The corrections of a file. -/
def correct : SourceFile → Disk → Attempt (List Correction) :=
  Substitution.applyAll description [substitution]

/-- **The rule.** -/
def rule : Rule where
  description := description
  validate := validate
  correct? := some correct

end SwiftStyle.StatementPosition
