import SwiftStyle.Pattern.Basic

/-!
# Sample patterns

A few patterns, by name, that show groups, edges, choices and empty
occurrences.
-/

namespace SwiftStyle.Sample

/-- A space or a tab. -/
def isSpaceOrTab (c : Char) : Bool :=
  c == ' ' || c == '\t'

/-- A semicolon at the end of a line. -/
def trailingSemicolon : Pattern :=
  .inOrder [.char ';', .many isSpaceOrTab, .char '\n']

/-- The sample patterns. -/
def patterns : List (String × Pattern) :=
  [("brace_keyword",
    .inOrder
      [.char '\x7d', .someBlanks,
       .group 1 none (.oneOf (.text "else") [.text "catch"]), .wordEdge]),
   ("pair_ab", .seq (.group 1 none (.char 'a')) (.group 2 none (.char 'b'))),
   ("assign",
    .inOrder
      [.group 1 none (.one Text.isWord), .oneOrMore (· == ' '),
       .char '=']),
   ("trailing_space",
    .inOrder
      [.group 1 none (.one fun c => !Text.isBlank c),
       .oneOrMore (· == ' '), .char '\n']),
   ("trailing_semicolon", trailingSemicolon),
   ("word", .word),
   ("key_value",
    .inOrder
      [.group 1 (some "key") .word, .blanks, .char ':', .blanks,
       .group 2 (some "val") .word]),
   ("optional",
    .seq (.optional (.group 1 none (.char 'x'))) (.group 2 none (.char 'y'))),
   ("star", .many (· == 'x')),
   ("quote", .char '"')]

/-- The sample pattern of a name. -/
def pattern? (name : String) : Option Pattern :=
  (patterns.find? fun entry => entry.1 == name).map (·.2)

end SwiftStyle.Sample
