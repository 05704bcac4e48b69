import SwiftStyle.Rule.Basic

/-!
# Shorthand for collection types

The types of arrays and dictionaries are written in their short form. A
long form is found behind a colon, white space or a closing angle
bracket, which belongs to the match and stays where it is. Array types
are corrected first and then, in the text that this leaves, dictionary
types.
-/

namespace SwiftStyle.CollectionShorthand

/-- What is known about the rule. -/
def description : RuleDescription where
  identifier := "collection_shorthand_syntax"
  name := "Collection Shorthand Syntax"
  description :=
    "Prefer shorthand syntax for collections instead of the Generic syntax"
  nonTriggering :=
    ["var ints: [Int] = [1, 2, 3]", "let ints: [Int] = [1, 2, 3]",
     "func getInts() -> [Int] \x7b return [1] \x7d",
     "var ints: [String: Int] = [\"a\": 1, \"b\": 2, \"c\": 3]",
     "let ints: [Int:Int] = [1: 1, 2:2, 3:3]",
     "let ints:[Int:Int] = [1: 1, 2:2, 3:3]",
     "func getInts() ->[String: String] \x7b return [1] \x7d",
     "let s = \"Array<Int>\"", "// Dictionary<String, Int>"]
  triggering :=
    ["var ints: Array<Int> = [1, 2, 3]",
     "let ints: Array<Int> = [1, 2, 3]",
     "let ints:Array<Int> = [1, 2, 3]",
     "func getInts() -> Array<Int> \x7b return [1] \x7d",
     "var ints: Dictionary<String, Int> = " ++
       "[\"a\": 1, \"b\": 2, \"c\": 3]",
     "let ints: Dictionary<Int,Int> = [1: 1, 2:2, 3:3]",
     "let ints:Dictionary<Int,Int> = [1: 1, 2:2, 3:3]",
     "func getInts() -> Dictionary<String, String> \x7b return [1] \x7d",
     "func getInts()->Dictionary<String, String> \x7b return [1] \x7d"]
  corrections :=
    [("var ints: Array<Int> = [1, 2, 3]", "var ints: [Int] = [1, 2, 3]"),
     ("let ints:Array< Int > = []", "let ints:[Int] = []"),
     ("let ints: Dictionary<Int,Int> = [:]", "let ints: [Int: Int] = [:]"),
     ("func getInts()->Dictionary<String, String> \x7b return [:] \x7d",
      "func getInts()->[String: String] \x7b return [:] \x7d")]

/-- What stands before the long form of a type. -/
def before : Pattern :=
  .group 1 none (.oneOf (.char ':') [.someBlanks, .char '>'])

/-- The long form of an array type. -/
def arrayPattern : Pattern :=
  .inOrder
    [before, .text "Array<", .blanks, .group 2 none (.many Text.isWord),
     .blanks, .char '>']

/-- The long form of a dictionary type. -/
def dictionaryPattern : Pattern :=
  .inOrder
    [before, .text "Dictionary<", .blanks, .group 2 none .word, .blanks,
     .char ',', .blanks, .group 3 none .word, .blanks, .char '>']

/-- Whether a match does not begin with a string or a comment. -/
def keeps (m : SourceMatch) : Bool :=
  m.startsAsCode

/-- The correction of array types. -/
def arraySubstitution : Substitution where
  pattern := arrayPattern
  template := .ofString "$1[$2]"
  keep := keeps

/-- The correction of dictionary types. -/
def dictionarySubstitution : Substitution where
  pattern := dictionaryPattern
  template := .ofString "$1[$2: $3]"
  keep := keeps

/-- The corrections, in the order in which they are made. -/
def substitutions : List Substitution :=
  [arraySubstitution, dictionarySubstitution]

/-- The matches of both long forms outside strings and comments. -/
def found (file : SourceFile) : List SourceMatch :=
  substitutions.flatMap fun s => (file.matchesOf s.pattern).filter keeps

/-- The violations in a file, in the order of their places. -/
def validate (file : SourceFile) : List Violation :=
  ((found file).map fun m =>
    description.violationAt file m.span.start).mergeSort fun v w =>
      decide (v.location.offset ≤ w.location.offset)

/-- The corrections of a file. -/
def correct : SourceFile → Disk → Attempt (List Correction) :=
  Substitution.applyAll description substitutions

/-- **The rule.** -/
def rule : Rule where
  description := description
  validate := validate
  correct? := some correct

end SwiftStyle.CollectionShorthand
