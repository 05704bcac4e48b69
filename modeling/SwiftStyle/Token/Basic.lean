/-!
# Tokens

A token is a stretch of source text with a syntactic kind. Text of no
kind – blanks, punctuation, operators – belongs to no token, so the
tokens of a text leave gaps. A list of tokens that may classify a text
(`Token.Classifies`) is ordered, without overlaps, and its tokens are not
empty, lie within the text and begin and end between characters.
-/

namespace SwiftStyle

/-- **A stretch of text**, by the byte offsets of its first byte and of
the byte after its last. Nothing keeps `start` below `stop`: a caller
may ask about a stretch that is empty or reversed. -/
structure Span where
  /-- Offset of the first byte. -/
  start : Nat
  /-- Offset after the last byte. -/
  stop : Nat
deriving DecidableEq, Repr, Inhabited

/-- Whether two stretches share a byte. For the purpose of this question
a stretch of no bytes overlaps one that has bytes on both its sides. -/
def Span.overlaps (s t : Span) : Bool :=
  decide (s.start < t.stop) && decide (t.start < s.stop)

/-- A stretch moved to the right. -/
def Span.shift (s : Span) (distance : Nat) : Span :=
  ⟨s.start + distance, s.stop + distance⟩

/-- **The syntactic kinds of tokens.** -/
inductive Token.Kind where
  /-- A reserved word. -/
  | keyword
  /-- A name, or anything between backquotes. -/
  | identifier
  /-- A numeric literal. -/
  | number
  /-- A string literal. -/
  | string
  /-- A line comment or a block comment. -/
  | comment
  /-- An attribute: an at sign and a name. -/
  | attribute
deriving DecidableEq, Repr, Inhabited

/-- Whether text of this kind is not code: strings and comments. -/
def Token.Kind.isLiteralText : Token.Kind → Bool
  | .string | .comment => true
  | _ => false

/-- **A token**: a stretch of text and its kind. -/
structure Token where
  /-- Where the token stands. -/
  span : Span
  /-- What it is. -/
  kind : Token.Kind
deriving DecidableEq, Repr, Inhabited

/-- Whether a token shares a byte with a stretch. -/
def Token.overlaps (t : Token) (s : Span) : Bool :=
  t.span.overlaps s

/-- A token moved to the right. -/
def Token.shift (t : Token) (distance : Nat) : Token :=
  ⟨t.span.shift distance, t.kind⟩

/-- The reserved words. -/
def Token.reserved : List String :=
  ["as", "associatedtype", "break", "case", "catch", "class", "continue",
   "default", "defer", "deinit", "do", "else", "enum", "extension",
   "fallthrough", "false", "fileprivate", "for", "func", "guard", "if",
   "import", "in", "init", "inout", "internal", "is", "let", "nil",
   "open", "operator", "private", "protocol", "public", "repeat",
   "rethrows", "return", "self", "Self", "static", "struct",
   "subscript", "super", "switch", "throw", "throws", "true", "try",
   "typealias", "var", "where", "while"]

/-- Whether a text is a reserved word. -/
def Token.isReserved (text : List Char) : Bool :=
  Token.reserved.any fun word => word.toList == text

end SwiftStyle
