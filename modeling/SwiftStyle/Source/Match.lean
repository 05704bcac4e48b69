import SwiftStyle.Source.File

/-!
# Matches in a source file

A **match** is a stretch of a source file together with the tokens that
share a byte with it, which is what tells code apart from text that only
looks like code.
-/

namespace SwiftStyle

/-- **A stretch of a file and the tokens it touches**, in their order. -/
structure SourceMatch where
  /-- The stretch. -/
  span : Span
  /-- The tokens that share a byte with it. -/
  tokens : List Token
deriving DecidableEq, Repr

/-- The match of a stretch. -/
def SourceFile.matchAt (file : SourceFile) (span : Span) : SourceMatch :=
  ⟨span, file.tokensIn span⟩

namespace SourceMatch

/-- The kinds of the tokens. -/
def kinds (m : SourceMatch) : List Token.Kind :=
  m.tokens.map (·.kind)

/-- Whether there is a token and the first is of a kind. -/
def startsWith (m : SourceMatch) (kind : Token.Kind) : Bool :=
  m.tokens.head?.any fun t => t.kind == kind

/-- The first token of a kind. -/
def firstOf? (m : SourceMatch) (kind : Token.Kind) : Option Token :=
  m.tokens.find? fun t => t.kind == kind

/-- Whether the first token, if there is one, is code. -/
def startsAsCode (m : SourceMatch) : Bool :=
  m.tokens.head?.all fun t => !t.kind.isLiteralText

end SourceMatch
end SwiftStyle
