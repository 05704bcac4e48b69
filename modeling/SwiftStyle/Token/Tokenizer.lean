import SwiftStyle.Text.Utf8
import SwiftStyle.Token.Lexeme

/-!
# Tokenizers

A **tokenizer** classifies a text into tokens. `Tokenizer.basic` is the
lexical classifier of this library: its tokens are the lexemes that have
a kind, at the offsets at which they stand. Other tokenizers may take
its place in a source file, provided that what they answer classifies
the text (`Tokenizer.Lawful`).
-/

namespace SwiftStyle

/-- The tokens among lexemes of which the first begins at an offset. -/
def Lexeme.tokens : (start : Nat) → List Lexeme → List Token
  | _, [] => []
  | start, lexeme :: rest =>
    let stop := start + Text.size lexeme.text
    match lexeme.kind with
    | some kind => ⟨⟨start, stop⟩, kind⟩ :: Lexeme.tokens stop rest
    | none => Lexeme.tokens stop rest

/-- The tokens of a text. -/
def tokenize (text : List Char) : List Token :=
  Lexeme.tokens 0 (lexemes text)

/-- **When tokens classify a text**: they are in order and do not
overlap, and each is a non-empty part of the text that begins and ends
between characters. -/
structure Token.Classifies (text : List Char) (tokens : List Token) :
    Prop where
  /-- Each token ends where the next begins, or before. -/
  ordered : tokens.Pairwise fun t u => t.span.stop ≤ u.span.start
  /-- No token is empty. -/
  nonempty : ∀ t ∈ tokens, t.span.start < t.span.stop
  /-- Each token is a part of the text. -/
  bounded : ∀ t ∈ tokens,
    (Text.slice? t.span.start t.span.stop text).isSome

/-- **A classifier of source text.** -/
structure Tokenizer where
  /-- The tokens of a text. -/
  tokenize : String → List Token

/-- A tokenizer whose answers classify every text. -/
def Tokenizer.Lawful (t : Tokenizer) : Prop :=
  ∀ text, Token.Classifies text.toList (t.tokenize text)

/-- The lexical classifier. -/
def Tokenizer.basic : Tokenizer :=
  ⟨fun text => SwiftStyle.tokenize text.toList⟩

end SwiftStyle
