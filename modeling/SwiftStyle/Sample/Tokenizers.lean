import SwiftStyle.Token.Tokenizer

/-!
# Sample tokenizers

Tokenizers that take the place of the lexical one in a source file.
-/

namespace SwiftStyle.Sample

/-- The pieces of a text between line feeds; there is at least one. -/
def splitLines : List Char → List (List Char)
  | [] => [[]]
  | c :: rest =>
    if c = '\n' then [] :: splitLines rest
    else
      match splitLines rest with
      | [] => [[c]]
      | first :: others => (c :: first) :: others

/-- The pieces of a text between line feeds as comments, without empty
ones, from an offset on. -/
def lineTokens : (offset : Nat) → List (List Char) → List Token
  | _, [] => []
  | offset, piece :: rest =>
    let stop := offset + Text.size piece
    let later := lineTokens (stop + 1) rest
    if piece = [] then later else ⟨⟨offset, stop⟩, .comment⟩ :: later

/-- The tokenizer that finds nothing. -/
def noTokens : Tokenizer :=
  ⟨fun _ => []⟩

/-- The tokenizer that takes every line for a comment. -/
def lines : Tokenizer :=
  ⟨fun text => lineTokens 0 (splitLines text.toList)⟩

/-- The tokenizer of a name. -/
def tokenizer? (name : String) : Option Tokenizer :=
  (([("basic", .basic), ("none", noTokens), ("lines", lines)] :
    List (String × Tokenizer)).find? fun entry => entry.1 == name).map
      (·.2)

end SwiftStyle.Sample
