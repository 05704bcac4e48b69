import SwiftStyle.Disk.Saving
import SwiftStyle.Source.Position
import SwiftStyle.Token.Tokenizer

/-!
# Source files

A **source file** is a text that rules look at and correct: its path, if
it has one, its contents, the tokens its tokenizer finds in them and the
offsets at which their lines begin. Characters, tokens and line starts
are kept beside the contents and always belong to them: that is part of
the type, so no sequence of changes can leave them behind.

A file with a path is saved when new contents are written to it. The
contents change in memory whether or not the save succeeds.
-/

namespace SwiftStyle

/-- **A source file.** -/
structure SourceFile where
  /-- Where the file lives, if it is not only in memory. -/
  path : Option Path
  /-- The text. -/
  contents : String
  /-- The characters of the text. -/
  text : List Char
  /-- What classifies the text. -/
  tokenizer : Tokenizer
  /-- The tokens of the text. -/
  tokens : List Token
  /-- The offsets at which the lines of the text begin. -/
  starts : List Nat
  /-- The characters are those of the text. -/
  text_eq : text = contents.toList
  /-- The tokens are those of the text. -/
  tokens_eq : tokens = tokenizer.tokenize contents
  /-- The line starts are those of the text. -/
  starts_eq : starts = lineStarts text

/-- **Why a source file could not be read or written.** -/
inductive SourceError where
  /-- The file at a path could not be read. -/
  | read (path : Path) (cause : IoError)
  /-- The text could not be saved to a path. -/
  | write (path : Path) (cause : IoError)
deriving DecidableEq, Repr

/-- The wording. -/
def SourceError.message : SourceError → String
  | read path cause =>
    "Failed to read " ++ path.text ++ ": " ++ cause.message
  | write path cause =>
    "Failed to write " ++ path.text ++ ": " ++ cause.message

namespace SourceFile

/-- A source file of given parts, with its text classified. -/
def build (path : Option Path) (tokenizer : Tokenizer)
    (contents : String) : SourceFile where
  path
  contents
  text := contents.toList
  tokenizer
  tokens := tokenizer.tokenize contents
  starts := lineStarts contents.toList
  text_eq := rfl
  tokens_eq := rfl
  starts_eq := rfl

/-- **A source file that exists in memory only.** -/
def ofContents (contents : String) : SourceFile :=
  build none .basic contents

/-- The file at another path. -/
def withPath (file : SourceFile) (path : Path) : SourceFile :=
  { file with path := some path }

/-- The file with its text classified by another tokenizer. -/
def withTokenizer (file : SourceFile) (tokenizer : Tokenizer) :
    SourceFile :=
  build file.path tokenizer file.contents

/-- The file with other contents in memory. -/
def setContents (file : SourceFile) (contents : String) : SourceFile :=
  build file.path file.tokenizer contents

/-- **The source file at a path.** -/
def read (disk : Disk) (path : Path) : Except SourceError SourceFile :=
  match disk.read path with
  | .ok contents => .ok ((ofContents contents).withPath path)
  | .error cause => .error (.read path cause)

/-- **Change the contents of a file and save them** if it has a path.
The answer is the changed file, how the save went, and the disk after
it. -/
def write (file : SourceFile) (disk : Disk) (contents : String) :
    SourceFile × Except SourceError Unit × Disk :=
  let changed := file.setContents contents
  match file.path with
  | none => (changed, .ok (), disk)
  | some path =>
    match disk.save path contents with
    | (.ok (), disk) => (changed, .ok (), disk)
    | (.error cause, disk) => (changed, .error (.write path cause), disk)

/-- To write contents changes the file as to set them does, however the
save goes. -/
theorem write_fst (file : SourceFile) (disk : Disk) (contents : String) :
    (file.write disk contents).1 = file.setContents contents := by
  unfold write
  dsimp only
  split
  · rfl
  · split <;> rfl

/-- The number of bytes of the contents. -/
def size (file : SourceFile) : Nat :=
  file.contents.utf8ByteSize

/-- **The tokens that share a byte with a stretch.** The tokens before
the stretch are passed over, and those that overlap it follow. -/
def tokensIn (file : SourceFile) (span : Span) : List Token :=
  (file.tokens.dropWhile fun t => decide (t.span.stop ≤ span.start)).takeWhile
    fun t => t.overlaps span

/-- **The line and column of an offset.** -/
def positionAt (file : SourceFile) (offset : Nat) : Position :=
  SwiftStyle.positionAt file.text file.starts offset

/-- **The lines of the contents.** -/
def lines (file : SourceFile) : List Line :=
  linesOf file.text file.starts

/-- A short description: the path, the size and the number of tokens. -/
def describe (file : SourceFile) : String :=
  let path :=
    match file.path with
    | some path => "Some(" ++ Text.quote path.text ++ ")"
    | none => "None"
  "SourceFile \x7b path: " ++ path ++ ", len: " ++ toString file.size ++
    ", tokens: " ++ toString file.tokens.length ++ ", .. \x7d"

end SourceFile
end SwiftStyle
