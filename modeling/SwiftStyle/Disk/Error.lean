import SwiftStyle.Path
import SwiftStyle.Text.Quoted

/-!
# Errors of the disk

What may go wrong when a file is read or replaced, as causes; the wording
is in `IoError.message`.

An error that is met while a temporary file is made names the path of that
file besides its cause (`IoError.located`).
-/

namespace SwiftStyle

/-- **Why a file could not be read or replaced.** -/
inductive IoError where
  /-- A name on the way does not exist. -/
  | notFound
  /-- A name on the way is a file. -/
  | notDirectory
  /-- A directory stands where a file is wanted. -/
  | isDirectory
  /-- The name stands for a directory that is in use as such. -/
  | busy
  /-- The disk refuses. -/
  | permissionDenied
  /-- The disk is full. -/
  | noSpace
  /-- A name, or a path as a whole, is too long. -/
  | nameTooLong
  /-- A name is none. -/
  | invalidArgument
  /-- The contents are not UTF-8. -/
  | notText
  /-- A name holds the NUL character. -/
  | nulInName
  /-- An error met at a path that the message names. -/
  | located (cause : IoError) (path : Path)
deriving DecidableEq, Repr, Inhabited

namespace IoError

/-- The wording of a system error with its number. -/
def system (text : String) (number : Nat) : String :=
  text ++ " (os error " ++ toString number ++ ")"

/-- The wording. -/
def message : IoError → String
  | notFound => system "No such file or directory" 2
  | notDirectory => system "Not a directory" 20
  | isDirectory => system "Is a directory" 21
  | busy => system "Device or resource busy" 16
  | permissionDenied => system "Permission denied" 13
  | noSpace => system "No space left on device" 28
  | nameTooLong => system "File name too long" 36
  | invalidArgument => system "Invalid argument" 22
  | notText => "stream did not contain valid UTF-8"
  | nulInName => "file name contained an unexpected NUL byte"
  | located cause path =>
    cause.message ++ " at path " ++ Text.quote path.text

end IoError
end SwiftStyle
