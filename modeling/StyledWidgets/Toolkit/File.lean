/-
Module: StyledWidgets.Toolkit.File
Purpose: Text files as they are found: missing, no file at all, under a path that cannot be, or
  bytes that may not be text.
Main exports: FileError, FileError.message, decodeText
-/

namespace StyledWidgets

/-- Why a file could not be read as text. -/
inductive FileError where
  | missing
  | isDirectory
  /-- A part of the path that should be a directory is a file. -/
  | notDirectory
  /-- A name in the path, or all of the path, has too many bytes. -/
  | nameTooLong
  | nulInPath
  | notText
  deriving Repr, DecidableEq, Inhabited

/-- The wording of a failure. -/
def FileError.message : FileError → String
  | .missing => "No such file or directory (os error 2)"
  | .isDirectory => "Is a directory (os error 21)"
  | .notDirectory => "Not a directory (os error 20)"
  | .nameTooLong => "File name too long (os error 36)"
  | .nulInPath => "file name contained an unexpected NUL byte"
  | .notText => "stream did not contain valid UTF-8"

/-- The text that bytes encode in UTF-8. -/
def decodeText (bytes : ByteArray) : Except FileError String :=
  match String.fromUTF8? bytes with
  | some text => .ok text
  | none => .error .notText

end StyledWidgets
