import FlagSidecar.Bytes
import FlagSidecar.Link.Error
import FlagSidecar.Settings.LoadError

/-!
# FlagSidecar.Settings.File: what is found under a path

A path names a file with its content, a directory, or nothing. Only a file whose content is UTF-8 can be
read as text.
-/

namespace FlagSidecar

/-- What a path names. -/
inductive FileContent where
  | nothing
  | directory
  | octets (content : Bytes)
deriving DecidableEq

/-- What each path names. -/
abbrev Files := String → FileContent

/-- The text of the file under a path. -/
def Files.text (files : Files) (path : String) : Except LoadError String :=
  match files path with
  | .nothing => .error (.unreadable path IoError.notFound.message)
  | .directory => .error (.unreadable path IoError.isADirectory.message)
  | .octets content =>
    match Bytes.text? content with
    | some text => .ok text
    | none => .error (.unreadable path IoError.invalidData.message)

end FlagSidecar
