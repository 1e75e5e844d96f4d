/-!
# FlagSidecar.Settings.LoadError: why a file of settings or flags is of no use

A file may be out of reach, its text may mean nothing, or its meaning may be out of bounds.
-/

namespace FlagSidecar

/-- Why settings or flags could not be loaded. -/
inductive LoadError where
  | unreadable (path reason : String)
  | malformed (reason : String)
  | invalid (reason : String)
deriving DecidableEq

/-- A short name of the cause. -/
def LoadError.name : LoadError → String
  | unreadable .. => "FileReadFailed"
  | malformed _ => "YamlParseFailed"
  | invalid _ => "InvalidConfig"

def LoadError.message : LoadError → String
  | unreadable path reason => "failed to read file '" ++ path ++ "': " ++ reason
  | malformed reason => "YAML parse error: " ++ reason
  | invalid reason => "invalid configuration: " ++ reason

end FlagSidecar
