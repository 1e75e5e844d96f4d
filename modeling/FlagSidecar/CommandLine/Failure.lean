import FlagSidecar.CommandLine.Grammar
import FlagSidecar.Service.Daemon

/-!
# FlagSidecar.CommandLine.Failure: how a program ends

A program does what it was asked to do, fails at one of its steps, or was not understood. A failure is
told by the step and, below it, by its causes, each of which explains the one above.
-/

namespace FlagSidecar.CommandLine

/-- The step at which a program failed, and why. -/
inductive Failure where
  | configuration (e : LoadError)
  | linkSettings (e : LoadError)
  | connection (e : LinkError)
  /-- The JSON text of an argument is no map of attributes. -/
  | attributes (argument : String)
  | call (name : String) (e : LinkError)
  | initialisation (e : LoadError)
  | service (e : DaemonError)
deriving DecidableEq

namespace Failure

/-- The step in words. -/
def summary : Failure → String
  | configuration _ => "Failed to load configuration"
  | linkSettings _ => "Invalid link settings"
  | connection _ => "Failed to connect to splitd"
  | attributes argument => argument ++ " must be a JSON object of scalars or string lists"
  | call name _ => name ++ " call failed"
  | initialisation _ => "Failed to initialise daemon"
  | service _ => "splitd terminated with an error"

/-- A failure of the link, and below it that of the system if there was one. -/
def linkCauses (e : LinkError) : List String :=
  e.message :: match e with
    | .io _ e => [e.message]
    | .framing (.io e) => [e.message]
    | _ => []

/-- The causes, each of which explains the one above. -/
def causes : Failure → List String
  | configuration e | linkSettings e | initialisation e => [e.message]
  | connection e | call _ e | service (.link e) => linkCauses e
  | service (.settings e) => [e.message]
  | attributes _ => ["not a JSON object of scalars or string lists"]

/-- What is written of a failure; several causes are numbered. -/
def text (f : Failure) : String :=
  let causes := match f.causes with
    | [cause] => ["    " ++ cause]
    | causes => causes.mapIdx fun i cause => "    " ++ toString i ++ ": " ++ cause
  String.intercalate "\n" (["Error: " ++ f.summary, "", "Caused by:"] ++ causes) ++ "\n"

end Failure

/-- How a program ends. -/
inductive Exit where
  /-- It has written what was asked for. -/
  | done (text : String)
  | failed (f : Failure)
  /-- Its arguments mean nothing. -/
  | usage
deriving DecidableEq

/-- The number that a program ends with. -/
def Exit.code : Exit → Nat
  | done _ => 0
  | failed _ => 1
  | usage => 2

/-- The end of a program that was asked for help or for its version, or was not understood. -/
def Exit.ofStop (help version : String) : Stop → Exit
  | .usage => usage
  | .help => done help
  | .version => done version

/-- The number of the version, which both programs share. -/
def versionNumber : String := "0.1.0"

end FlagSidecar.CommandLine
