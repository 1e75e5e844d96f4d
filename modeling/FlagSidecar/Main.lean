import FlagSidecar.CommandLine.Ask
import FlagSidecar.CommandLine.Serve
import Std.Time.DateTime.Timestamp

/-!
# FlagSidecar.Main: the two programs

`serve` serves one connection on standard input and standard output, from the settings that it finds.
Anything else asks a daemon of the same settings, which is held in memory for the time of the call.
Files, the environment, the clock and the standard streams are looked at here and nowhere else.
-/

namespace FlagSidecar

/-- What a path names on this machine. -/
def fileContent (path : String) : IO FileContent := do
  try
    return .octets (← IO.FS.readBinFile path).toList
  catch
    | .noFileOrDirectory .. => return .nothing
    | _ => return .directory

/-- The files that settings lead to: their own file, and that of the rules. -/
def filesFor (settings : Option String) : IO Files := do
  match settings with
  | none => return fun _ => .nothing
  | some path =>
    let content ← fileContent path
    let only (path : String) (content : FileContent) (others : Files) : Files :=
      fun p => if p = path then content else others p
    let files := only path content fun _ => .nothing
    match (Config.ofFile files path).toOption.bind (·.sdk.rulesFile) with
    | none => return files
    | some rules => return only rules (← fileContent rules) files

/-- The value of a variable of the environment that names the settings. -/
def settingsVariable : String := "SPLITD_CONF_FILE"

/-- The path that arguments give to the option of the settings, whatever else they say. -/
def settingsOption : List String → Option String
  | "-c" :: path :: _ | "--config" :: path :: _ => some path
  | arg :: rest =>
    if arg.startsWith "--config=" then some (arg.drop 9).toString else settingsOption rest
  | [] => none

/-- Nobody answers uploads. -/
def noServer : HttpRequest → HttpReply := fun _ => .failure "no network"

/-- Every path is free. -/
def freePath (text : String) : SocketPath := { text }

/-- Writes what a program has to say at its end. -/
def finish (e : CommandLine.Exit) : IO UInt32 := do
  match e with
  | .done text => IO.print text
  | .failed f => IO.eprint f.text
  | .usage => IO.eprint "error: see --help\n"
  return e.code.toUInt32

/-- What the clock of this machine shows, in milliseconds since 1970. -/
def wallClock : IO Int64 := do
  return .ofInt (← Std.Time.Timestamp.now).toMillisecondsSinceUnixEpoch.toInt

/-- Passes octets on until the input ends or the connection does. -/
partial def pump (input output : IO.FS.Stream) (id : ConnectionId) (d : Daemon) : IO Daemon := do
  let octets := (← input.read 65536).toList
  let name := Endpoint.key id
  let time ← wallClock
  let e := d.endpoint.onServer fun s =>
    if octets.isEmpty then s.hangUp name else { s with time }.deliver name octets
  output.write (ByteArray.mk (Pipe.remaining (e.inflow id)).toArray)
  output.flush
  let e := { e with server := e.server.update name (·.mapLink fun link => link.peerRead.2) }
  let d := { d with endpoint := e }
  if e.isServed id then pump input output id d else return d

/-- The program that serves. -/
def runServer (args : List String) : IO UInt32 := do
  let environment ← IO.getEnv settingsVariable
  let files ← filesFor (Config.path? (settingsOption args) environment)
  match CommandLine.serve args ⟨files, environment, noServer, freePath⟩ with
  | .error e => finish e
  | .ok d =>
    match d.endpoint.knock (d.endpoint.place.flavorOf? d.endpoint.listener |>.getD .stream) with
    | (.admitted id, endpoint) =>
      let d ← pump (← IO.getStdin) (← IO.getStdout) id { d with endpoint }
      let report := d.finish.report
      IO.eprintln (toString report.impressions.queued ++ " impressions, " ++
        toString report.events.queued ++ " events")
      return 0
    | _ => return 1

/-- The program that asks. -/
def runClient (args : List String) : IO UInt32 := do
  let environment ← IO.getEnv settingsVariable
  let settings := Config.path? (settingsOption args) environment
  let files ← filesFor settings
  let daemonArgs := settings.toList.flatMap fun path => ["--config=" ++ path]
  let daemon := CommandLine.serve daemonArgs ⟨files, environment, noServer, freePath⟩
  let endpoint := daemon.toOption.elim .deserted (·.endpoint)
  let time ← wallClock
  let endpoint := { endpoint with server := { endpoint.server with time } }
  finish (CommandLine.ask args files environment time endpoint).1

end FlagSidecar

def main (args : List String) : IO UInt32 :=
  match args with
  | "serve" :: rest => FlagSidecar.runServer rest
  | args => FlagSidecar.runClient args
