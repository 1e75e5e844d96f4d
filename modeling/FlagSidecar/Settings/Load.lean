import FlagSidecar.Settings.Config
import FlagSidecar.Settings.File
import FlagSidecar.Text.Blank
import FlagSidecar.Url.Parser
import FlagSidecar.Yaml.Fields

/-!
# FlagSidecar.Settings.Load: where settings come from

Settings are the text of one file, which is named explicitly or by the environment. Without a file, and
also with a blank one, they are the defaults.
-/

namespace FlagSidecar

open Yaml (Node)

/-- A kind of socket by its name. -/
def SocketFlavor.ofYaml? (n : Node) : Option SocketFlavor := n.name? >>= SocketFlavor.ofName?

/-- A URL in the text of a scalar. -/
def Url.ofYaml? (n : Node) : Option Url := n.text? >>= Url.ofText?

def LinkSettings.ofYaml? (n : Node) : Option LinkSettings := do
  let f ← n.fields? ["socket_path", "flavor", "serialization", "max_connections",
    "accept_timeout_ms", "read_timeout_ms", "write_timeout_ms", "buffer_size",
    "shutdown_grace_secs"]
  let d : LinkSettings := {}
  some {
    socketPath := ← f.withDefault "socket_path" Node.text? d.socketPath
    flavor := ← f.withDefault "flavor" SocketFlavor.ofYaml? d.flavor
    serialization := ← f.withDefault "serialization" Node.text? d.serialization
    maxConnections := ← f.withDefault "max_connections" Node.uint64? d.maxConnections
    acceptTimeoutMs := ← f.withDefault "accept_timeout_ms" Node.uint64? d.acceptTimeoutMs
    readTimeoutMs := ← f.withDefault "read_timeout_ms" Node.uint64? d.readTimeoutMs
    writeTimeoutMs := ← f.withDefault "write_timeout_ms" Node.uint64? d.writeTimeoutMs
    bufferSize := ← f.withDefault "buffer_size" Node.uint64? d.bufferSize
    shutdownGraceSecs := ← f.withDefault "shutdown_grace_secs" Node.uint64? d.shutdownGraceSecs }

def SdkSettings.ofYaml? (n : Node) : Option SdkSettings := do
  let f ← n.fields? ["rules_file", "impressions_queue_size", "impressions_refresh_secs",
    "events_queue_size", "events_refresh_secs"]
  let d : SdkSettings := {}
  some {
    rulesFile := ← f.withDefault "rules_file" (Node.option? Node.text?) d.rulesFile
    impressionsQueueSize :=
      ← f.withDefault "impressions_queue_size" Node.uint64? d.impressionsQueueSize
    impressionsRefreshSecs :=
      ← f.withDefault "impressions_refresh_secs" Node.uint64? d.impressionsRefreshSecs
    eventsQueueSize := ← f.withDefault "events_queue_size" Node.uint64? d.eventsQueueSize
    eventsRefreshSecs := ← f.withDefault "events_refresh_secs" Node.uint64? d.eventsRefreshSecs }

def RecorderSettings.ofYaml? (n : Node) : Option RecorderSettings := do
  let f ← n.fields? ["url", "api_key", "timeout_ms"]
  let d : RecorderSettings := {}
  some {
    url := ← f.withDefault "url" (Node.option? Url.ofYaml?) d.url
    apiKey := ← f.withDefault "api_key" Node.text? d.apiKey
    timeoutMs := ← f.withDefault "timeout_ms" Node.uint64? d.timeoutMs }

def LoggingSettings.ofYaml? (n : Node) : Option LoggingSettings := do
  let f ← n.fields? ["level"]
  let d : LoggingSettings := {}
  some { level := ← f.withDefault "level" Node.text? d.level }

namespace Config

def ofNode? (n : Node) : Option Config := do
  let f ← n.fields? ["link", "sdk", "recorder", "logging"]
  some {
    link := ← f.withDefault "link" LinkSettings.ofYaml? {}
    sdk := ← f.withDefault "sdk" SdkSettings.ofYaml? {}
    recorder := ← f.withDefault "recorder" RecorderSettings.ofYaml? {}
    logging := ← f.withDefault "logging" LoggingSettings.ofYaml? {} }

/-- The settings that text gives, whether they can be run with or not. -/
def ofYaml (text : String) : Except LoadError Config :=
  if text.toList.all isBlank then .ok {}
  else
    match Node.ofText? text >>= ofNode? with
    | some c => .ok c
    | none => .error (.malformed "not a set of settings")

/-- The path of the settings: an explicit one counts more than the environment, in which an empty
value counts as none. -/
def path? (explicit environment : Option String) : Option String :=
  match explicit with
  | some path => some path
  | none => environment.filter (!·.isEmpty)

/-- Settings that can be run with, from the file under a path. -/
def ofFile (files : Files) (path : String) : Except LoadError Config := do
  let c ← ofYaml (← files.text path)
  c.validate
  return c

/-- Settings that can be run with, from wherever they are. -/
def load (files : Files) (explicit environment : Option String) : Except LoadError Config :=
  match path? explicit environment with
  | some path => ofFile files path
  | none => do
    let c : Config := {}
    c.validate
    return c

end Config

end FlagSidecar
