import FlagSidecar.Json.Fields
import FlagSidecar.Settings.Config

/-!
# FlagSidecar.Settings.Json: settings as JSON

All settings are written, those that were not given with their defaults.
-/

namespace FlagSidecar

open Json (Value)

/-- A size or a time. -/
def Json.Value.ofUInt64 (n : UInt64) : Value := .number (.integer n.toNat)

def LinkSettings.toJson (s : LinkSettings) : Value :=
  .object [("socket_path", .text s.socketPath), ("flavor", .text s.flavor.name),
    ("serialization", .text s.serialization), ("max_connections", .ofUInt64 s.maxConnections),
    ("accept_timeout_ms", .ofUInt64 s.acceptTimeoutMs),
    ("read_timeout_ms", .ofUInt64 s.readTimeoutMs),
    ("write_timeout_ms", .ofUInt64 s.writeTimeoutMs), ("buffer_size", .ofUInt64 s.bufferSize),
    ("shutdown_grace_secs", .ofUInt64 s.shutdownGraceSecs)]

def SdkSettings.toJson (s : SdkSettings) : Value :=
  .object [("rules_file", Value.orNull .text s.rulesFile),
    ("impressions_queue_size", .ofUInt64 s.impressionsQueueSize),
    ("impressions_refresh_secs", .ofUInt64 s.impressionsRefreshSecs),
    ("events_queue_size", .ofUInt64 s.eventsQueueSize),
    ("events_refresh_secs", .ofUInt64 s.eventsRefreshSecs)]

def RecorderSettings.toJson (s : RecorderSettings) : Value :=
  .object [("url", Value.orNull (fun u => .text u.text) s.url), ("api_key", .text s.apiKey),
    ("timeout_ms", .ofUInt64 s.timeoutMs)]

def LoggingSettings.toJson (s : LoggingSettings) : Value := .object [("level", .text s.level)]

def Config.toJson (c : Config) : Value :=
  .object [("link", c.link.toJson), ("sdk", c.sdk.toJson), ("recorder", c.recorder.toJson),
    ("logging", c.logging.toJson)]

end FlagSidecar
