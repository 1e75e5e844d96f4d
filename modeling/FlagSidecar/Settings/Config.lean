import FlagSidecar.Link.Codec
import FlagSidecar.Link.Transport
import FlagSidecar.Settings.LoadError
import FlagSidecar.Url.Basic

/-!
# FlagSidecar.Settings.Config: the settings of the daemon and its clients

Every setting has a default, so no settings at all are good settings. `Config.validate` names the first
setting that cannot be run with. What the parts of the daemon are given is derived from the settings
here.
-/

namespace FlagSidecar

/-! ## Sections -/

/-- The local socket. -/
structure LinkSettings where
  socketPath : String := "/var/run/splitd.sock"
  flavor : SocketFlavor := .seqpacket
  serialization : String := Codec.cbor.name
  maxConnections : UInt64 := 1024
  acceptTimeoutMs : UInt64 := 1000
  readTimeoutMs : UInt64 := 1000
  writeTimeoutMs : UInt64 := 1000
  bufferSize : UInt64 := 1048576
  shutdownGraceSecs : UInt64 := 5
deriving DecidableEq

/-- Flags and queues. -/
structure SdkSettings where
  rulesFile : Option String := none
  impressionsQueueSize : UInt64 := 8192
  impressionsRefreshSecs : UInt64 := 30
  eventsQueueSize : UInt64 := 8192
  eventsRefreshSecs : UInt64 := 60
deriving DecidableEq

/-- Where records are uploaded to. -/
structure RecorderSettings where
  url : Option Url := none
  apiKey : String := ""
  timeoutMs : UInt64 := 10000
deriving DecidableEq

structure LoggingSettings where
  level : String := "info"
deriving DecidableEq

structure Config where
  link : LinkSettings := {}
  sdk : SdkSettings := {}
  recorder : RecorderSettings := {}
  logging : LoggingSettings := {}
deriving DecidableEq

/-! ## What is derived from settings -/

/-- What a listener is given. -/
structure AcceptorOptions where
  path : String
  flavor : SocketFlavor
  maxConnections : Nat
  acceptTimeout : Span
  shutdownGrace : Span
  transport : TransportOptions
deriving DecidableEq

/-- What a client is given. -/
structure ClientOptions where
  path : String
  flavor : SocketFlavor
  codec : Codec
  transport : TransportOptions
deriving DecidableEq

namespace LinkSettings

def codec (s : LinkSettings) : Except LoadError Codec :=
  (Codec.ofName s.serialization).mapError fun e => .invalid ("link.serialization: " ++ e.message)

def transport (s : LinkSettings) : TransportOptions where
  readTimeout := .ofMillis s.readTimeoutMs.toNat
  writeTimeout := .ofMillis s.writeTimeoutMs.toNat
  bufferSize := s.bufferSize.toNat

def acceptor (s : LinkSettings) : AcceptorOptions where
  path := s.socketPath
  flavor := s.flavor
  maxConnections := s.maxConnections.toNat
  acceptTimeout := .ofMillis s.acceptTimeoutMs.toNat
  shutdownGrace := .ofSeconds s.shutdownGraceSecs.toNat
  transport := s.transport

def client (s : LinkSettings) : Except LoadError ClientOptions :=
  s.codec.map fun codec => ⟨s.socketPath, s.flavor, codec, s.transport⟩

end LinkSettings

namespace SdkSettings

/-- How often impressions are uploaded. -/
def impressionsPeriod (s : SdkSettings) : Span := .ofSeconds s.impressionsRefreshSecs.toNat

/-- How often events are uploaded. -/
def eventsPeriod (s : SdkSettings) : Span := .ofSeconds s.eventsRefreshSecs.toNat

end SdkSettings

/-- How long an upload may take. -/
def RecorderSettings.timeout (s : RecorderSettings) : Span := .ofMillis s.timeoutMs.toNat

namespace Config

/-- The settings that zero is too small for, in the order in which they are looked at. -/
def positive (c : Config) : List (String × UInt64) :=
  [("link.max_connections", c.link.maxConnections),
    ("link.accept_timeout_ms", c.link.acceptTimeoutMs),
    ("link.read_timeout_ms", c.link.readTimeoutMs),
    ("link.write_timeout_ms", c.link.writeTimeoutMs),
    ("link.buffer_size", c.link.bufferSize),
    ("sdk.impressions_queue_size", c.sdk.impressionsQueueSize),
    ("sdk.impressions_refresh_secs", c.sdk.impressionsRefreshSecs),
    ("sdk.events_queue_size", c.sdk.eventsQueueSize),
    ("sdk.events_refresh_secs", c.sdk.eventsRefreshSecs),
    ("recorder.timeout_ms", c.recorder.timeoutMs)]

/-- Refuses settings that cannot be run with. -/
def validate (c : Config) : Except LoadError Unit := do
  let _ ← c.link.codec
  match c.positive.find? (·.2 = 0) with
  | some (name, _) => throw (.invalid (name ++ " must be greater than zero"))
  | none =>
    if c.link.socketPath.isEmpty then throw (.invalid "link.socket_path must not be empty")

end Config

end FlagSidecar
