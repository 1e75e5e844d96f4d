import FlagSidecar.Flag.Yaml
import FlagSidecar.Record.Http
import FlagSidecar.Service.Endpoint
import FlagSidecar.Settings.Load
import FlagSidecar.Shutdown.Coordinator

/-!
# FlagSidecar.Service.Daemon: the whole of it

A daemon is an endpoint, the recorder of what its clients leave in the queues, and the coordinator that
tells it when to stop. Shutdown has an order: the listener is closed first and connections may go on for
a while; only when no connection is left are the queues flushed for the last time. So nothing that was
accepted stays behind.
-/

namespace FlagSidecar

/-- A pass over one kind of record while none is in flight: its report, the uploads that were made, and
the queues after it. -/
def Records.flush (r : Records) (recorder : Recorder) :
    RecordKind → FlushReport × List Upload × Records
  | .impressions =>
    let (drained, impressions) := r.impressions.drainAll
    let uploads := drained.map Flusher.upload
    (.ofUploads recorder uploads, uploads, { r with impressions })
  | .events =>
    let (drained, events) := r.events.drainAll
    let uploads := drained.map Flusher.upload
    (.ofUploads recorder uploads, uploads, { r with events })

/-- Why a daemon could not run. -/
inductive DaemonError where
  | settings (e : LoadError)
  | link (e : LinkError)
deriving DecidableEq

/-- What a daemon answers from, and where its records go. -/
structure Backends where
  evaluator : Evaluator
  recorder : Recorder

namespace Backends

/-- Accepts every upload and keeps nothing. -/
def discard : Recorder := fun _ => .ok ()

/-- The backends that settings ask for. Without a file of rules nothing is defined; without an address
records are discarded. -/
def ofConfig (files : Files) (server : HttpRequest → HttpReply) (c : Config) :
    Except LoadError Backends := do
  let rules ← match c.sdk.rulesFile with
    | some path => RuleSet.ofFile files path
    | none => pure .empty
  let recorder ← match c.recorder.url with
    | some url => (·.recorder server) <$> HttpRecorder.new url c.recorder.apiKey
    | none => pure discard
  return ⟨rules.evaluator, recorder⟩

end Backends

/-- A daemon that has taken its path. -/
structure Daemon where
  endpoint : Endpoint
  recorder : Recorder
  coordinator : Coordinator := {}
  /-- The pass over the impressions that is in flight. -/
  impressionsPass : Option (List Upload) := none
  /-- The pass over the events that is in flight. -/
  eventsPass : Option (List Upload) := none
  /-- All uploads that were handed to the recorder. -/
  uploads : List Upload := []

/-- What a daemon has counted when it stops. -/
structure DaemonReport where
  impressions : QueueStats
  events : QueueStats
  accepted : UInt64
  rejected : UInt64
deriving DecidableEq

namespace Daemon

/-- Takes the path that the settings name. -/
def start (c : Config) (b : Backends) (place : SocketPath) :
    Except DaemonError Daemon × SocketPath :=
  match c.link.codec with
  | .error e => (.error (.settings e), place)
  | .ok _ =>
    let records := Records.new c.sdk.impressionsQueueSize c.sdk.eventsQueueSize
    match Endpoint.start place c.link.acceptor b.evaluator records with
    | (.error e, place) => (.error (.link e), place)
    | (.ok endpoint, place) => (.ok { endpoint, recorder := b.recorder }, place)

def records (d : Daemon) : Records := d.endpoint.server.records

def withRecords (d : Daemon) (records : Records) : Daemon :=
  { d with endpoint := { d.endpoint with server := { d.endpoint.server with records } } }

/-! ## Flushing -/

/-- Begins a pass over one kind of record, unless one is in flight. -/
def beginPass (d : Daemon) : RecordKind → Daemon
  | .impressions =>
    match (⟨d.records.impressions, d.impressionsPass.isSome⟩ : Flusher Impression).begin? with
    | none => d
    | some (uploads, f) =>
      { d with impressionsPass := some uploads }.withRecords
        { d.records with impressions := f.queues }
  | .events =>
    match (⟨d.records.events, d.eventsPass.isSome⟩ : Flusher Event).begin? with
    | none => d
    | some (uploads, f) =>
      { d with eventsPass := some uploads }.withRecords { d.records with events := f.queues }

/-- Completes the pass that is in flight: its uploads are handed over, whatever becomes of them. -/
def completePass (d : Daemon) : RecordKind → Daemon
  | .impressions =>
    { d with impressionsPass := none, uploads := d.uploads ++ d.impressionsPass.getD [] }
  | .events => { d with eventsPass := none, uploads := d.uploads ++ d.eventsPass.getD [] }

/-- The last pass, after the one that may be in flight. -/
def flush (d : Daemon) (kind : RecordKind) : Daemon :=
  let d := d.completePass kind
  let (_, uploads, records) := d.records.flush d.recorder kind
  { d with uploads := d.uploads ++ uploads }.withRecords records

/-! ## Shutdown -/

/-- Shutdown is initiated, and the listener is closed. -/
def shutdown (d : Daemon) (reason : ShutdownReason) : Daemon :=
  { d with coordinator := (d.coordinator.initiate reason).2, endpoint := d.endpoint.stop }

/-- The end: no connection is left when the queues are flushed for the last time. -/
def finish (d : Daemon) : Daemon :=
  let d := d.shutdown .programmatic
  ({ d with endpoint := d.endpoint.conclude }.flush .impressions).flush .events

/-- What has been counted. -/
def report (d : Daemon) : DaemonReport where
  impressions := d.records.impressions.stats
  events := d.records.events.stats
  accepted := d.endpoint.acceptor.accepted
  rejected := d.endpoint.acceptor.rejected

/-! ## Clients -/

/-- What one client does. -/
structure Visit where
  identity : Identity
  calls : List Request
  /-- Does it have shutdown initiated, and go on afterwards? -/
  late : Bool := false
  lateCalls : List Request := []

/-- A client comes, makes its calls and goes. -/
def visit (d : Daemon) (options : ClientOptions) (v : Visit) :
    Except LinkError (List (Except LinkError (Option Payload))) × Daemon :=
  let name := v.identity.id
  match d.endpoint.join name options v.identity with
  | (.error e, endpoint) => (.error e, { d with endpoint })
  | (.ok _, endpoint) =>
    let (results, endpoint) := endpoint.calls name v.calls
    let d := { d with endpoint }
    let d := if v.late then d.shutdown .programmatic else d
    let (lateResults, endpoint) := d.endpoint.calls name (if v.late then v.lateCalls else [])
    (.ok (results ++ lateResults), { d with endpoint := endpoint.close name })

/-- Clients come one after the other. -/
def visits (d : Daemon) (options : ClientOptions) :
    List Visit → List (Except LinkError (List (Except LinkError (Option Payload)))) × Daemon
  | [] => ([], d)
  | v :: rest =>
    let (result, d) := d.visit options v
    let (results, d) := d.visits options rest
    (result :: results, d)

/-- How many records wait. -/
def backlog (d : Daemon) : Nat × Nat := (d.records.impressions.length, d.records.events.length)

end Daemon

/-! ## From start to end -/

/-- What a daemon leaves behind, and what was seen of it. -/
structure DaemonHistory where
  visits : List (Except LinkError (List (Except LinkError (Option Payload))))
  /-- The impressions and events that waited before the end. -/
  pending : Nat × Nat := (0, 0)
  /-- Those that waited after it. -/
  left : Nat × Nat := (0, 0)
  report : Except DaemonError DaemonReport
  uploads : List Upload := []
  /-- Was shutdown initiated? -/
  initiated : Bool := false
  place : SocketPath

namespace DaemonHistory

/-- What becomes of a client while no daemon of ours listens: nobody answers it. -/
def turnedAway (place : SocketPath) (options : ClientOptions) : LinkError :=
  match place.connect options.flavor with
  | .error e => .io ("failed to connect to " ++ options.path) e
  | .ok _ => .timeout .receive options.transport.readTimeout

/-- A daemon starts, clients come one after the other, and the daemon is told to stop. -/
def ofVisits (c : Config) (b : Backends) (place : SocketPath) (options : ClientOptions)
    (visits : List Daemon.Visit) : DaemonHistory :=
  match Daemon.start c b place with
  | (.error e, place) =>
    { visits := visits.map fun _ => .error (turnedAway place options), report := .error e, place }
  | (.ok d, _) =>
    let (results, d) := d.visits options visits
    let finished := d.finish
    { visits := results
      pending := d.backlog
      left := finished.backlog
      report := .ok finished.report
      uploads := finished.uploads
      initiated := finished.coordinator.initiated
      place := finished.endpoint.place }

end DaemonHistory

end FlagSidecar
