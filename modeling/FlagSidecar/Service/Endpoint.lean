import FlagSidecar.Link.Client
import FlagSidecar.Link.SocketPath
import FlagSidecar.Service.Acceptor
import FlagSidecar.Service.Server
import FlagSidecar.Settings.Config

/-!
# FlagSidecar.Service.Endpoint: a listener with everything behind it

An endpoint is a path that is listened at, the acceptor that admits connections and the server that
serves them, together with the clients that have connected. What a client does is followed to its end
before the next one does something, so all waiting is over when an operation returns.

A connection that the server has ended gives its slot back at once. Its client finds out with the next
thing it does.
-/

namespace FlagSidecar

/-- A client: the connection that it was given, and its own end of it. -/
structure Caller where
  connection : ConnectionId
  transport : Transport

/-- Does a client give up before any answer can come? Every answer takes a while. -/
def Caller.cannotWait (c : Caller) : Bool := c.transport.options.readTimeout.nanos = 0

/-- A listener and everything behind it. -/
structure Endpoint where
  place : SocketPath
  listener : ListenerId
  acceptor : Acceptor
  server : Server
  callers : NameMap Caller := .empty

/-- What becomes of an attempt to connect. -/
inductive Admission where
  /-- There is nobody to connect to. -/
  | unreachable (e : IoError)
  /-- No slot came free in time. -/
  | rejected
  | admitted (id : ConnectionId)
deriving DecidableEq

/-- All that a peer gets which sends octets and reads to the end. -/
structure Transcript where
  got : Bytes
  failure : Option IoError
deriving DecidableEq

namespace Endpoint

/-- An endpoint that nobody can reach. -/
def deserted : Endpoint where
  place := { text := "" }
  listener := 0
  acceptor := { limit := 0, listening := false, phase := .returned none }
  server :=
    { evaluator := ⟨fun q => .error ⟨q.feature, "no daemon"⟩, [], fun _ => none, []⟩
      framer := .null
      options := {}
      records := .new 0 0 }

/-- Takes a path for a new listener. -/
def start (place : SocketPath) (options : AcceptorOptions) (evaluator : Evaluator)
    (records : Records) : Except LinkError Endpoint × SocketPath :=
  let listener := place.freshId
  match place.listen listener options.flavor with
  | (.error e, place) => (.error e, place)
  | (.ok _, place) =>
    (.ok {
      place, listener
      acceptor := { limit := options.maxConnections }
      server :=
        { evaluator, framer := options.flavor.framer, options := options.transport, records } },
      place)

/-- The name under which the server knows a connection. -/
def key (id : ConnectionId) : String := toString id.toNat

def served? (e : Endpoint) (id : ConnectionId) : Option Served := e.server.find? (key id)

/-- Is a connection still served? -/
def isServed (e : Endpoint) (id : ConnectionId) : Bool :=
  match e.served? id with
  | some served => served.isOpen
  | none => false

/-- Takes the slots of connections back that have ended. -/
def reap (e : Endpoint) : Endpoint :=
  { e with
    acceptor := (e.acceptor.serving.filter (!e.isServed ·)).foldl (Acceptor.dismiss .completed) e.acceptor }

/-- The server goes on after something has happened to a connection. -/
def onServer (e : Endpoint) (f : Server → Server) : Endpoint := { e with server := f e.server }.reap

/-- Connects to the endpoint. -/
def knock (e : Endpoint) (flavor : SocketFlavor) : Admission × Endpoint :=
  match e.place.connect flavor with
  | .error err => (.unreachable err, e)
  | .ok _ =>
    match e.acceptor.seat with
    | (none, acceptor) => (.rejected, { e with acceptor })
    | (some id, acceptor) =>
      (.admitted id, { e with acceptor, server := e.server.connect (key id) })

/-! ## What a peer sees -/

/-- What a peer can read now. A stream that is closed before all of it was read is reset. -/
def inflow (e : Endpoint) (id : ConnectionId) : Inflow :=
  match e.served? id with
  | none => ⟨[], .eof⟩
  | some served =>
    let link := served.connection.link
    let content := link.outbound.content
    let arrived : List Delivery :=
      if content.isEmpty then []
      else
        match e.server.framer with
        | .null => [.datagram content]
        | .lengthPrefixed => [.piece content]
    if served.isOpen then ⟨arrived, .stalled⟩
    else if e.server.framer = .lengthPrefixed ∧ ¬ link.inbound.content.isEmpty then
      ⟨arrived ++ [.failure .connectionReset], .eof⟩
    else ⟨arrived, .eof⟩

/-- What a peer can write now. -/
def outflow (e : Endpoint) (id : ConnectionId) : Outflow :=
  if e.isServed id then { acceptances := [], tail := .unlimited }
  else { acceptances := [.failure .brokenPipe], tail := .stalled }

/-- The end of a connection that its client sees. -/
def closeConnection (e : Endpoint) (id : ConnectionId) : Endpoint :=
  e.onServer (·.close (key id))

/-- A client by its name, as one that talks to the endpoint. -/
def wire (name : String) : Wire Endpoint where
  send payload e :=
    match e.callers.get? name with
    | none => (.error (.framing (.io .brokenPipe)), e)
    | some c =>
      let (result, f) := c.transport.send payload (e.outflow c.connection)
      (result, e.onServer (·.deliver (key c.connection) f.written))
  receive e :=
    match e.callers.get? name with
    | none => (.error (.framing .eof), e)
    | some c =>
      if c.cannotWait then ((c.transport.receive ⟨[], .stalled⟩).1, e)
      else
        let (result, transport, f) := c.transport.receive (e.inflow c.connection)
        let read (served : Served) : Served :=
          served.mapLink fun d => { d with outbound := d.outbound.afterReading f }
        (result, { e with
          callers := e.callers.insert name { c with transport }
          server := e.server.update (key c.connection) read })
  shutdown e :=
    match e.callers.get? name with
    | none => e
    | some c =>
      { e with callers := e.callers.insert name { c with transport := c.transport.shutdown } }
        |>.closeConnection c.connection

/-- Connects a client under a name. An older client of that name is closed. -/
def connect (e : Endpoint) (name : String) (flavor : SocketFlavor) (options : TransportOptions) :
    Admission × Endpoint :=
  match e.knock flavor with
  | (.admitted id, e) =>
    let e := (wire name).shutdown e
    (.admitted id, { e with
      callers := e.callers.insert name ⟨id, .new flavor.framer options⟩ })
  | (admission, e) => (admission, e)

/-- One call of a client. -/
def call (e : Endpoint) (name : String) (r : Request) :
    Except LinkError (Option Payload) × Endpoint :=
  (wire name).call r e

/-- Connects a client and registers it. -/
def join (e : Endpoint) (name : String) (options : ClientOptions) (identity : Identity) :
    Except LinkError Unit × Endpoint :=
  match e.connect name options.flavor options.transport with
  | (.unreachable err, e) => (.error (.io ("failed to connect to " ++ options.path) err), e)
  | (.rejected, e) => (.error (.framing (.io .connectionReset)), e)
  | (.admitted _, e) =>
    let (result, e) := e.call name (.register identity)
    (result.map fun _ => (), e)

/-- Calls one after the other. -/
def calls (e : Endpoint) (name : String) :
    List Request → List (Except LinkError (Option Payload)) × Endpoint
  | [] => ([], e)
  | r :: rest =>
    let (result, e) := e.call name r
    let (results, e) := e.calls name rest
    (result :: results, e)

/-- A client closes its connection. -/
def close (e : Endpoint) (name : String) : Endpoint := (wire name).shutdown e

/-- A peer connects, sends octets as they are, ends its writing and reads to the end. What a rejected
peer has sent is never read. -/
def converse (e : Endpoint) (flavor : SocketFlavor) (octets : Bytes) :
    Except IoError Transcript × Endpoint :=
  match e.knock flavor with
  | (.unreachable err, e) => (.error err, e)
  | (.rejected, e) => (.ok ⟨[], if octets.isEmpty then none else some .connectionReset⟩, e)
  | (.admitted id, e) =>
    let e := e.onServer fun s => (s.deliver (key id) octets).hangUp (key id)
    let f := e.inflow id
    let failure? : Delivery → Option IoError
      | .failure err => some err
      | _ => none
    (.ok ⟨Pipe.remaining f, (f.deliveries.filterMap failure?).head?⟩, e.closeConnection id)

/-! ## The end -/

/-- Is the endpoint listening? -/
def isListening (e : Endpoint) : Bool := e.acceptor.listening

/-- Closes the listener and gives the path up. Connections go on. -/
def stop (e : Endpoint) : Endpoint :=
  if e.isListening then { e with acceptor := e.acceptor.leave, place := e.place.leave e.listener }
  else e

/-- Cuts all connections off. -/
def cutOff (e : Endpoint) : Endpoint :=
  { e with acceptor := e.acceptor.abort, server := { e.server with connections := .empty } }

/-- The end of the acceptor, which has waited for its connections long enough. -/
def conclude (e : Endpoint) : Endpoint :=
  let e := e.stop.cutOff
  { e with acceptor := (Acceptor.run [.conclude] e.acceptor).2 }

end Endpoint

end FlagSidecar
