import FlagSidecar.Link.Duplex
import FlagSidecar.Service.Records

/-!
# FlagSidecar.Service.Connection: serving one connection

A connection is served in turns. A turn receives one message, answers it, and may end the connection;
an ended connection takes no more turns. The clock is read once in a turn. Whatever ends a connection,
its sockets are shut down, once.

The sockets themselves are a `Wire`, so that the loop is the same over pipes held in memory, over lists
of results (`Script`), and over anything else that can receive and send.
-/

namespace FlagSidecar

/-- Why a connection ended. -/
inductive Outcome where
  /-- The peer closed between messages. -/
  | peerClosed
  /-- The rules of registration or version were broken. -/
  | protocolViolation
  /-- A message was no request. -/
  | malformedMessage
  /-- A socket failed, a deadline passed or a frame was not whole. -/
  | transportFailure
deriving DecidableEq

def Outcome.name : Outcome → String
  | peerClosed => "PeerClosed"
  | protocolViolation => "ProtocolViolation"
  | malformedMessage => "MalformedMessage"
  | transportFailure => "TransportFailure"

/-- A connection, its sockets and how it ended if it has. -/
structure Connection (σ : Type) where
  link : σ
  session : Session := .unregistered
  outcome : Option Outcome := none

/-- What one turn leaves behind. -/
structure Turn (σ : Type) where
  connection : Connection σ
  records : Records
  /-- How the evaluator was used. -/
  asked : List Consultation

namespace Connection

variable {σ : Type}

def isOpen (c : Connection σ) : Bool := c.outcome.isNone

/-- Ends a connection. -/
def finish (wire : Wire σ) (outcome : Outcome) (c : Connection σ) : Connection σ :=
  { c with link := wire.shutdown c.link, outcome := some outcome }

/-- Sends an answer. -/
def send (wire : Wire σ) (response : Response Payload) (c : Connection σ) :
    Except LinkError Unit × Connection σ :=
  let (result, link) := wire.send (response.write Payload.toCbor) c.link
  (result, { c with link })

/-- Gives a reply, and ends the connection if the reply says so or cannot be sent. -/
def reply (wire : Wire σ) (c : Connection σ) : Reply → Connection σ
  | .silence => c.finish wire .protocolViolation
  | .last response =>
    let (result, c) := c.send wire response
    c.finish wire (if result.toBool then .protocolViolation else .transportFailure)
  | .next response =>
    let (result, c) := c.send wire response
    if result.toBool then c else c.finish wire .transportFailure

/-- The turn that follows from what was received. -/
def react (wire : Wire σ) (evaluator : Evaluator) (now : Int64) (records : Records)
    (received : Except LinkError Bytes) (c : Connection σ) : Turn σ :=
  match received with
  | .error e =>
    ⟨c.finish wire (if e.isEof then .peerClosed else .transportFailure), records, []⟩
  | .ok octets =>
    match Rpc.read? octets with
    | none => ⟨c.finish wire .malformedMessage, records, []⟩
    | some rpc =>
      let plan := c.session.plan evaluator now rpc
      let (reply, records) := records.perform plan.action
      ⟨{ c with session := plan.session }.reply wire reply, records, plan.asked⟩

/-- One turn: receives, and reacts. -/
def turn (wire : Wire σ) (evaluator : Evaluator) (now : Int64) (records : Records)
    (c : Connection σ) : Turn σ :=
  let (received, link) := wire.receive c.link
  { c with link }.react wire evaluator now records received

/-- Serves a connection until it ends, for as many turns as there are readings of the clock. -/
def serve (wire : Wire σ) (evaluator : Evaluator) :
    (clock : List Int64) → Records → Connection σ → Turn σ
  | [], records, c => ⟨c, records, []⟩
  | now :: clock, records, c =>
    if c.isOpen then
      let t := c.turn wire evaluator now records
      let t' := serve wire evaluator clock t.records t.connection
      { t' with asked := t.asked ++ t'.asked }
    else ⟨c, records, []⟩

end Connection

/-! ## Listed results -/

/-- What receives and sends come to, listed in advance, and what was done. -/
structure Script where
  receives : List (Except LinkError Bytes)
  sends : List (Except LinkError Unit)
  sent : List Bytes := []
  shutdowns : Nat := 0

namespace Script

/-- After the listed results the peer has closed, and sends succeed. -/
def wire : Wire Script where
  receive s :=
    match s.receives with
    | [] => (.error (.framing .eof), s)
    | r :: rest => (r, { s with receives := rest })
  send payload s :=
    let s := { s with sent := s.sent ++ [payload] }
    match s.sends with
    | [] => (.ok (), s)
    | r :: rest => (r, { s with sends := rest })
  shutdown s := { s with shutdowns := s.shutdowns + 1 }

end Script

end FlagSidecar
