import FlagSidecar.Service.Connection

/-!
# FlagSidecar.Service.Server: connections under one clock

A server serves any number of connections held in memory, which share its evaluator and its queues. Its
clock moves only when it is told to. A connection that waits for a message has until its read deadline,
which is counted from the moment at which it began to wait.

The clock counts from the start of the server. The time that is recorded is that of another clock, which
nothing here moves.
-/

namespace FlagSidecar

/-- A connection of a server. -/
structure Served where
  connection : Connection Duplex
  /-- When it began to wait for a message. -/
  waitsSince : Span
  /-- Has its peer been told of its end? -/
  told : Bool := false

/-- A server and its connections, in the order of their ids. -/
structure Server where
  evaluator : Evaluator
  framer : Framer
  options : TransportOptions
  records : Records
  clock : Span := ⟨0⟩
  /-- The time at which records are made, in milliseconds since 1970. -/
  time : Int64 := 0
  connections : NameMap Served := .empty
  /-- What the evaluator has been asked to evaluate. -/
  asked : List Query := []

namespace Served

def isOpen (s : Served) : Bool := s.connection.isOpen

/-- Does a receive come to something without waiting? -/
def isReady (s : Served) : Bool :=
  match (Duplex.wire.receive s.connection.link).1 with
  | .error (.timeout ..) => false
  | _ => true

/-- When its wait for a message ends. -/
def deadline (s : Served) : Span :=
  s.waitsSince.add s.connection.link.transport.options.readTimeout

/-- What the peer does. -/
def mapLink (f : Duplex → Duplex) (s : Served) : Served :=
  { s with connection.link := f s.connection.link }

end Served

namespace Server

/-- The size of the pipes between the server and its peers. -/
def pipeCapacity : Nat := 2 ^ 32

def find? (s : Server) (id : String) : Option Served := s.connections.get? id

/-- A new connection. An older one with the same id is forgotten. -/
def connect (s : Server) (id : String) : Server :=
  let link := Duplex.new (.new s.framer s.options) pipeCapacity
  { s with connections := s.connections.insert id { connection := { link }, waitsSince := s.clock } }

/-- Puts the outcome of a turn in its place. -/
def absorb (s : Server) (id : String) (t : Turn Duplex) : Server :=
  { s with
    records := t.records
    asked := s.asked ++ t.asked.filterMap Consultation.query?
    connections := s.connections.insert id { connection := t.connection, waitsSince := s.clock } }

/-- Serves one connection as long as it need not wait, for so many turns at most. -/
def run (id : String) : (turns : Nat) → Server → Server
  | 0, s => s
  | turns + 1, s =>
    match s.find? id with
    | none => s
    | some served =>
      if served.isOpen ∧ served.isReady then
        run id turns
          (s.absorb id (served.connection.turn Duplex.wire s.evaluator s.time s.records))
      else s

/-- Serves one connection until it waits. A turn takes an octet or ends the connection. -/
def settle (s : Server) (id : String) : Server :=
  match s.find? id with
  | none => s
  | some served => s.run id (served.connection.link.inbound.content.length + 2)

def update (s : Server) (id : String) (f : Served → Served) : Server :=
  match s.find? id with
  | none => s
  | some served => { s with connections := s.connections.insert id (f served) }

/-- The peer of a connection sends octets. -/
def deliver (s : Server) (id : String) (octets : Bytes) : Server :=
  (s.update id (·.mapLink fun d => (d.peerWrite octets).2)).settle id

/-- The peer of a connection sends a message. -/
def request (s : Server) (id : String) (message : Bytes) : Server :=
  s.deliver id (s.framer.frame message)

/-- The peer of a connection ends its writing. -/
def hangUp (s : Server) (id : String) : Server := (s.update id (·.mapLink Duplex.peerClose)).settle id

/-- The earliest deadline of an open connection. -/
def nextDeadline? (s : Server) : Option Span :=
  (s.connections.values.filter (·.isOpen)).foldl
    (fun least served =>
      match least with
      | none => some served.deadline
      | some d => if served.deadline.nanos < d.nanos then some served.deadline else some d)
    none

/-- Ends the wait of a connection. -/
def expire (s : Server) (id : String) (served : Served) : Server :=
  let (received, link) := Duplex.wire.receive served.connection.link
  s.absorb id
    ({ served.connection with link }.react Duplex.wire s.evaluator s.time s.records received)

/-- Moves the clock on; connections whose deadline has come end. -/
def advanceTo (s : Server) (time : Span) : Server :=
  let s := { s with clock := time }
  s.connections.entries.foldl
    (fun s (id, served) =>
      if served.isOpen ∧ served.deadline.nanos ≤ time.nanos then s.expire id served else s)
    s

/-- Moves the clock on, deadline by deadline, until a connection has answered or ended. Every step but
the last ends a connection, so their number bounds the steps. -/
def await (id : String) : (steps : Nat) → Server → Server
  | 0, s => s
  | steps + 1, s =>
    match s.find? id with
    | none => s
    | some served =>
      if served.isOpen ∧ served.connection.link.outbound.content.isEmpty then
        match s.nextDeadline? with
        | none => s
        | some deadline => await id steps (s.advanceTo deadline)
      else s

/-- What the peer of a connection sees next. -/
structure Sight where
  answer : Option Bytes
  outcome : Option Outcome
deriving DecidableEq

/-- What the peer of a connection sees next, after it has waited: an answer, and the end if it has not
been told of that yet; or the end, if there is no answer left. -/
def observe (s : Server) (id : String) : Sight × Server :=
  let s := s.await id (s.connections.size + 1)
  match s.find? id with
  | none => (⟨none, none⟩, s)
  | some served =>
    match served.connection.link.peerMessage? with
    | none => (⟨none, served.connection.outcome⟩, s.update id ({ · with told := true }))
    | some (answer, link) =>
      (⟨some answer, if served.told then none else served.connection.outcome⟩,
        s.update id fun served =>
          { served with connection.link := link, told := served.told || !served.isOpen })

/-- The peer of a connection closes it, and sees nothing but its end from there on. -/
def close (s : Server) (id : String) : Server :=
  (s.hangUp id).update id (·.mapLink fun d => d.peerRead.2)

/-- The connections that have ended. -/
def ended (s : Server) : List String :=
  (s.connections.entries.filter fun e => !e.2.isOpen).map (·.1)

end Server

end FlagSidecar
