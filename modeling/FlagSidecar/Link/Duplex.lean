import FlagSidecar.Link.Pipe

/-!
# FlagSidecar.Link.Duplex: using a connection, and one held in memory

A `Wire` is what anything that talks over a connection needs of it, whatever the connection is made of.

A `Duplex` is a connection held in memory: a transport over two pipes, with the peer at their other
ends. The peer may end its writing, or go altogether; what it is asked to do after that it does not do.
-/

namespace FlagSidecar

/-- How a connection is used. -/
structure Wire (σ : Type) where
  receive : σ → Except LinkError Bytes × σ
  send : Bytes → σ → Except LinkError Unit × σ
  shutdown : σ → σ

/-- A transport over two pipes. -/
structure Duplex where
  transport : Transport
  inbound : Pipe
  outbound : Pipe
  /-- Has the peer gone? -/
  gone : Bool := false
deriving DecidableEq

namespace Duplex

/-- A connection with pipes of a capacity. -/
def new (transport : Transport) (capacity : Nat) : Duplex :=
  { transport, inbound := { capacity }, outbound := { capacity } }

def wire : Wire Duplex where
  receive d :=
    let (result, transport, inbound) := d.inbound.receive d.transport
    (result, { d with transport, inbound })
  send payload d :=
    let (result, outbound) := d.outbound.send d.transport payload
    (result, { d with outbound })
  shutdown d := { d with transport := d.transport.shutdown, outbound := d.outbound.close }

/-! ## The peer -/

/-- The peer reads all there is; also says whether that was the end. -/
def peerRead (d : Duplex) : (Bytes × Bool) × Duplex :=
  ((d.outbound.content, d.outbound.closed), { d with outbound.content := [] })

/-- The peer writes as much as the pipe takes. -/
def peerWrite (octets : Bytes) (d : Duplex) : WriteOutcome × Duplex :=
  let (outcome, f) := Framer.writeAll octets.length octets d.inbound.outflow
  (outcome, { d with inbound := d.inbound.afterWriting f })

/-- The peer ends its writing. -/
def peerClose (d : Duplex) : Duplex := { d with inbound := d.inbound.close }

/-- The peer goes. -/
def peerDrop (d : Duplex) : Duplex :=
  { d with inbound := d.inbound.close, outbound := d.outbound.close, gone := true }

/-- The peer reads one message, if there is a whole one. -/
def peerMessage? (d : Duplex) : Option (Bytes × Duplex) :=
  let content := d.outbound.content
  match d.transport.framer with
  | .null => if content.isEmpty then none else some (content, { d with outbound.content := [] })
  | .lengthPrefixed =>
    let size := Bytes.ofLittleEndian (content.take Framer.prefixSize)
    let frame := Framer.prefixSize + size
    if content.length < frame then none
    else
      some ((content.take frame).drop Framer.prefixSize,
        { d with outbound.content := content.drop frame })

/-! ## Receiving while the peer is writing -/

/-- Something that the peer does a while after a receive has begun. -/
structure Arrival where
  after : Span
  octets : Bytes
  /-- Does the peer go then? -/
  last : Bool := false
deriving DecidableEq

/-- What a peer does when something is asked of it. -/
inductive PeerAct where
  /-- It sends a message. -/
  | message (payload : Bytes)
  /-- It sends octets as they are. -/
  | octets (bs : Bytes)
  | pause (span : Span)
  /-- It goes, once it has done everything else. -/
  | leave
deriving DecidableEq

/-- When a peer does what, from a moment on. -/
def arrivals (framer : Framer) (now : Span) (leaves : Bool) : List PeerAct → List Arrival
  | [] => if leaves then [⟨now, [], true⟩] else []
  | .message payload :: rest => { after := now, octets := framer.frame payload } :: arrivals framer now leaves rest
  | .octets bs :: rest => { after := now, octets := bs } :: arrivals framer now leaves rest
  | .pause span :: rest => arrivals framer (now.add span) leaves rest
  | .leave :: rest => arrivals framer now true rest

/-- What an arrival does to a connection. -/
def arrive (d : Duplex) (a : Arrival) : Duplex :=
  let d := (d.peerWrite a.octets).2
  if a.last then d.peerDrop else d

/-- Receives one message among arrivals. What arrives before the deadline is looked at as it comes;
the rest arrives later. -/
def receiveAmong (d : Duplex) : List Arrival → Except LinkError Bytes × Duplex
  | [] => wire.receive d
  | a :: rest =>
    match wire.receive d with
    | (.error (.timeout operation deadline), timedOut) =>
      if a.after.nanos < deadline.nanos then receiveAmong (d.arrive a) rest
      else (.error (.timeout operation deadline), (a :: rest).foldl arrive timedOut)
    | (result, d) => (result, (a :: rest).foldl arrive d)

/-- A connection on which each receive is met by the arrivals listed next. -/
structure Scripted where
  duplex : Duplex
  arrivals : List Arrival
deriving DecidableEq

def Scripted.wire : Wire Scripted where
  receive s :=
    let (result, duplex) := s.duplex.receiveAmong s.arrivals
    (result, ⟨duplex, []⟩)
  send payload s :=
    let (result, duplex) := Duplex.wire.send payload s.duplex
    (result, { s with duplex })
  shutdown s := { s with duplex := Duplex.wire.shutdown s.duplex }

end Duplex

end FlagSidecar
