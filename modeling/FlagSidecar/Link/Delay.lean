import FlagSidecar.Link.Client
import FlagSidecar.Link.Terminal

/-!
# FlagSidecar.Link.Delay: calls whose answers take their time

A client makes one call after the other over one connection. Its peer answers every request that it
receives, once and in order. What the peer has sent is underway for a while: in each call so much of it
arrives before the deadline, and the rest arrives later, in the calls after it.

Nothing in a request or an answer says which belongs to which. The client takes the next message for the
answer to its call.
-/

namespace FlagSidecar

/-- What a peer answers to a request, given those that it has received before. -/
abbrev Responder := List Bytes → Bytes → Bytes

/-- What is answered to requests, each of which is received. -/
def Responder.answers (responder : Responder) : (earlier : List Bytes) → List Request → List Bytes
  | _, [] => []
  | earlier, r :: requests =>
    let octets := r.toRpc.write
    responder earlier octets :: answers responder (earlier ++ [octets]) requests

/-- The circumstances of one call. -/
structure Transit where
  /-- What the writes of the request accept, and what they do after that. -/
  acceptances : List Acceptance := []
  tail : Tail := .unlimited
  /-- How the request falls into pieces. -/
  request : Passage := {}
  /-- How the answer falls into pieces. -/
  answer : Passage := {}
  /-- So many of the pieces that are underway arrive before the deadline. -/
  arrivals : Nat

/-- A client and its peer, and what is underway to the client. -/
structure Delayed where
  client : Terminal
  peer : Terminal
  /-- What the peer has received. -/
  requests : List Bytes := []
  underway : List Delivery := []
  /-- What the peer answered to the last request that the client sent, if it received it. -/
  answered : Option Bytes := none

namespace Delayed

/-- Both ends of a new connection. -/
def new (framer : Framer) (clientOptions peerOptions : TransportOptions) : Delayed where
  client := { transport := .new framer clientOptions }
  peer := { transport := .new framer peerOptions }

/-- The peer hears what was written for a request. It answers if that is a whole message. Otherwise, if
it is anything at all, the peer gives up, and so it does if the length of its answer cannot be said. -/
def hear (responder : Responder) (x : Transit) (written : Bytes) (d : Delayed) : Delayed :=
  if written.isEmpty then { d with answered := none }
  else
    match Terminal.wire.receive (d.peer.arrive x.request written) with
    | (.error _, peer) => { d with peer := Terminal.wire.shutdown peer, answered := none }
    | (.ok request, peer) =>
      let framer := d.client.transport.framer
      let answer := responder d.requests request
      if answer.length < framer.limit then
        { d with
          peer
          requests := d.requests ++ [request]
          underway := d.underway ++ framer.deliveries x.answer (framer.frame answer)
          answered := some answer }
      else
        { d with
          peer := Terminal.wire.shutdown peer
          requests := d.requests ++ [request]
          answered := some answer }

/-- The client when it is about to send. -/
def sender (x : Transit) (d : Delayed) : Terminal :=
  { d.client with outflow := { acceptances := x.acceptances, tail := x.tail } }

/-- What comes behind what has arrived: the end of the stream, if the peer has given up and nothing more is
underway. -/
def ending (x : Transit) (d : Delayed) : Ending :=
  if d.peer.transport.closed && (d.underway.drop x.arrivals).isEmpty then .eof else .stalled

/-- The client as it receives: so much of what is underway has arrived. -/
def receiver (x : Transit) (d : Delayed) : Terminal :=
  { d.client with
    inflow := ⟨d.client.inflow.deliveries ++ d.underway.take x.arrivals, d.ending x⟩ }

/-- The connection as the client uses it in one call. -/
def wire (responder : Responder) (x : Transit) : Wire Delayed where
  send payload d :=
    let (result, client) := Terminal.wire.send payload (d.sender x)
    (result, { d with client }.hear responder x client.outflow.written)
  receive d :=
    let (result, client) := Terminal.wire.receive (d.receiver x)
    (result, { d with client, underway := d.underway.drop x.arrivals })
  shutdown d := { d with client := Terminal.wire.shutdown d.client }

/-- Calls one after the other, whatever becomes of each. With each result comes what the peer answered to
the request of that call. -/
def run (responder : Responder) : List (Request × Transit) → Delayed →
    List (Except LinkError (Option Payload) × Option Bytes) × Delayed
  | [], d => ([], d)
  | (r, x) :: calls, d =>
    let (result, d) := (wire responder x).call r d
    let (results, d') := run responder calls d
    ((result, d.answered) :: results, d')

/-- Every value that a call returns is what the peer's answer to the request of this very call says. -/
def OwnAnswers (calls : List (Request × Transit))
    (results : List (Except LinkError (Option Payload) × Option Bytes)) : Prop :=
  ∀ (k : Nat) (r : Request) (x : Transit) (value : Option Payload) (answered : Option Bytes),
    calls[k]? = some (r, x) → results[k]? = some (.ok value, answered) →
      ∃ octets, answered = some octets ∧ r.answer octets = .ok value

end Delayed

/-- No message was received: the request could not be sent, or no answer came in time and whole. -/
def LinkError.isTransport : LinkError → Bool
  | codec _ => false
  | protocol _ => false
  | remote _ => false
  | framing _ => true
  | timeout .. => true
  | closed => true
  | addressInUse _ => true
  | notASocket _ => true
  | io .. => true

/-- A message has filled the buffer, on a socket that keeps messages apart: it was taken, and refused. -/
def FramingError.isRefusal : FramingError → Bool
  | bufferTooSmall _ => true
  | _ => false

def LinkError.isRefusal : LinkError → Bool
  | framing e => e.isRefusal
  | _ => false

/-- The call failed before it had an answer to read. -/
def Delayed.Broke (result : Except LinkError (Option Payload)) : Prop :=
  ∃ e : LinkError, e.isTransport = true ∧ result = .error e

/-- It failed, and did not even take an answer to refuse it. The answer may come later, or what is left of it.
-/
def Delayed.Lost (result : Except LinkError (Option Payload)) : Prop :=
  ∃ e : LinkError, e.isTransport = true ∧ e.isRefusal = false ∧ result = .error e

end FlagSidecar
