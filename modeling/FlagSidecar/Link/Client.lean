import FlagSidecar.Link.Duplex
import FlagSidecar.Protocol.Request

/-!
# FlagSidecar.Link.Client: asking over a link

A call sends one request and receives one message, which it takes for the answer. The payload of an
answer is read as a value first, and as what the operation promises afterwards.
-/

namespace FlagSidecar

open Cbor (Value Written)

namespace Request

/-- The payload that an answer's value stands for; a registration is answered without one. -/
def payload? (r : Request) (v : Value) : Except CodecError (Option Payload) :=
  match r.payloadKind? with
  | none => .ok none
  | some kind =>
    match Payload.ofSource? kind v with
    | some payload => .ok (some payload)
    | none => .error (.parse (r.opCode.name ++ " payload"))

/-- What an answer to a request says. -/
def answer (r : Request) (octets : Bytes) : Except LinkError (Option Payload) :=
  match Response.read? Written.value? octets with
  | none => .error (.codec (.parse ""))
  | some response =>
    if response.isOk then (r.payload? (response.payload.getD .null)).mapError .codec
    else .error (.remote response.status)

end Request

/-- One call: sends the request, and takes the next message for its answer. -/
def Wire.call {σ : Type} (wire : Wire σ) (r : Request) (s : σ) :
    Except LinkError (Option Payload) × σ :=
  match wire.send r.toRpc.write s with
  | (.error e, s) => (.error e, s)
  | (.ok _, s) =>
    match wire.receive s with
    | (.error e, s) => (.error e, s)
    | (.ok octets, s) => (r.answer octets, s)

/-- One call to a peer that acts as it was told to: the request as the peer reads it, and what the call
came to. -/
def Duplex.exchange (r : Request) (acts : List Duplex.PeerAct) (d : Duplex) :
    (Option Bytes × Except LinkError (Option Payload)) × Duplex :=
  let arrivals := Duplex.arrivals d.transport.framer ⟨0⟩ false acts
  let (result, s) := Duplex.Scripted.wire.call r ⟨d, arrivals⟩
  match s.duplex.peerMessage? with
  | some (request, d) => ((some request, result), d)
  | none => ((none, result), s.duplex)

end FlagSidecar
