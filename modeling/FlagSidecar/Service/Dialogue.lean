import FlagSidecar.Link.Client
import FlagSidecar.Link.Terminal
import FlagSidecar.Service.Connection

/-!
# FlagSidecar.Service.Dialogue: a client and the server at the two ends of one connection

The client sends a request and waits; the server, which has been waiting, takes one turn and answers.
`Dialogue.wire` is the connection as the client uses it, so that a call of the client is the same
`Wire.call` as over any other connection, and the server's turn is a turn of `Connection.serve`.

An `Exchange` says under what circumstances a call is made: what the clock shows when it is served, and
how the request and the answer travel.
-/

namespace FlagSidecar

/-- The circumstances of one call. -/
structure Exchange where
  now : Int64
  request : Passage := {}
  answer : Passage := {}
deriving DecidableEq

/-- A client, its server and the queues. -/
structure Dialogue where
  client : Terminal
  server : Connection Terminal
  records : Records

namespace Dialogue

/-- Both ends of a new connection. -/
def new (framer : Framer) (clientOptions serverOptions : TransportOptions) (records : Records) :
    Dialogue where
  client := { transport := .new framer clientOptions }
  server := { link := { transport := .new framer serverOptions } }
  records := records

/-- The connection as the client uses it in one call: what it sends travels to the server, and before it
receives, the server has taken its turn and the answer has travelled back. -/
def wire (evaluator : Evaluator) (x : Exchange) : Wire Dialogue where
  send payload d :=
    let (result, client) := Terminal.wire.send payload (d.client.ready x.request)
    (result,
      { d with client, server.link := d.server.link.arrive x.request client.outflow.written })
  receive d :=
    let server := { d.server with link := d.server.link.ready x.answer }
    let t := server.serve Terminal.wire evaluator [x.now] d.records
    let (result, client) :=
      Terminal.wire.receive (d.client.arrive x.answer t.connection.link.outflow.written)
    (result, ⟨client, t.connection, t.records⟩)
  shutdown d := { d with client := Terminal.wire.shutdown d.client }

/-- A client makes its calls one after the other, whatever becomes of each. -/
def converse (evaluator : Evaluator) :
    List (Request × Exchange) → Dialogue → List (Except LinkError (Option Payload)) × Dialogue
  | [], d => ([], d)
  | (r, x) :: calls, d =>
    let (result, d) := (wire evaluator x).call r d
    let (results, d) := converse evaluator calls d
    (result :: results, d)

end Dialogue

end FlagSidecar
