import FlagSidecar.Service.Connection

/-!
# FlagSidecar.Service.Trace: what serving a connection does, in order

Sockets can be traced: every message that is received, every one that is sent and every shutdown is
noted with what it came to, and nothing else is different. A connection that is served over traced
sockets leaves a list of contacts behind, from which one can tell what was done and in which order.

Beside it stands `Progress`, what requests come to when they are dispatched one after the other, without
any sockets.
-/

namespace FlagSidecar

/-! ## Traced sockets -/

/-- One thing that is done with sockets, and what it came to. -/
inductive Contact where
  | received (result : Except LinkError Bytes)
  | sent (payload : Bytes) (result : Except LinkError Unit)
  | shutDown

namespace Contact

/-- The request that was received, if it was one. -/
def rpc? : Contact → Option Rpc
  | received (.ok octets) => Rpc.read? octets
  | _ => none

/-- The payload that was to be sent. -/
def payload? : Contact → Option Bytes
  | sent payload _ => some payload
  | _ => none

end Contact

/-- Sockets with the contacts that were made over them. -/
structure Traced (σ : Type) where
  link : σ
  contacts : List Contact := []

variable {σ : Type}

/-- The same sockets, traced. -/
def Wire.traced (wire : Wire σ) : Wire (Traced σ) where
  receive s :=
    let (result, link) := wire.receive s.link
    (result, ⟨link, s.contacts ++ [.received result]⟩)
  send payload s :=
    let (result, link) := wire.send payload s.link
    (result, ⟨link, s.contacts ++ [.sent payload result]⟩)
  shutdown s := ⟨wire.shutdown s.link, s.contacts ++ [.shutDown]⟩

/-- The same connection, without the trace. -/
def Connection.plain (c : Connection (Traced σ)) : Connection σ :=
  ⟨c.link.link, c.session, c.outcome⟩

def Turn.plain (t : Turn (Traced σ)) : Turn σ := ⟨t.connection.plain, t.records, t.asked⟩

/-- Once they are shut down, the sockets neither receive nor send. -/
structure Wire.ShutsFor (wire : Wire σ) (s : σ) : Prop where
  receive_eq : wire.receive s = (.error .closed, s)
  send_eq : ∀ payload, wire.send payload s = (.error .closed, s)

/-! ## Requests without sockets -/

namespace Session

/-- The connection has not registered, and this is no registration. -/
def OutOfOrder : Session → Rpc → Prop
  | unregistered, rpc => rpc.opcode ≠ OpCode.register.byte
  | registered _ _, _ => False

/-- The request is in its order, but not of the version of the connection; before registration that is
the one spoken here. -/
def OtherVersion : Session → Rpc → Prop
  | unregistered, rpc => rpc.opcode = OpCode.register.byte ∧ rpc.version ≠ protocolVersion
  | registered _ version, rpc => rpc.version ≠ version

end Session

/-- How the contacts of a connection in this session end if it has ended with this outcome. -/
def Outcome.Shows (session : Session) (contacts : List Contact) : Outcome → Prop
  | peerClosed => [.received (.error (.framing .eof)), .shutDown] <:+ contacts
  | malformedMessage =>
    ∃ octets, Rpc.read? octets = none ∧ [.received (.ok octets), .shutDown] <:+ contacts
  | protocolViolation =>
    ∃ octets rpc, Rpc.read? octets = some rpc ∧
      (session.OtherVersion rpc ∧ [.received (.ok octets), .shutDown] <:+ contacts ∨
        session.OutOfOrder rpc ∧
          [.received (.ok octets), .sent (Response.internalError.write Payload.toCbor) (.ok ()),
            .shutDown] <:+ contacts)
  | transportFailure =>
    (∃ e, e ≠ .framing .eof ∧ [.received (.error e), .shutDown] <:+ contacts) ∨
      ∃ payload e, [.sent payload (.error e), .shutDown] <:+ contacts

/-- The octets that go to the client, if any do. -/
def Reply.octets? : Reply → Option Bytes
  | silence => none
  | last response => some (response.write Payload.toCbor)
  | next response => some (response.write Payload.toCbor)

/-- What requests have come to. -/
structure Progress where
  session : Session := .unregistered
  records : Records
  asked : List Consultation := []
  replies : List Reply := []

namespace Progress

variable (evaluator : Evaluator) (p : Progress) (now : Int64) (rpc : Rpc)

/-- The reply to the next request. -/
def reply : Reply := (p.records.perform (p.session.plan evaluator now rpc).action).1

/-- Dispatches one request. -/
def dispatch : Progress where
  session := (p.session.plan evaluator now rpc).session
  records := (p.records.perform (p.session.plan evaluator now rpc).action).2
  asked := p.asked ++ (p.session.plan evaluator now rpc).asked
  replies := p.replies ++ [p.reply evaluator now rpc]

/-- Dispatches one request after the other, each with what the clock shows. -/
def dispatchAll (rpcs : List (Int64 × Rpc)) : Progress :=
  rpcs.foldl (fun p x => p.dispatch evaluator x.1 x.2) p

end Progress

end FlagSidecar
