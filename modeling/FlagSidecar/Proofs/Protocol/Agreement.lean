import FlagSidecar.Link.Client
import FlagSidecar.Proofs.Protocol.Payload

/-!
# FlagSidecar.Proofs.Protocol.Agreement: both ends of a link read what the other end wrote

The two ends write and read with different code. A client writes positional values and reads generic
values first; the side that serves it reads slot by slot and writes records. For all that either end
can send, what the other makes of it is what was meant.

Lengths on the wire are 64-bit words, so everything is said of messages with fewer than 2^64 octets:
of all messages that a machine can hold.

Main statement: `wire_agreement`. `Request.answer_payload` says the same of an answer as a call sees it.
-/

namespace FlagSidecar

open Cbor (Value Written)

/-- **A request is understood**: the octets a client sends are read as a request whose operation has a
code and whose layout gives back everything that was asked. -/
theorem Request.ofRpc_read?_write {r : Request} (hlt : r.toRpc.write.length < 2 ^ 64) :
    ∃ rpc, Rpc.read? r.toRpc.write = some rpc ∧ OpCode.ofByte? rpc.opcode = some r.opCode ∧
      ofRpc r.opCode rpc = .ok r :=
  ⟨r.toRpc, read?_write_nil hlt, OpCode.ofByte?_byte r.opCode, r.ofRpc_toRpc⟩

/-- An answer is read with its status, and its payload as the value that was written for it. -/
theorem Response.read?_write_nil {r : Response Payload}
    (hlt : (r.write Payload.toCbor).length < 2 ^ 64) :
    read? Written.value? (r.write Payload.toCbor) = some (r.map Payload.toCbor) := by
  rw [← List.append_nil (r.write Payload.toCbor)]
  exact read?_write_payload hlt []

/-- **An answer is understood**: its status is kept, no payload stays none, and a payload is read as its
own kind. -/
theorem Response.payload_read?_write {r : Response Payload}
    (hlt : (r.write Payload.toCbor).length < 2 ^ 64) :
    ∃ response : Response Value, read? Written.value? (r.write Payload.toCbor) = some response ∧
      response.status = r.status ∧ (r.payload = none → response.payload = none) ∧
      ∀ p, r.payload = some p →
        ∃ v, response.payload = some v ∧ Payload.ofSource? p.kind v = some p := by
  refine ⟨r.map Payload.toCbor, read?_write_nil hlt, rfl, fun hnone => ?_, fun p hp => ?_⟩
  · rw [Response.map, hnone, Option.map_none]
  · refine ⟨p.toCbor, ?_, p.ofSource?_toCbor⟩
    rw [Response.map, hp, Option.map_some]

/-- **The two ends of the wire never drift apart.** Whatever a client can ask, the serving side reads
the same request from its octets: operation, texts, options, attributes made safe, numbers. Whatever the
serving side can answer, with either status, a client reads the same status and an equal payload. -/
theorem wire_agreement :
    (∀ r : Request, r.toRpc.write.length < 2 ^ 64 →
      ∃ rpc, Rpc.read? r.toRpc.write = some rpc ∧ OpCode.ofByte? rpc.opcode = some r.opCode ∧
        Request.ofRpc r.opCode rpc = .ok r) ∧
    ∀ (status : Status) (payload : Option Payload),
      (Response.write Payload.toCbor ⟨status.byte, payload⟩).length < 2 ^ 64 →
      ∃ response : Response Value,
        Response.read? Written.value? (Response.write Payload.toCbor ⟨status.byte, payload⟩) =
          some response ∧
        response.status = status.byte ∧ (payload = none → response.payload = none) ∧
        ∀ p, payload = some p →
          ∃ v, response.payload = some v ∧ Payload.ofSource? p.kind v = some p :=
  ⟨fun _ hlt => Request.ofRpc_read?_write hlt, fun _ _ hlt => Response.payload_read?_write hlt⟩

/-- A treatment request with an empty bucketing key and attributes, and an answer to it that leaves its
optional fields out. -/
theorem wire_agreement_treatment :
    (∃ rpc, Rpc.read? (Request.treatment
        ⟨"user", some "", "banner", some (.ofList [("plan", .list ["gold"])])⟩ true).toRpc.write =
          some rpc ∧
        OpCode.ofByte? rpc.opcode = some .treatmentWithConfig ∧
        Request.ofRpc .treatmentWithConfig rpc = .ok (.treatment
          ⟨"user", some "", "banner", some (.ofList [("plan", .list ["gold"])])⟩ true)) ∧
    ∃ response : Response Value,
      Response.read? Written.value?
        (Response.write Payload.toCbor ⟨Status.ok.byte, some (.treatment ⟨"on", none, none⟩)⟩) =
          some response ∧
      response.status = Status.ok.byte ∧
      ∃ v, response.payload = some v ∧
        Payload.ofSource? .treatment v = some (.treatment ⟨"on", none, none⟩) := by
  refine ⟨wire_agreement.1 (.treatment
    ⟨"user", some "", "banner", some (.ofList [("plan", .list ["gold"])])⟩ true) (by decide), ?_⟩
  obtain ⟨response, hread, hstatus, -, hpayload⟩ :=
    wire_agreement.2 .ok (some (.treatment ⟨"on", none, none⟩)) (by decide)
  exact ⟨response, hread, hstatus, hpayload _ rfl⟩

/-! ## Answers as a call sees them -/

namespace Request

variable {r : Request}

/-- What a call makes of an answer that was sent. -/
theorem answer_write {response : Response Payload}
    (hlt : (response.write Payload.toCbor).length < 2 ^ 64) :
    r.answer (response.write Payload.toCbor) =
      if response.isOk then
        (r.payload? ((response.payload.map Payload.toCbor).getD .null)).mapError .codec
      else .error (.remote response.status) := by
  rw [answer, Response.read?_write_nil hlt]
  rfl

/-- **A call returns the payload that was answered**, where it is what the operation promises. -/
theorem answer_payload {p : Payload} (hkind : r.payloadKind? = some p.kind)
    (hlt : ((Response.ok (some p)).write Payload.toCbor).length < 2 ^ 64) :
    r.answer ((Response.ok (some p)).write Payload.toCbor) = .ok (some p) := by
  rw [answer_write hlt, if_pos (by rfl)]
  have hpayload : r.payload? p.toCbor = .ok (some p) := by
    rw [payload?, hkind]
    simp only [Payload.ofSource?_toCbor]
  show (r.payload? p.toCbor).mapError LinkError.codec = _
  rw [hpayload]
  rfl

/-- A registration that was acknowledged returns nothing. -/
theorem answer_acknowledged (hkind : r.payloadKind? = none) :
    r.answer ((Response.ok (none : Option Payload)).write Payload.toCbor) = .ok none := by
  rw [answer_write (by decide), if_pos (by rfl)]
  have hpayload : r.payload? .null = .ok none := by rw [payload?, hkind]
  show (r.payload? .null).mapError LinkError.codec = _
  rw [hpayload]
  rfl

/-- An internal error is returned as what it is, whatever was asked. -/
theorem answer_internalError :
    r.answer ((Response.internalError : Response Payload).write Payload.toCbor) =
      .error (.remote Status.internalError.byte) := by
  rw [answer_write (by decide), if_neg (by decide)]
  rfl

end Request

end FlagSidecar
