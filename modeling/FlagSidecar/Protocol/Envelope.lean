import FlagSidecar.Cbor.Reader
import FlagSidecar.Protocol.OpCode

/-!
# FlagSidecar.Protocol.Envelope: requests and answers on the wire

A request is the record `{v: version, o: operation, a: arguments}`, an answer the record
`{s: status, p: payload}`. The arguments of a request may be missing, which means none. The payload of
an answer may be missing or null.

Main statements, in the proof modules: requests and answers are read back from their octets.
-/

namespace FlagSidecar

open Cbor (Value Written Source)

/-- A request as it is sent. The operation is kept as its code. -/
structure Rpc where
  version : UInt8
  opcode : UInt8
  args : List Value

namespace Rpc

/-- A request of this protocol version. -/
def request (op : OpCode) (args : List Value) : Rpc := ⟨protocolVersion, op.byte, args⟩

def toCbor (r : Rpc) : Value :=
  .record [("v", .integer (.ofUInt8 r.version)), ("o", .integer (.ofUInt8 r.opcode)),
    ("a", .array r.args)]

def write (r : Rpc) : Bytes := r.toCbor.write

def ofWritten? (x : Written) : Option Rpc := do
  let fields ← Source.fields? ["v", "o", "a"] x
  let version ← Source.required fields "v" Source.uint8?
  let opcode ← Source.required fields "o" Source.uint8?
  let args ←
    match fields.lookup "a" with
    | none => some []
    | some a => Source.list? Written.value? a
  some ⟨version, opcode, args⟩

/-- Reads a request; octets after it do not matter. -/
def read? (bs : Bytes) : Option Rpc := do ofWritten? (← Written.read? bs)

end Rpc

/-- How a request went. -/
inductive Status where
  | ok
  | internalError
deriving DecidableEq

def Status.byte : Status → UInt8
  | ok => 0x01
  | internalError => 0x10

/-- An answer with payloads of some type. The status is kept as its octet. -/
structure Response (π : Type) where
  status : UInt8
  payload : Option π
deriving DecidableEq

namespace Response

variable {π ρ : Type}

def ok (payload : Option π) : Response π := ⟨Status.ok.byte, payload⟩

def internalError : Response π := ⟨Status.internalError.byte, none⟩

def isOk (r : Response π) : Bool := r.status == Status.ok.byte

def map (f : π → ρ) (r : Response π) : Response ρ := ⟨r.status, r.payload.map f⟩

def toCbor (payload : π → Value) (r : Response π) : Value :=
  .record [("s", .integer (.ofUInt8 r.status)), ("p", (r.payload.map payload).getD .null)]

def write (payload : π → Value) (r : Response π) : Bytes := (r.toCbor payload).write

def ofWritten? (payload : Written → Option π) (x : Written) : Option (Response π) := do
  let fields ← Source.fields? ["s", "p"] x
  let status ← Source.required fields "s" Source.uint8?
  let payload ← Source.optional fields "p" payload
  some ⟨status, payload⟩

/-- Reads an answer; octets after it do not matter. -/
def read? (payload : Written → Option π) (bs : Bytes) : Option (Response π) := do
  ofWritten? payload (← Written.read? bs)

end Response

end FlagSidecar
