import FlagSidecar.Protocol.Arguments
import FlagSidecar.Protocol.Payload

/-!
# FlagSidecar.Protocol.Request: what a client can ask for

A `Request` is a request by its meaning. `Request.toRpc` is what a client sends for it, and
`Request.ofRpc` is what the side that serves it understands. The second reads the positional layouts,
the first writes them; the main statement, in the proof modules, is that they agree.
-/

namespace FlagSidecar

open Cbor (Value)

/-- A request by its meaning. -/
inductive Request where
  | register (identity : Identity)
  | treatment (arguments : EvaluationArguments String) (withConfig : Bool)
  | treatments (arguments : EvaluationArguments (List String)) (withConfig : Bool)
  | track (arguments : TrackArguments)
  | flagNames
  | flag (name : String)
  | flags
deriving DecidableEq

namespace Request

def opCode : Request → OpCode
  | register _ => .register
  | treatment _ false => .treatment
  | treatment _ true => .treatmentWithConfig
  | treatments _ false => .treatments
  | treatments _ true => .treatmentsWithConfig
  | track _ => .track
  | flagNames => .flagNames
  | flag _ => .flag
  | flags => .flags

/-- Null where there is nothing. -/
def orNull {α : Type} (f : α → Value) (a : Option α) : Value := (a.map f).getD .null

/-- The arguments of an evaluation, of one feature or several. -/
def evaluationToCbor {φ : Type} (f : φ → Value) (a : EvaluationArguments φ) : List Value :=
  [.text a.key, orNull .text a.bucketingKey, f a.features, orNull Attributes.toCbor a.attributes]

/-- The arguments that a client sends. -/
def args : Request → List Value
  | register i => [.text i.id, .text i.sdkVersion, .integer (.ofUInt64 i.flags.bits)]
  | treatment a _ => evaluationToCbor .text a
  | treatments a _ => evaluationToCbor textsToCbor a
  | track a => [.text a.key, .text a.trafficType, .text a.eventType, orNull .float a.value,
      orNull Attributes.toCbor a.properties, .ofInt a.timestamp.toInt]
  | flagNames => []
  | flag name => [.text name]
  | flags => []

/-- What a client sends. -/
def toRpc (r : Request) : Rpc := .request r.opCode r.args

/-- What a request with a known operation asks for. -/
def ofRpc (op : OpCode) (rpc : Rpc) : Except ArgumentFault Request :=
  match op with
  | .register => (Layout.register.ofRpc rpc).map .register
  | .treatment => (Layout.treatment.ofRpc rpc).map (.treatment · false)
  | .treatmentWithConfig => (Layout.treatment.ofRpc rpc).map (.treatment · true)
  | .treatments => (Layout.treatments.ofRpc rpc).map (.treatments · false)
  | .treatmentsWithConfig => (Layout.treatments.ofRpc rpc).map (.treatments · true)
  | .track => (Layout.track.ofRpc rpc).map .track
  | .flagNames => (Layout.nothing.ofRpc rpc).map fun _ => .flagNames
  | .flags => (Layout.nothing.ofRpc rpc).map fun _ => .flags
  | .flag => (Layout.flag.ofRpc rpc).map .flag

/-- The kind of payload that answers a request. -/
def payloadKind? (r : Request) : Option PayloadKind := r.opCode.payloadKind?

end Request

end FlagSidecar
