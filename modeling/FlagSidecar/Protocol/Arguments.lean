import FlagSidecar.Identity
import FlagSidecar.Protocol.Attributes
import FlagSidecar.Protocol.Envelope
import FlagSidecar.Text.Hex

/-!
# FlagSidecar.Protocol.Arguments: positional arguments and what they mean

The arguments of a request are a list of slots. A `Layout` says which operations it serves, what each
slot has to hold, and what the slots mean together. Slots are looked at from the left, and the first
one that does not hold what it should is the fault that is reported.

`Layout.ofRpc` checks the operation, then the number of arguments, then the slots. `Layout.ofArguments`
looks at the slots only; a slot that is not there does not hold what it should.
-/

namespace FlagSidecar

open Cbor (Value)

/-- What a slot may have to hold. -/
inductive SlotType where
  | text
  | optionalText
  | unsigned
  | signed
  | optionalNumber
  | textList
  | optionalMap
deriving DecidableEq

/-- What a slot has to hold, as texts say it. -/
def SlotType.description : SlotType → String
  | text => "a string"
  | optionalText => "a string or null"
  | unsigned => "an unsigned 64-bit integer"
  | signed => "a signed 64-bit integer"
  | optionalNumber => "a number or null"
  | textList => "a list of strings"
  | optionalMap => "a map or null"

/-- Why the arguments of a request cannot be used. -/
inductive ArgumentFault where
  | opCodeMismatch (expected : List UInt8) (actual : UInt8)
  | wrongCount (expected actual : Nat)
  | wrongType (index : Nat) (expected : SlotType)
deriving DecidableEq

/-- A short name of the cause. -/
def ArgumentFault.name : ArgumentFault → String
  | opCodeMismatch .. => "OpCodeMismatch"
  | wrongCount .. => "WrongArgCount"
  | wrongType .. => "InvalidArgType"

def ArgumentFault.message : ArgumentFault → String
  | opCodeMismatch expected actual =>
    "opcode mismatch: expected one of [" ++ String.intercalate ", " (expected.map Hex.octet) ++
      "], got " ++ Hex.marked actual
  | wrongCount expected actual =>
    "wrong argument count: expected " ++ toString expected ++ ", got " ++ toString actual
  | wrongType index expected =>
    "argument " ++ toString index ++ " is not " ++ expected.description

/-! ## Slots -/

namespace Slot

def text? : Value → Option String
  | .text s => some s
  | _ => none

def optionalText? : Value → Option (Option String)
  | .null => some none
  | .text s => some (some s)
  | _ => none

def unsigned? : Value → Option UInt64
  | .integer n => Width.uint64? n.val
  | _ => none

def signed? : Value → Option Int64
  | .integer n => Width.int64? n.val
  | _ => none

/-- A number; an integer becomes the nearest float. -/
def optionalNumber? : Value → Option (Option Binary64)
  | .null => some none
  | .float x => some (some x)
  | .integer n => some (some (.ofInt n.val))
  | _ => none

def textList? : Value → Option (List String)
  | .array items => items.mapM text?
  | _ => none

def optionalAttributes? : Value → Option (Option Attributes)
  | .null => some none
  | .map entries => some (some (Attributes.ofCbor entries))
  | _ => none

end Slot

/-- The content of a slot, or the fault that it is not of its type. -/
def slot {α : Type} (args : List Value) (index : Nat) (type : SlotType) (read : Value → Option α) :
    Except ArgumentFault α :=
  match args[index]?.bind read with
  | some a => .ok a
  | none => .error (.wrongType index type)

/-! ## Layouts -/

/-- How the arguments of some operations are laid out, and what they mean. -/
structure Layout (α : Type) where
  opCodes : List OpCode
  slots : List SlotType
  read : List Value → Except ArgumentFault α

namespace Layout

variable {α : Type}

/-- The meaning of arguments, whatever operation and however many they are. -/
def ofArguments (l : Layout α) (args : List Value) : Except ArgumentFault α := l.read args

/-- The meaning of the arguments of a request. -/
def ofRpc (l : Layout α) (rpc : Rpc) : Except ArgumentFault α :=
  if (l.opCodes.map OpCode.byte).contains rpc.opcode then
    if rpc.args.length = l.slots.length then l.read rpc.args
    else .error (.wrongCount l.slots.length rpc.args.length)
  else .error (.opCodeMismatch (l.opCodes.map OpCode.byte) rpc.opcode)

end Layout

/-- What a track request reports. -/
structure TrackArguments where
  key : String
  trafficType : String
  eventType : String
  value : Option Binary64
  properties : Option Attributes
  timestamp : Int64
deriving DecidableEq

/-- What one evaluation, or several for the same key, are asked with. -/
structure EvaluationArguments (φ : Type) where
  key : String
  bucketingKey : Option String
  /-- The feature, or the features in the order of the request. -/
  features : φ
  attributes : Option Attributes
deriving DecidableEq

namespace Layout

def register : Layout Identity where
  opCodes := [.register]
  slots := [.text, .text, .unsigned]
  read args := do
    let id ← slot args 0 .text Slot.text?
    let sdkVersion ← slot args 1 .text Slot.text?
    let flags ← slot args 2 .unsigned Slot.unsigned?
    return ⟨id, sdkVersion, ⟨flags⟩⟩

def treatment : Layout (EvaluationArguments String) where
  opCodes := [.treatment, .treatmentWithConfig]
  slots := [.text, .optionalText, .text, .optionalMap]
  read args := do
    let key ← slot args 0 .text Slot.text?
    let bucketingKey ← slot args 1 .optionalText Slot.optionalText?
    let feature ← slot args 2 .text Slot.text?
    let attributes ← slot args 3 .optionalMap Slot.optionalAttributes?
    return ⟨key, bucketingKey, feature, attributes⟩

def treatments : Layout (EvaluationArguments (List String)) where
  opCodes := [.treatments, .treatmentsWithConfig]
  slots := [.text, .optionalText, .textList, .optionalMap]
  read args := do
    let key ← slot args 0 .text Slot.text?
    let bucketingKey ← slot args 1 .optionalText Slot.optionalText?
    let features ← slot args 2 .textList Slot.textList?
    let attributes ← slot args 3 .optionalMap Slot.optionalAttributes?
    return ⟨key, bucketingKey, features, attributes⟩

def track : Layout TrackArguments where
  opCodes := [.track]
  slots := [.text, .text, .text, .optionalNumber, .optionalMap, .signed]
  read args := do
    let key ← slot args 0 .text Slot.text?
    let trafficType ← slot args 1 .text Slot.text?
    let eventType ← slot args 2 .text Slot.text?
    let value ← slot args 3 .optionalNumber Slot.optionalNumber?
    let properties ← slot args 4 .optionalMap Slot.optionalAttributes?
    let timestamp ← slot args 5 .signed Slot.signed?
    return ⟨key, trafficType, eventType, value, properties, timestamp⟩

def nothing : Layout Unit where
  opCodes := [.flagNames, .flags]
  slots := []
  read _ := .ok ()

def flag : Layout String where
  opCodes := [.flag]
  slots := [.text]
  read args := slot args 0 .text Slot.text?

end Layout

end FlagSidecar
