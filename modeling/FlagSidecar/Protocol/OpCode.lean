/-!
# FlagSidecar.Protocol.OpCode: the operations of the protocol

Each operation has a code of one octet. Codes that no operation has are kept as they are in a request,
so that a request with such a code can still be answered.
-/

namespace FlagSidecar

/-- The protocol version that is spoken here. -/
def protocolVersion : UInt8 := 1

/-- The operations that a client can ask for. -/
inductive OpCode where
  | register
  | treatment
  | treatments
  | treatmentWithConfig
  | treatmentsWithConfig
  | track
  | flagNames
  | flag
  | flags
deriving DecidableEq

namespace OpCode

def byte : OpCode → UInt8
  | register => 0x00
  | treatment => 0x11
  | treatments => 0x12
  | treatmentWithConfig => 0x13
  | treatmentsWithConfig => 0x14
  | track => 0x80
  | flagNames => 0xa0
  | flag => 0xa1
  | flags => 0xa2

def name : OpCode → String
  | register => "register"
  | treatment => "treatment"
  | treatments => "treatments"
  | treatmentWithConfig => "treatment-with-config"
  | treatmentsWithConfig => "treatments-with-config"
  | track => "track"
  | flagNames => "split-names"
  | flag => "split"
  | flags => "splits"

def all : List OpCode :=
  [register, treatment, treatments, treatmentWithConfig, treatmentsWithConfig, track, flagNames,
    flag, flags]

/-- The operation of a name. -/
def ofName? (name : String) : Option OpCode := all.find? (·.name == name)

/-- The operation of a code. -/
def ofByte? (b : UInt8) : Option OpCode := all.find? (·.byte == b)

theorem ofByte?_byte (o : OpCode) : ofByte? o.byte = some o := by cases o <;> rfl

theorem byte_of_ofByte? {b : UInt8} {o : OpCode} (h : ofByte? b = some o) : o.byte = b := by
  have := List.find?_some h
  simpa using this

end OpCode

end FlagSidecar
