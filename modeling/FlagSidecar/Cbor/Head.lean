import FlagSidecar.Bytes
import FlagSidecar.Number.Binary64

/-!
# FlagSidecar.Cbor.Head: the first octets of a data item

Every CBOR data item begins with a head: three bits of major type and an argument in the shortest of
five widths. A reader accepts every width; a writer uses the shortest. Arguments 28 to 30 are
reserved and are read as nothing.
-/

namespace FlagSidecar.Cbor

/-- What the head of a data item announces. A length that is missing announces an item which goes on
until a `stop`. -/
inductive Head where
  | unsigned (n : UInt64)
  | negative (n : UInt64)
  | bytes (length : Option UInt64)
  | text (length : Option UInt64)
  | array (length : Option UInt64)
  | map (length : Option UInt64)
  | tag (number : UInt64)
  | simple (n : UInt8)
  | float (x : Binary64)
  | stop
deriving DecidableEq

namespace Head

/-- The width in octets of the argument that follows the initial octet, by its low five bits. -/
def argumentWidth (low : Nat) : Option Nat :=
  if low = 24 then some 1
  else if low = 25 then some 2
  else if low = 26 then some 4
  else if low = 27 then some 8
  else none

/-- The head that a major type has with an argument of `width` octets; width 0 is an argument held by
the initial octet itself. -/
def ofArgument (major width n : Nat) : Head :=
  match major with
  | 0 => .unsigned n.toUInt64
  | 1 => .negative n.toUInt64
  | 2 => .bytes (some n.toUInt64)
  | 3 => .text (some n.toUInt64)
  | 4 => .array (some n.toUInt64)
  | 5 => .map (some n.toUInt64)
  | 6 => .tag n.toUInt64
  | _ =>
    match width with
    | 2 => .float (.widen .half n)
    | 4 => .float (.widen .single n)
    | 8 => .float (.ofWord n)
    | _ => .simple n.toUInt8

/-- The head that a major type has without an argument. -/
def ofIndefinite? : Nat → Option Head
  | 2 => some (.bytes none)
  | 3 => some (.text none)
  | 4 => some (.array none)
  | 5 => some (.map none)
  | 7 => some .stop
  | _ => none

/-- Reads one head off the front. -/
def read? : Bytes → Option (Head × Bytes)
  | [] => none
  | initial :: rest =>
    let major := initial.toNat / 32
    let low := initial.toNat % 32
    if low < 24 then some (ofArgument major 0 low, rest)
    else if low = 31 then (ofIndefinite? major).map (·, rest)
    else do
      let width ← argumentWidth low
      let (argument, rest) ← Bytes.take? width rest
      some (ofArgument major width (Bytes.ofBigEndian argument), rest)

/-- The octets of a head with an argument below `2^64`, in the shortest width. -/
def write (major n : Nat) : Bytes :=
  let initial (low : Nat) : UInt8 := (major * 32 + low).toUInt8
  if n < 24 then [initial n]
  else if n < 2 ^ 8 then initial 24 :: Bytes.bigEndian 1 n
  else if n < 2 ^ 16 then initial 25 :: Bytes.bigEndian 2 n
  else if n < 2 ^ 32 then initial 26 :: Bytes.bigEndian 4 n
  else initial 27 :: Bytes.bigEndian 8 n

/-- The octets of a float, in the narrowest format that keeps every bit. -/
def writeFloat (x : Binary64) : Bytes :=
  match x.narrow? .half, x.narrow? .single with
  | some w, _ => 0xf9 :: Bytes.bigEndian 2 w
  | none, some w => 0xfa :: Bytes.bigEndian 4 w
  | none, none => 0xfb :: Bytes.bigEndian 8 x.word

end Head

end FlagSidecar.Cbor
