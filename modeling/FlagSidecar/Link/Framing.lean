import FlagSidecar.Link.Codec
import FlagSidecar.Link.Stream

/-!
# FlagSidecar.Link.Framing: messages on a connection

A socket that keeps messages apart carries each message as it is. On a stream each message follows its
length, four octets with the least significant first.

A message is read into a buffer that is used again and again, so a message is the first octets of the
buffer and old octets may lie behind it. On a socket that keeps messages apart, a message that fills
the buffer may have been cut and is refused. On a stream, a length beyond the buffer is refused before
any octet of the message is read.
-/

namespace FlagSidecar

/-- A buffer of a fixed capacity. Octets that were never written are zero; only the part in front that
ever was is kept. -/
structure Buffer where
  capacity : Nat
  front : Bytes := []
deriving DecidableEq

namespace Buffer

/-- All octets of the buffer. -/
def octets (b : Buffer) : Bytes :=
  b.front ++ List.replicate (b.capacity - b.front.length) 0

/-- Writes octets over the start of the buffer. -/
def overwrite (b : Buffer) (octets : Bytes) : Buffer :=
  { b with front := octets ++ b.front.drop octets.length }

/-- The first octets of the buffer. -/
def take (b : Buffer) (n : Nat) : Bytes :=
  b.front.take n ++ List.replicate (min n b.capacity - b.front.length) 0

theorem take_eq_take_octets (b : Buffer) (n : Nat) (h : b.front.length ≤ b.capacity) :
    b.take n = b.octets.take n := by
  simp only [take, octets, List.take_append, List.take_replicate]
  congr 2
  omega

end Buffer

/-- What reading or writing one message came to; it may also stall. -/
inductive FrameOutcome where
  | done (size : Nat)
  | failed (e : FramingError)
  | stalled
deriving DecidableEq

namespace Framer

/-- The octets of a length prefix. -/
def prefixSize : Nat := 4

/-- The octets that go on the wire for a message. -/
def frame : Framer → Bytes → Bytes
  | null, payload => payload
  | lengthPrefixed, payload => Bytes.littleEndian prefixSize payload.length ++ payload

/-! ## Reading -/

/-- Reads exactly `wanted` octets, piece by piece; also gives what came before it stopped. Every read
brings an octet or stops, so `wanted` bounds the number of reads. -/
def readExactly : (fuel wanted : Nat) → Inflow → ReadOutcome × Bytes × Inflow
  | _, 0, f => (.octets [], [], f)
  | 0, _ + 1, f => (.stalled, [], f)
  | fuel + 1, wanted, f =>
    match f.read wanted with
    | (.octets [], f) => (.octets [], [], f)
    | (.octets bs, f) =>
      let (outcome, more, f) := readExactly fuel (wanted - bs.length) f
      (outcome, bs ++ more, f)
    | (.failed e, f) => (.failed e, [], f)
    | (.stalled, f) => (.stalled, [], f)

/-- One read of a socket that keeps messages apart. -/
def readDatagram (b : Buffer) (f : Inflow) : FrameOutcome × Buffer × Inflow :=
  match f.read b.capacity with
  | (.octets bs, f) =>
    let b := b.overwrite bs
    if bs.isEmpty then (.failed .eof, b, f)
    else if bs.length = b.capacity then (.failed (.bufferTooSmall b.capacity), b, f)
    else (.done bs.length, b, f)
  | (.failed e, f) => (.failed (.io e), b, f)
  | (.stalled, f) => (.stalled, b, f)

/-- A length prefix and the message behind it. -/
def readPrefixed (b : Buffer) (f : Inflow) : FrameOutcome × Buffer × Inflow :=
  match readExactly prefixSize prefixSize f with
  | (.failed e, _, f) => (.failed (.io e), b, f)
  | (.stalled, _, f) => (.stalled, b, f)
  | (.octets _, header, f) =>
    if header.length < prefixSize then
      (.failed (if header.isEmpty then .eof else .insufficientHeader header.length), b, f)
    else
      let size := Bytes.ofLittleEndian header
      if b.capacity < size then (.failed (.oversized size b.capacity), b, f)
      else
        match readExactly size size f with
        | (.failed e, body, f) => (.failed (.io e), b.overwrite body, f)
        | (.stalled, body, f) => (.stalled, b.overwrite body, f)
        | (.octets _, body, f) =>
          if body.length < size then (.failed (.io .unexpectedEof), b.overwrite body, f)
          else (.done size, b.overwrite body, f)

/-- Reads one message into the buffer. -/
def read : Framer → Buffer → Inflow → FrameOutcome × Buffer × Inflow
  | null => readDatagram
  | lengthPrefixed => readPrefixed

/-- Reads so many messages in turn into one buffer, whatever becomes of each; each outcome comes with the
buffer after it. -/
def readMany (framer : Framer) :
    (count : Nat) → Buffer → Inflow → List (FrameOutcome × Buffer) × Inflow
  | 0, _, f => ([], f)
  | count + 1, b, f =>
    let (outcome, b, f) := framer.read b f
    let (rest, f) := readMany framer count b f
    ((outcome, b) :: rest, f)

/-! ## Writing -/

/-- Writes all octets, as many at a time as are accepted. -/
def writeAll : (fuel : Nat) → Bytes → Outflow → WriteOutcome × Outflow
  | _, [], f => (.accepted 0, f)
  | 0, _ :: _, f => (.stalled, f)
  | fuel + 1, octets, f =>
    match f.write octets with
    | (.accepted 0, f) => (.failed .writeZero, f)
    | (.accepted count, f) => writeAll fuel (octets.drop count) f
    | (.failed e, f) => (.failed e, f)
    | (.stalled, f) => (.stalled, f)

/-- Writes one message; the size counts the message without its prefix. -/
def write : Framer → Bytes → Outflow → FrameOutcome × Outflow
  | null, payload, f =>
    match f.write payload with
    | (.accepted count, f) =>
      if count < payload.length then (.failed (.shortWrite count payload.length), f)
      else (.done count, f)
    | (.failed e, f) => (.failed (.io e), f)
    | (.stalled, f) => (.stalled, f)
  | lengthPrefixed, payload, f =>
    if 2 ^ 32 ≤ payload.length then (.failed (.oversized payload.length (2 ^ 32 - 1)), f)
    else
      let octets := frame lengthPrefixed payload
      match writeAll octets.length octets f with
      | (.accepted _, f) => (.done payload.length, { f with flushes := f.flushes + 1 })
      | (.failed e, f) => (.failed (.io e), f)
      | (.stalled, f) => (.stalled, f)

/-- Writes messages in turn, whatever becomes of each. -/
def writeMany (framer : Framer) : List Bytes → Outflow → List FrameOutcome × Outflow
  | [], f => ([], f)
  | payload :: rest, f =>
    let (outcome, f) := framer.write payload f
    let (outcomes, f) := writeMany framer rest f
    (outcome :: outcomes, f)

end Framer

end FlagSidecar
