import FlagSidecar.Link.Error

/-!
# FlagSidecar.Link.Codec: the names of encodings and sockets

Settings name the encoding of messages and the kind of socket. Names are exact.
-/

namespace FlagSidecar

/-- How messages are encoded. -/
inductive Codec where
  | cbor
deriving DecidableEq, Inhabited

def Codec.name : Codec → String
  | cbor => "cbor"

def Codec.ofName (name : String) : Except CodecError Codec :=
  if name = Codec.cbor.name then .ok .cbor else .error (.unknownCodec name)

/-- How messages are told apart on a socket. -/
inductive Framer where
  /-- The socket keeps messages apart by itself. -/
  | null
  /-- Four octets before each message give its length. -/
  | lengthPrefixed
deriving DecidableEq, Inhabited

/-- The kinds of local socket. -/
inductive SocketFlavor where
  /-- Keeps messages apart. -/
  | seqpacket
  /-- A stream of octets. -/
  | stream
deriving DecidableEq, Inhabited

namespace SocketFlavor

def name : SocketFlavor → String
  | seqpacket => "unix-seqpacket"
  | stream => "unix-stream"

def ofName? (name : String) : Option SocketFlavor :=
  [seqpacket, stream].find? (·.name == name)

def framer : SocketFlavor → Framer
  | seqpacket => .null
  | stream => .lengthPrefixed

/-- What is said of a name that no kind of socket has. -/
def unknownMessage (name : String) : String :=
  "unknown socket type '" ++ name ++ "' (expected unix-seqpacket or unix-stream)"

end SocketFlavor

end FlagSidecar
