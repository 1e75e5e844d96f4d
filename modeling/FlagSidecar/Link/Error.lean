import FlagSidecar.Protocol.Arguments
import FlagSidecar.Flag.Basic
import FlagSidecar.Time.Span

/-!
# FlagSidecar.Link.Error: what can go wrong on a link

Causes, from the wire upwards: a system call fails, a frame is not whole, octets mean nothing, a request
breaks the rules of the protocol, a deadline passes. Each has one wording.
-/

namespace FlagSidecar

/-- Why a system call failed. -/
inductive IoError where
  | addressInUse
  | brokenPipe
  | connectionRefused
  | connectionReset
  | invalidData
  | invalidInput
  | isADirectory
  | notADirectory
  | notFound
  | permissionDenied
  | unexpectedEof
  | writeZero
  | wrongType
  | other
deriving DecidableEq

/-- A short name of the cause. -/
def IoError.name : IoError → String
  | addressInUse => "AddrInUse"
  | brokenPipe => "BrokenPipe"
  | connectionRefused => "ConnectionRefused"
  | connectionReset => "ConnectionReset"
  | invalidData => "InvalidData"
  | invalidInput => "InvalidInput"
  | isADirectory => "IsADirectory"
  | notADirectory => "NotADirectory"
  | notFound => "NotFound"
  | permissionDenied => "PermissionDenied"
  | unexpectedEof => "UnexpectedEof"
  | writeZero => "WriteZero"
  | wrongType => "Uncategorized"
  | other => "Other"

/-- The wording of a failed system call; only those that an answer can show have one of their own. -/
def IoError.message : IoError → String
  | addressInUse => "Address already in use (os error 98)"
  | brokenPipe => "Broken pipe (os error 32)"
  | connectionRefused => "Connection refused (os error 111)"
  | connectionReset => "Connection reset by peer (os error 104)"
  | invalidData => "stream did not contain valid UTF-8"
  | invalidInput => "Invalid argument (os error 22)"
  | isADirectory => "Is a directory (os error 21)"
  | notADirectory => "Not a directory (os error 20)"
  | notFound => "No such file or directory (os error 2)"
  | permissionDenied => "Permission denied (os error 13)"
  | unexpectedEof => "early eof"
  | writeZero => "write zero"
  | wrongType => "Protocol wrong type for socket (os error 91)"
  | other => "other error"

/-- Why a message could not be read or written. -/
inductive FramingError where
  /-- The stream ended between messages. -/
  | eof
  /-- The stream ended inside a length prefix. -/
  | insufficientHeader (got : Nat)
  /-- A message is longer than the buffer, or than a prefix can say. -/
  | oversized (size capacity : Nat)
  /-- A message filled the buffer, so it may have been cut. -/
  | bufferTooSmall (capacity : Nat)
  /-- Only a part of a message was accepted. -/
  | shortWrite (written expected : Nat)
  | io (e : IoError)
deriving DecidableEq

/-- A short name of the cause. -/
def FramingError.name : FramingError → String
  | eof => "Eof"
  | insufficientHeader _ => "InsufficientHeader"
  | oversized .. => "OversizedMessage"
  | bufferTooSmall _ => "BufferTooSmall"
  | shortWrite .. => "ShortWrite"
  | io _ => "Io"

def FramingError.message : FramingError → String
  | eof => "end of stream"
  | insufficientHeader got => "incomplete length prefix: " ++ toString got ++ " of 4 bytes"
  | oversized size capacity =>
    "message of " ++ toString size ++ " bytes exceeds the " ++ toString capacity ++ "-byte buffer"
  | bufferTooSmall capacity =>
    "message filled the " ++ toString capacity ++ "-byte buffer and may be truncated"
  | shortWrite written expected =>
    "short write: " ++ toString written ++ " of " ++ toString expected ++ " bytes"
  | io e => "I/O error: " ++ e.message

/-- Why octets and messages could not be turned into one another. -/
inductive CodecError where
  | serialization (cause : String)
  | parse (cause : String)
  | unknownCodec (name : String)
deriving DecidableEq

/-- A short name of the cause. -/
def CodecError.name : CodecError → String
  | serialization _ => "Serialization"
  | parse _ => "Parse"
  | unknownCodec _ => "UnknownCodec"

def CodecError.message : CodecError → String
  | serialization cause => "serialization failed: " ++ cause
  | parse cause => "parse failed: " ++ cause
  | unknownCodec name => "unknown codec '" ++ name ++ "'"

/-- The wording of an evaluation that has no answer. -/
def EvaluationFailure.message (f : EvaluationFailure) : String :=
  "evaluation of '" ++ f.feature ++ "' failed: " ++ f.reason

/-- Why a request was not served. -/
inductive ProtocolError where
  | unknownOpCode (code : UInt8)
  | unsupportedVersion (version : UInt8)
  | notRegistered (opcode : UInt8)
  | alreadyRegistered
  | versionMismatch (registered got : UInt8)
  | args (fault : ArgumentFault)
  | backend (failure : EvaluationFailure)
deriving DecidableEq

/-- A short name of the cause. -/
def ProtocolError.name : ProtocolError → String
  | unknownOpCode _ => "UnknownOpCode"
  | unsupportedVersion _ => "UnsupportedVersion"
  | notRegistered _ => "NotRegistered"
  | alreadyRegistered => "AlreadyRegistered"
  | versionMismatch .. => "VersionMismatch"
  | args fault => fault.name
  | backend _ => "Evaluation"

def ProtocolError.message : ProtocolError → String
  | unknownOpCode code => "unknown opcode " ++ Hex.marked code
  | unsupportedVersion version => "unsupported protocol version " ++ Hex.marked version
  | notRegistered opcode => "opcode " ++ Hex.marked opcode ++ " received before registration"
  | alreadyRegistered => "client already registered"
  | versionMismatch registered got =>
    "version mismatch: registered " ++ Hex.marked registered ++ ", got " ++ Hex.marked got
  | args fault => fault.message
  | backend failure => failure.message

/-- The two operations that have a deadline. -/
inductive TimedOperation where
  | send
  | receive
deriving DecidableEq

def TimedOperation.name : TimedOperation → String
  | send => "send"
  | receive => "receive"

/-- Why a link operation failed. -/
inductive LinkError where
  | framing (e : FramingError)
  | codec (e : CodecError)
  | protocol (e : ProtocolError)
  | timeout (operation : TimedOperation) (deadline : Span)
  | closed
  | addressInUse (path : String)
  | notASocket (path : String)
  /-- The other side answered with this status. -/
  | remote (status : UInt8)
  | io (context : String) (e : IoError)
deriving DecidableEq

namespace LinkError

/-- A short name of the cause. -/
def name : LinkError → String
  | framing e => e.name
  | codec e => e.name
  | protocol e => e.name
  | timeout .. => "Timeout"
  | closed => "Closed"
  | addressInUse _ => "AddressInUse"
  | notASocket _ => "NotASocket"
  | remote _ => "Remote"
  | io .. => "LinkIo"

def message : LinkError → String
  | framing e => e.message
  | codec e => e.message
  | protocol e => e.message
  | timeout operation deadline => operation.name ++ " timed out after " ++ deadline.text
  | closed => "transport is shut down"
  | addressInUse path => "address '" ++ path ++ "' is in use by a live listener"
  | notASocket path => "path '" ++ path ++ "' exists and is not a socket"
  | remote status => "daemon answered with status " ++ Hex.marked status
  | io context e => context ++ ": " ++ e.message

/-- Did the other side end the stream between messages? -/
def isEof : LinkError → Bool
  | framing .eof => true
  | _ => false

end LinkError

end FlagSidecar
