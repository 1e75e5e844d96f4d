import FlagSidecar.Link.Framing

/-!
# FlagSidecar.Link.Transport: messages under deadlines

A transport owns one connection: its framer, its buffer and its deadlines. Each send and each receive
has a fresh deadline, and a flow that stalls is a deadline that passes. Once shut down, a transport
neither sends nor receives.
-/

namespace FlagSidecar

/-- The deadlines of a connection and the size of its buffer. -/
structure TransportOptions where
  readTimeout : Span := .ofMillis 1000
  writeTimeout : Span := .ofMillis 1000
  bufferSize : Nat := 1048576
deriving DecidableEq

/-- One end of a connection, as messages use it. -/
structure Transport where
  framer : Framer
  options : TransportOptions
  buffer : Buffer
  closed : Bool
deriving DecidableEq

namespace Transport

def new (framer : Framer) (options : TransportOptions) : Transport :=
  ⟨framer, options, ⟨max 1 options.bufferSize, []⟩, false⟩

/-- Sends one message. -/
def send (t : Transport) (payload : Bytes) (f : Outflow) : Except LinkError Unit × Outflow :=
  if t.closed then (.error .closed, f)
  else
    match t.framer.write payload f with
    | (.done _, f) => (.ok (), f)
    | (.failed e, f) => (.error (.framing e), f)
    | (.stalled, f) => (.error (.timeout .send t.options.writeTimeout), f)

/-- Receives one message. What a deadline cuts off has been read and is lost. -/
def receive (t : Transport) (f : Inflow) : Except LinkError Bytes × Transport × Inflow :=
  if t.closed then (.error .closed, t, f)
  else
    match t.framer.read t.buffer f with
    | (.done size, buffer, f) => (.ok (buffer.take size), { t with buffer }, f)
    | (.failed e, buffer, f) => (.error (.framing e), { t with buffer }, f)
    | (.stalled, buffer, f) => (.error (.timeout .receive t.options.readTimeout), { t with buffer }, f)

/-- Ends the sending direction; a second time changes nothing. -/
def shutdown (t : Transport) : Transport := { t with closed := true }

/-- How long an operation that came to an error has waited: a deadline passes in full, everything else
takes no time. -/
def waited {α : Type} : Except LinkError α → Span
  | .error (.timeout _ deadline) => deadline
  | _ => ⟨0⟩

end Transport

end FlagSidecar
