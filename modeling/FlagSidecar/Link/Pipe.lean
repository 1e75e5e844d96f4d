import FlagSidecar.Link.Transport

/-!
# FlagSidecar.Link.Pipe: connections held in memory

A pipe carries octets one way and holds a bounded number of them. Its reader sees the end once the
writer has closed it and everything is read; its writer stalls while the pipe is full, and fails once
either end is gone.
-/

namespace FlagSidecar

/-- One direction of a connection held in memory. -/
structure Pipe where
  capacity : Nat
  content : Bytes := []
  closed : Bool := false
deriving DecidableEq

namespace Pipe

/-- What reads deliver now. -/
def inflow (p : Pipe) : Inflow where
  deliveries := if p.content.isEmpty then [] else [.piece p.content]
  ending := if p.closed then .eof else .stalled

/-- What writes accept now. -/
def outflow (p : Pipe) : Outflow where
  acceptances :=
    if p.closed then [.failure .brokenPipe]
    else if p.content.length < p.capacity then [.upTo (p.capacity - p.content.length)]
    else []
  tail := .stalled

/-- The octets that a flow still has to deliver. -/
def remaining (f : Inflow) : Bytes :=
  f.deliveries.flatMap fun
    | .piece octets => octets
    | .datagram octets => octets
    | .failure _ => []

/-- The pipe after its reader has gone on to `f`. -/
def afterReading (p : Pipe) (f : Inflow) : Pipe := { p with content := remaining f }

/-- The pipe after its writer has gone on to `f`. -/
def afterWriting (p : Pipe) (f : Outflow) : Pipe := { p with content := p.content ++ f.written }

def close (p : Pipe) : Pipe := { p with closed := true }

/-- Sends one message into the pipe. -/
def send (p : Pipe) (t : Transport) (payload : Bytes) : Except LinkError Unit × Pipe :=
  let (result, f) := t.send payload p.outflow
  (result, p.afterWriting f)

/-- Receives one message from the pipe. -/
def receive (p : Pipe) (t : Transport) : Except LinkError Bytes × Transport × Pipe :=
  let (result, t, f) := t.receive p.inflow
  (result, t, p.afterReading f)

end Pipe

end FlagSidecar
