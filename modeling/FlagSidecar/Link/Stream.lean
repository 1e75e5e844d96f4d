import FlagSidecar.Bytes
import FlagSidecar.Link.Error

/-!
# FlagSidecar.Link.Stream: what reads deliver and writes accept

The two ends of a connection as their user sees them. An `Inflow` lists what reads will deliver: pieces
of a stream, whole datagrams, failures. A read of a stream delivers at most one piece and leaves the
rest of a longer piece in front; a read of a datagram throws away what the buffer cannot hold. After
the list the flow has ended, or it stalls. An `Outflow` says how much each write will accept, and
collects what was written.

Timing is elsewhere: a flow that stalls is where a deadline passes.
-/

namespace FlagSidecar

/-- What one read may deliver. -/
inductive Delivery where
  | piece (octets : Bytes)
  | datagram (octets : Bytes)
  | failure (e : IoError)
deriving DecidableEq

/-- What comes after the last delivery. -/
inductive Ending where
  | eof
  | stalled
deriving DecidableEq

/-- The reading end of a connection. -/
structure Inflow where
  deliveries : List Delivery
  ending : Ending
deriving DecidableEq

/-- What a read came to. No octets at all mean the end of the stream. -/
inductive ReadOutcome where
  | octets (bs : Bytes)
  | failed (e : IoError)
  | stalled
deriving DecidableEq

/-- Reads at most `room` octets. -/
def Inflow.read (room : Nat) (f : Inflow) : ReadOutcome × Inflow :=
  match f.deliveries with
  | [] =>
    match f.ending with
    | .eof => (.octets [], f)
    | .stalled => (.stalled, f)
  | .failure e :: rest => (.failed e, { f with deliveries := rest })
  | .datagram octets :: rest => (.octets (octets.take room), { f with deliveries := rest })
  | .piece octets :: rest =>
    let left := octets.drop room
    (.octets (octets.take room),
      { f with deliveries := if left.isEmpty then rest else .piece left :: rest })

/-- What one write may do. -/
inductive Acceptance where
  | upTo (count : Nat)
  | failure (e : IoError)
deriving DecidableEq

/-- What writes do after the last acceptance. -/
inductive Tail where
  | unlimited
  | stalled
deriving DecidableEq

/-- The writing end of a connection. -/
structure Outflow where
  acceptances : List Acceptance
  tail : Tail
  written : Bytes := []
  writes : Nat := 0
  flushes : Nat := 0
deriving DecidableEq

/-- What a write came to. -/
inductive WriteOutcome where
  | accepted (count : Nat)
  | failed (e : IoError)
  | stalled
deriving DecidableEq

/-- Offers octets to one write. -/
def Outflow.write (octets : Bytes) (f : Outflow) : WriteOutcome × Outflow :=
  let f := { f with writes := f.writes + 1 }
  let accept (count : Nat) (f : Outflow) : WriteOutcome × Outflow :=
    let octets := octets.take count
    (.accepted octets.length, { f with written := f.written ++ octets })
  match f.acceptances with
  | [] =>
    match f.tail with
    | .unlimited => accept octets.length f
    | .stalled => (.stalled, f)
  | .failure e :: rest => (.failed e, { f with acceptances := rest })
  | .upTo count :: rest => accept count { f with acceptances := rest }

end FlagSidecar
