import FlagSidecar.Link.Duplex

/-!
# FlagSidecar.Link.Terminal: one end of a connection, and how octets travel to the other

A `Terminal` is a transport with the flows that it reads and writes. What it writes reaches the other end
by a `Passage`, which says into what pieces a stream falls on the way: how much each write takes and
what each read brings. A socket that keeps messages apart brings each one as a whole.
-/

namespace FlagSidecar

/-- Cuts octets into pieces; each size says how many octets a piece has beyond the first, and the octets
that are left make one more piece. No piece is empty. -/
def Bytes.cut : (sizes : List Nat) → Bytes → List Bytes
  | _, [] => []
  | [], b :: rest => [b :: rest]
  | n :: sizes, b :: rest => (b :: rest.take n) :: cut sizes (rest.drop n)

/-- How the octets of a message travel: how many octets beyond the first each write takes, and each read
brings. What is left goes at once. -/
structure Passage where
  writes : List Nat := []
  reads : List Nat := []
deriving DecidableEq

namespace Framer

/-- What the writes of a message accept. -/
def acceptances : Framer → Passage → List Acceptance
  | null, _ => []
  | lengthPrefixed, p => p.writes.map fun n => .upTo (n + 1)

/-- What reads deliver of octets that were written for a message. -/
def deliveries : Framer → Passage → Bytes → List Delivery
  | _, _, [] => []
  | null, _, octets => [.datagram octets]
  | lengthPrefixed, p, octets => (Bytes.cut p.reads octets).map .piece

/-- No message has so many octets: a prefix has 32 bits for its length, and a machine 64. -/
def limit : Framer → Nat
  | null => 2 ^ 64
  | lengthPrefixed => 2 ^ 32

end Framer

/-- One end of a connection, with what it reads and writes next. -/
structure Terminal where
  transport : Transport
  inflow : Inflow := ⟨[], .stalled⟩
  outflow : Outflow := { acceptances := [], tail := .unlimited }
deriving DecidableEq

namespace Terminal

/-- The end before it writes a message. -/
def ready (p : Passage) (t : Terminal) : Terminal :=
  { t with
    outflow := { acceptances := t.transport.framer.acceptances p, tail := .unlimited } }

/-- The end after octets have travelled to it. -/
def arrive (p : Passage) (octets : Bytes) (t : Terminal) : Terminal :=
  { t with
    inflow.deliveries := t.inflow.deliveries ++ t.transport.framer.deliveries p octets }

def wire : Wire Terminal where
  receive t :=
    let (result, transport, inflow) := t.transport.receive t.inflow
    (result, { t with transport, inflow })
  send payload t :=
    let (result, outflow) := t.transport.send payload t.outflow
    (result, { t with outflow })
  shutdown t := { t with transport := t.transport.shutdown }

end Terminal

end FlagSidecar
