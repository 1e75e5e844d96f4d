import FlagSidecar.Number.Binary64

/-!
# FlagSidecar.Queue.Stats: what was queued and what was dropped

Two counters of 64 bits, which wrap. The rate of loss is a quotient of doubles: both counts are rounded
to a double before they are divided.
-/

namespace FlagSidecar

/-- How many items were queued and how many were dropped. -/
structure QueueStats where
  queued : UInt64 := 0
  dropped : UInt64 := 0
deriving DecidableEq, Inhabited

namespace QueueStats

def recordQueued (s : QueueStats) (n : Nat) : QueueStats := { s with queued := s.queued + n.toUInt64 }

def recordDropped (s : QueueStats) (n : Nat) : QueueStats :=
  { s with dropped := s.dropped + n.toUInt64 }

/-- The items offered, held at the greatest word. -/
def offered (s : QueueStats) : Nat := min (2 ^ 64 - 1) (s.queued.toNat + s.dropped.toNat)

/-- The fraction of the offered items that were dropped. -/
def dropRate (s : QueueStats) : Binary64 :=
  if s.offered = 0 then .zero
  else Binary64.quotient (.ofNat s.dropped.toNat) (.ofNat s.offered)

end QueueStats

end FlagSidecar
