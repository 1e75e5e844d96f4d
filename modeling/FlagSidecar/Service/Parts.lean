import FlagSidecar.Service.Records
import FlagSidecar.Settings.Config

/-!
# FlagSidecar.Service.Parts: what is made for the settings

Some numbers of the settings end as the size of a part: the places for connections, the buffer of a
connection, the slots of a ring, the instant that a timer is set to. To ask for more than the limit of a part
(`Part.Fits`) is a panic of the task that makes it, and that need not be at the start: the places are counted
when the socket is bound, a buffer is made by the task that accepts connections, when a client comes, and a
ring when the first record of a tag is offered. A timer that cannot be set ends its flusher, and the daemon
goes on without it.
-/

namespace FlagSidecar

/-- What the settings do not say: the octets of a slot, and the clock when the timers are set. -/
structure Machine where
  impressionSlot : Nat
  eventSlot : Nat
  clock : Span
deriving DecidableEq

/-- The parts that a daemon makes. -/
def Config.parts (c : Config) (m : Machine) : List Part :=
  [.places c.link.acceptor.maxConnections,
    .buffer (Transport.new c.link.flavor.framer c.link.transport).buffer.capacity,
    .ring (Ring.forSize c.sdk.impressionsQueueSize : Ring Impression).capacity m.impressionSlot,
    .ring (Ring.forSize c.sdk.eventsQueueSize : Ring Event).capacity m.eventSlot,
    .timer m.clock c.sdk.impressionsPeriod,
    .timer m.clock c.sdk.eventsPeriod]

end FlagSidecar
