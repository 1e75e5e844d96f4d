import FlagSidecar.Queue.FanIn
import FlagSidecar.Service.Session

/-!
# FlagSidecar.Service.Records: the queues that all connections share

Carrying out an action is the only way in which a connection changes the queues. A batch of
impressions is offered whole, also if it is empty; what does not fit is dropped and counted, and the
answer is the same.
-/

namespace FlagSidecar

/-- The impressions and events that wait for their upload, by tag. -/
structure Records where
  impressions : FanIn ClientTag Impression
  events : FanIn ClientTag Event

/-- What goes back to the client. -/
inductive Reply where
  /-- Nothing, and the connection ends. -/
  | silence
  /-- An answer, and the connection ends. -/
  | last (response : Response Payload)
  /-- An answer, and the connection goes on. -/
  | next (response : Response Payload)
deriving DecidableEq

namespace Records

/-- Empty queues, each of which will hold so many items at least. -/
def new (impressionsSize eventsSize : UInt64) : Records := ⟨.new impressionsSize, .new eventsSize⟩

/-- Carries out an action. -/
def perform (r : Records) : Action → Reply × Records
  | .close => (.silence, r)
  | .refuse => (.last .internalError, r)
  | .fail _ => (.next .internalError, r)
  | .acknowledge => (.next (.ok none), r)
  | .answer payload => (.next (.ok (some payload)), r)
  | .record tag impressions payload =>
    (.next (.ok (some payload)), { r with impressions := (r.impressions.push tag impressions).2 })
  | .track tag event =>
    let (result, events) := r.events.push tag [event]
    (.next (.ok (some (.track result.toBool))), { r with events })

end Records

end FlagSidecar
