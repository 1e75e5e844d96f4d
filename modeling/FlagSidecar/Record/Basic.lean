import FlagSidecar.Attribute

/-!
# FlagSidecar.Record.Basic: impressions and events

The two kinds of record that wait in queues for their upload. An impression says what one evaluation
answered; an event is a client's own report.
-/

namespace FlagSidecar

/-- The record of one evaluation. Times are milliseconds since 1970. -/
structure Impression where
  key : String
  bucketingKey : Option String
  feature : String
  treatment : String
  label : String
  changeNumber : Int64
  time : Int64
deriving DecidableEq, Inhabited

/-- A report of a client. The time is the client's own. -/
structure Event where
  key : String
  trafficType : String
  eventType : String
  value : Option Binary64
  properties : Option Attributes
  timestamp : Int64
deriving DecidableEq, Inhabited

/-- The two kinds of record. -/
inductive RecordKind where
  | impressions
  | events
deriving DecidableEq

def RecordKind.name : RecordKind → String
  | impressions => "impressions"
  | events => "events"

end FlagSidecar
