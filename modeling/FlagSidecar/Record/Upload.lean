import FlagSidecar.Record.Json

/-!
# FlagSidecar.Record.Upload: records in the form in which they are uploaded

Impressions are uploaded by feature: one group per feature, in the order in which the features first
occur, with the rows of each group in the order of the queue. Events are uploaded one for one.

Main statements, in the proof modules: grouping is the stable partition by feature, and what is written
for a batch without floats is read back.
-/

namespace FlagSidecar

open Json (Value)

/-! ## Impressions -/

/-- An impression within the group of its feature. -/
structure ImpressionRow where
  key : String
  bucketingKey : Option String
  treatment : String
  label : String
  changeNumber : Int64
  time : Int64
deriving DecidableEq

/-- The impressions of one feature. -/
structure FeatureImpressions where
  feature : String
  rows : List ImpressionRow
deriving DecidableEq

/-- What is uploaded of the impressions of one tag. -/
abbrev ImpressionBatch := List FeatureImpressions

def Impression.row (i : Impression) : ImpressionRow :=
  ⟨i.key, i.bucketingKey, i.treatment, i.label, i.changeNumber, i.time⟩

namespace ImpressionBatch

/-- Puts a row at the end of its feature's group, which is opened at the end if there is none. -/
def add (feature : String) (row : ImpressionRow) : ImpressionBatch → ImpressionBatch
  | [] => [⟨feature, [row]⟩]
  | group :: rest =>
    if group.feature = feature then { group with rows := group.rows ++ [row] } :: rest
    else group :: add feature row rest

/-- The groups of a list of impressions. -/
def ofImpressions (impressions : List Impression) : ImpressionBatch :=
  impressions.foldl (fun batch i => add i.feature i.row batch) []

end ImpressionBatch

namespace ImpressionRow

def toJson (r : ImpressionRow) : Value :=
  .object ([("k", .text r.key)] ++ Value.entryIfSome "b" .text r.bucketingKey ++
    [("t", .text r.treatment), ("r", .text r.label), ("c", .ofInt64 r.changeNumber),
      ("m", .ofInt64 r.time)])

def ofJson? (v : Value) : Option ImpressionRow := do
  let f ← v.fields? ["k", "b", "t", "r", "c", "m"]
  some {
    key := ← f.required "k" Value.text?
    bucketingKey := ← f.optionalOrNone "b" Value.text?
    treatment := ← f.required "t" Value.text?
    label := ← f.required "r" Value.text?
    changeNumber := ← f.required "c" Value.int64?
    time := ← f.required "m" Value.int64? }

end ImpressionRow

namespace FeatureImpressions

def toJson (g : FeatureImpressions) : Value :=
  .object [("f", .text g.feature), ("i", .array (g.rows.map ImpressionRow.toJson))]

def ofJson? (v : Value) : Option FeatureImpressions := do
  let f ← v.fields? ["f", "i"]
  some ⟨← f.required "f" Value.text?, ← f.required "i" (Value.list? ImpressionRow.ofJson?)⟩

end FeatureImpressions

namespace ImpressionBatch

def toJson (batch : ImpressionBatch) : Value := .array (batch.map FeatureImpressions.toJson)

def ofJson? (v : Value) : Option ImpressionBatch := v.list? FeatureImpressions.ofJson?

end ImpressionBatch

/-! ## Events -/

/-- An event as it is uploaded. -/
structure EventRecord where
  key : String
  trafficType : String
  eventType : String
  value : Option Binary64
  timestamp : Int64
  properties : Option Attributes
deriving DecidableEq

def Event.record (e : Event) : EventRecord :=
  ⟨e.key, e.trafficType, e.eventType, e.value, e.timestamp, e.properties⟩

namespace EventRecord

def toJson (r : EventRecord) : Value :=
  .object ([("key", .text r.key), ("trafficTypeName", .text r.trafficType),
      ("eventTypeId", .text r.eventType)] ++
    Value.entryIfSome "value" .ofFloat r.value ++ [("timestamp", .ofInt64 r.timestamp)] ++
    Value.entryIfSome "properties" Attributes.toJson r.properties)

def ofJson? (v : Value) : Option EventRecord := do
  let f ← v.fields?
    ["key", "trafficTypeName", "eventTypeId", "value", "timestamp", "properties"]
  some {
    key := ← f.required "key" Value.text?
    trafficType := ← f.required "trafficTypeName" Value.text?
    eventType := ← f.required "eventTypeId" Value.text?
    value := ← f.optionalOrNone "value" Value.float?
    timestamp := ← f.required "timestamp" Value.int64?
    properties := ← f.optionalOrNone "properties" Attributes.ofJson? }

end EventRecord

/-! ## Bodies -/

/-- What one upload carries. -/
inductive UploadBody where
  | impressions (batch : ImpressionBatch)
  | events (records : List EventRecord)
deriving DecidableEq

namespace UploadBody

def ofImpressions (items : List Impression) : UploadBody :=
  .impressions (ImpressionBatch.ofImpressions items)

def ofEvents (items : List Event) : UploadBody := .events (items.map Event.record)

def kind : UploadBody → RecordKind
  | impressions _ => .impressions
  | events _ => .events

def toJson : UploadBody → Value
  | impressions batch => ImpressionBatch.toJson batch
  | events records => .array (records.map EventRecord.toJson)

/-- The JSON text that is posted. -/
def text (b : UploadBody) : String := b.toJson.toText

end UploadBody

/-- Why the records of a tag could not be uploaded. -/
structure UploadFailure where
  kind : RecordKind
  tag : ClientTag
  reason : String
deriving DecidableEq

/-- The wording of a failed upload, for a tag by its text. -/
def uploadFailureMessage (kind tag reason : String) : String :=
  "recorder failed to post " ++ kind ++ " for '" ++ tag ++ "': " ++ reason

def UploadFailure.message (f : UploadFailure) : String :=
  uploadFailureMessage f.kind.name f.tag.text f.reason

end FlagSidecar
