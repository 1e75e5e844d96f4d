import FlagSidecar.Identity
import FlagSidecar.Json.Fields
import FlagSidecar.Record.Basic

/-!
# FlagSidecar.Record.Json: attributes and records as JSON

An attribute is written without a mark of its shape, and read back as the first shape that its text
fits: null, truth value, integer, float, text, list of texts. An integer that does not fit a signed
word is read as a float.

Main statement, in the proof modules: an attribute without floats is read back from its text.
-/

namespace FlagSidecar

open Json (Value)

namespace Attribute

def toJson : Attribute → Value
  | null => .null
  | bool b => .bool b
  | int n => .ofInt64 n
  | float x => .ofFloat x
  | str s => .text s
  | list items => .texts items

def ofJson? : Value → Option Attribute
  | .null => some .null
  | .bool b => some (.bool b)
  | .number (.integer n) =>
    match Width.int64? n with
    | some i => some (.int i)
    | none => some (.float (.ofInt n))
  | .number (.float x) => some (.float x)
  | .text s => some (.str s)
  | .array items => (items.mapM Value.text?).map .list
  | .object _ => none
  | .unreadable => none

end Attribute

namespace Attributes

def toJson (attributes : Attributes) : Value := Value.ofMap Attribute.toJson attributes

def ofJson? (v : Value) : Option Attributes := v.map? Attribute.ofJson?

end Attributes

namespace ClientTag

def toJson (t : ClientTag) : Value :=
  .object [("id", .text t.id), ("sdk_version", .text t.sdkVersion)]

def ofJson? (v : Value) : Option ClientTag := do
  let f ← v.fields? ["id", "sdk_version"]
  some ⟨← f.required "id" Value.text?, ← f.required "sdk_version" Value.text?⟩

end ClientTag

namespace Impression

def toJson (i : Impression) : Value :=
  .object [("key", .text i.key), ("bucketing_key", Value.orNull .text i.bucketingKey),
    ("feature", .text i.feature), ("treatment", .text i.treatment), ("label", .text i.label),
    ("change_number", .ofInt64 i.changeNumber), ("time", .ofInt64 i.time)]

def ofJson? (v : Value) : Option Impression := do
  let f ← v.fields?
    ["key", "bucketing_key", "feature", "treatment", "label", "change_number", "time"]
  some {
    key := ← f.required "key" Value.text?
    bucketingKey := ← f.optional "bucketing_key" Value.text?
    feature := ← f.required "feature" Value.text?
    treatment := ← f.required "treatment" Value.text?
    label := ← f.required "label" Value.text?
    changeNumber := ← f.required "change_number" Value.int64?
    time := ← f.required "time" Value.int64? }

end Impression

namespace Event

def toJson (e : Event) : Value :=
  .object [("key", .text e.key), ("traffic_type", .text e.trafficType),
    ("event_type", .text e.eventType), ("value", Value.orNull .ofFloat e.value),
    ("properties", Value.orNull Attributes.toJson e.properties),
    ("timestamp", .ofInt64 e.timestamp)]

def ofJson? (v : Value) : Option Event := do
  let f ← v.fields? ["key", "traffic_type", "event_type", "value", "properties", "timestamp"]
  some {
    key := ← f.required "key" Value.text?
    trafficType := ← f.required "traffic_type" Value.text?
    eventType := ← f.required "event_type" Value.text?
    value := ← f.optional "value" Value.float?
    properties := ← f.optional "properties" Attributes.ofJson?
    timestamp := ← f.required "timestamp" Value.int64? }

end Event

end FlagSidecar
