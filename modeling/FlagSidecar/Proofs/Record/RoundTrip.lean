import FlagSidecar.Proofs.Json.Fields
import FlagSidecar.Record.Upload

/-!
# FlagSidecar.Proofs.Record.RoundTrip: what is uploaded can be read back

An attribute is written without a mark of its shape, and a field without a value is not written at all. Both
are found again: the shapes of attributes are told apart by the kinds of JSON values, an integer by having
no point, and a field that is missing by its name. So a text without doubles has one reading only, the
records that it was written for. (A double is left out because one that is not finite is written as null.)

For each type there are two laws: the value that is made for it is read as it, and the text of that value
is read as the value.

Main statement: `UploadBody.read_back`.
-/

namespace FlagSidecar

open Json (Value Fields)

/-! ## Attributes -/

namespace Attribute

/-- The attribute is no double. -/
def FloatFree : Attribute → Prop
  | float _ => False
  | _ => True

theorem legible_toJson {a : Attribute} (h : a.FloatFree) : a.toJson.Legible := by
  cases a with
  | int n => exact Value.legible_ofInt64 n
  | float x => exact absurd h id
  | list items => exact Value.legible_array fun _ _ => trivial
  | _ => trivial

/-- **The shape of an attribute is told from what it is written as.** -/
theorem ofJson?_toJson {a : Attribute} (h : a.FloatFree) : ofJson? a.toJson = some a := by
  cases a with
  | int n => simp only [toJson, Value.ofInt64, ofJson?, Width.int64?_toInt]
  | float x => exact absurd h id
  | list items =>
    have hitems : (items.map Value.text).mapM Value.text? = some items :=
      Cbor.mapM_map_eq_some fun _ _ => rfl
    show ((items.map Value.text).mapM Value.text?).map Attribute.list = _
    rw [hitems, Option.map_some]
  | _ => rfl

end Attribute

namespace Attributes

/-- No attribute of the map is a double. -/
def FloatFree (attributes : Attributes) : Prop := ∀ e ∈ attributes.entries, e.2.FloatFree

theorem legible_toJson {attributes : Attributes} (h : attributes.FloatFree) :
    (toJson attributes).Legible :=
  Value.legible_ofMap fun e he => Attribute.legible_toJson (h e he)

theorem ofJson?_toJson {attributes : Attributes} (h : attributes.FloatFree) :
    ofJson? (toJson attributes) = some attributes :=
  Value.map?_ofMap fun e he => Attribute.ofJson?_toJson (h e he)

end Attributes

/-! ## Impressions -/

namespace ImpressionRow

theorem legible_toJson (r : ImpressionRow) : r.toJson.Legible := by
  have hnumbers : (Value.ofInt64 r.changeNumber).Legible ∧ (Value.ofInt64 r.time).Legible :=
    ⟨Value.legible_ofInt64 _, Value.legible_ofInt64 _⟩
  cases hkey : r.bucketingKey <;>
    simp [toJson, hkey, Value.entryIfSome, Value.Legible, Value.LegibleEntries, hnumbers]

/-- A row is read back, whether it has a bucketing key or not. -/
theorem ofJson?_toJson (r : ImpressionRow) : ofJson? r.toJson = some r := by
  obtain ⟨key, bucketingKey, treatment, label, changeNumber, time⟩ := r
  rw [ofJson?, toJson, Value.fields?_object]
  · cases bucketingKey <;>
      simp [Value.entryIfSome, Fields.required, Fields.optionalOrNone, List.lookup_cons]
  · cases bucketingKey <;> simp [Value.entryIfSome]
  · cases bucketingKey <;> simp [Value.entryIfSome]

end ImpressionRow

namespace FeatureImpressions

theorem legible_toJson (g : FeatureImpressions) : g.toJson.Legible :=
  ⟨trivial, Value.legible_array fun r _ => r.legible_toJson, trivial⟩

theorem ofJson?_toJson (g : FeatureImpressions) : ofJson? g.toJson = some g := by
  have hrows : Value.list? ImpressionRow.ofJson? (.array (g.rows.map ImpressionRow.toJson)) =
      some g.rows := Value.list?_array fun r _ => r.ofJson?_toJson
  rw [ofJson?, toJson, Value.fields?_object (by simp) (by simp)]
  simp [Fields.required, List.lookup_cons, hrows]

end FeatureImpressions

namespace ImpressionBatch

theorem legible_toJson (batch : ImpressionBatch) : (toJson batch).Legible :=
  Value.legible_array fun g _ => g.legible_toJson

theorem ofJson?_toJson (batch : ImpressionBatch) : ofJson? (toJson batch) = some batch :=
  Value.list?_array fun g _ => g.ofJson?_toJson

end ImpressionBatch

/-! ## Events -/

namespace EventRecord

/-- The record has no value, and no double among its properties. -/
structure FloatFree (r : EventRecord) : Prop where
  value_eq : r.value = none
  properties : ∀ p ∈ r.properties, p.FloatFree

variable {r : EventRecord}

theorem legible_toJson (h : r.FloatFree) : r.toJson.Legible := by
  have htimestamp : (Value.ofInt64 r.timestamp).Legible := Value.legible_ofInt64 _
  cases hproperties : r.properties with
  | none =>
    simp [toJson, h.value_eq, hproperties, Value.entryIfSome, Value.Legible, Value.LegibleEntries,
      htimestamp]
  | some p =>
    have hp : (Attributes.toJson p).Legible := Attributes.legible_toJson (h.properties p hproperties)
    simp [toJson, h.value_eq, hproperties, Value.entryIfSome, Value.Legible, Value.LegibleEntries,
      htimestamp, hp]

/-- A record is read back; no properties are not the same as none in a map. -/
theorem ofJson?_toJson (h : r.FloatFree) : ofJson? r.toJson = some r := by
  obtain ⟨key, trafficType, eventType, value, timestamp, properties⟩ := r
  obtain ⟨rfl, hproperties⟩ := h
  rw [ofJson?, toJson, Value.fields?_object]
  · cases properties with
    | none => simp [Value.entryIfSome, Fields.required, Fields.optionalOrNone, List.lookup_cons]
    | some p =>
      have hp := Attributes.ofJson?_toJson (hproperties p rfl)
      -- a map is an object even if it is empty, so it is not taken for a field that is missing
      have hnull : Attributes.toJson p ≠ .null := by rw [Attributes.toJson, Value.ofMap]; simp
      simp [Value.entryIfSome, Fields.required, Fields.optionalOrNone, List.lookup_cons, hp]
  · cases properties <;> simp [Value.entryIfSome]
  · cases properties <;> simp [Value.entryIfSome]

end EventRecord

/-! ## Texts -/

/-- **What is uploaded can be read back.** The text of a batch of impressions is read as that batch; the
text of events without doubles as those events; the text of a map of attributes without doubles as that
map; and the text of one attribute that is no double as that attribute. -/
theorem UploadBody.read_back :
    (∀ batch : ImpressionBatch,
      Value.read? (impressions batch).text >>= ImpressionBatch.ofJson? = some batch) ∧
    (∀ records : List EventRecord, (∀ r ∈ records, r.FloatFree) →
      Value.read? (events records).text >>= Value.list? EventRecord.ofJson? = some records) ∧
    (∀ attributes : Attributes, attributes.FloatFree →
      Value.read? (Attributes.toJson attributes).toText >>= Attributes.ofJson? = some attributes) ∧
    ∀ a : Attribute, a.FloatFree →
      Value.read? a.toJson.toText >>= Attribute.ofJson? = some a := by
  refine ⟨fun batch => ?_, fun records h => ?_, fun attributes h => ?_, fun a h => ?_⟩
  · rw [text, toJson, Value.read?_toText (ImpressionBatch.legible_toJson batch)]
    exact ImpressionBatch.ofJson?_toJson batch
  · have hlegible : (Value.array (records.map EventRecord.toJson)).Legible :=
      Value.legible_array fun r hr => EventRecord.legible_toJson (h r hr)
    rw [text, toJson, Value.read?_toText hlegible]
    exact Value.list?_array fun r hr => EventRecord.ofJson?_toJson (h r hr)
  · rw [Value.read?_toText (Attributes.legible_toJson h)]
    exact Attributes.ofJson?_toJson h
  · rw [Value.read?_toText (Attribute.legible_toJson h)]
    exact Attribute.ofJson?_toJson h

/-- A purchase with its details. -/
theorem UploadBody.read_back_purchase :
    let details : Attributes := ⟨[("size", .int 3), ("tags", .list ["new", ""])], by decide⟩
    let purchase : EventRecord := ⟨"ada", "visitor", "buy", none, 5, some details⟩
    purchase.FloatFree ∧ details.FloatFree ∧ (Attribute.int 3).FloatFree ∧
      (Value.read? (events [purchase]).text >>= Value.list? EventRecord.ofJson? = some [purchase]) ∧
      (Value.read? (Attributes.toJson details).toText >>= Attributes.ofJson? = some details) ∧
      (Value.read? (Attribute.int 3).toJson.toText >>= Attribute.ofJson? = some (.int 3)) := by
  intro details purchase
  have hdetails : details.FloatFree :=
    List.forall_mem_cons.mpr ⟨trivial, List.forall_mem_singleton.mpr trivial⟩
  have hpurchase : purchase.FloatFree := ⟨rfl, fun p hp => by cases hp; exact hdetails⟩
  obtain ⟨-, hevents, hattributes, hattribute⟩ := read_back
  exact ⟨hpurchase, hdetails, trivial, hevents [purchase] (List.forall_mem_singleton.mpr hpurchase),
    hattributes details hdetails, hattribute (.int 3) trivial⟩

end FlagSidecar
