import FlagSidecar.Flag.RuleSet
import FlagSidecar.Json.Fields

/-!
# FlagSidecar.Flag.Json: flags as JSON

A definition needs its name only. Views have no optional fields.
-/

namespace FlagSidecar

open Json (Value)

namespace FlagView

def toJson (v : FlagView) : Value :=
  .object [("name", .text v.name), ("traffic_type", .text v.trafficType),
    ("killed", .bool v.killed), ("treatments", .texts v.treatments),
    ("change_number", .ofInt64 v.changeNumber), ("configs", Value.ofMap .text v.configs),
    ("default_treatment", .text v.defaultTreatment), ("sets", .texts v.sets)]

def ofJson? (v : Value) : Option FlagView := do
  let f ← v.fields? ["name", "traffic_type", "killed", "treatments", "change_number", "configs",
    "default_treatment", "sets"]
  some {
    name := ← f.required "name" Value.text?
    trafficType := ← f.required "traffic_type" Value.text?
    killed := ← f.required "killed" Value.bool?
    treatments := ← f.required "treatments" (Value.list? Value.text?)
    changeNumber := ← f.required "change_number" Value.int64?
    configs := ← f.required "configs" (Value.map? Value.text?)
    defaultTreatment := ← f.required "default_treatment" Value.text?
    sets := ← f.required "sets" (Value.list? Value.text?) }

end FlagView

namespace FlagDefinition

def toJson (d : FlagDefinition) : Value :=
  .object [("name", .text d.name), ("traffic_type", .text d.trafficType),
    ("killed", .bool d.killed), ("default_treatment", .text d.defaultTreatment),
    ("treatments", .texts d.treatments), ("change_number", .ofInt64 d.changeNumber),
    ("keys", Value.ofMap .text d.keys), ("configs", Value.ofMap .text d.configs),
    ("sets", .texts d.sets)]

def ofJson? (v : Value) : Option FlagDefinition := do
  let f ← v.fields? ["name", "traffic_type", "killed", "default_treatment", "treatments",
    "change_number", "keys", "configs", "sets"]
  let name ← f.required "name" Value.text?
  let d : FlagDefinition := { name }
  some { d with
    trafficType := ← f.withDefault "traffic_type" Value.text? d.trafficType
    killed := ← f.withDefault "killed" Value.bool? d.killed
    defaultTreatment := ← f.withDefault "default_treatment" Value.text? d.defaultTreatment
    treatments := ← f.withDefault "treatments" (Value.list? Value.text?) d.treatments
    changeNumber := ← f.withDefault "change_number" Value.int64? d.changeNumber
    keys := ← f.withDefault "keys" (Value.map? Value.text?) d.keys
    configs := ← f.withDefault "configs" (Value.map? Value.text?) d.configs
    sets := ← f.withDefault "sets" (Value.list? Value.text?) d.sets }

end FlagDefinition

end FlagSidecar
