import FlagSidecar.Flag.RuleSet
import FlagSidecar.Settings.File
import FlagSidecar.Yaml.Fields

/-!
# FlagSidecar.Flag.Yaml: rule sets as files

A rule set is written as a list of definitions. A definition needs its name only, and text without a
document is the empty rule set.
-/

namespace FlagSidecar

open Yaml (Node)

def FlagDefinition.ofYaml? (n : Node) : Option FlagDefinition := do
  let f ← n.fields? ["name", "traffic_type", "killed", "default_treatment", "treatments",
    "change_number", "keys", "configs", "sets"]
  let name ← f.required "name" Node.text?
  let d : FlagDefinition := { name }
  some { d with
    trafficType := ← f.withDefault "traffic_type" Node.text? d.trafficType
    killed := ← f.withDefault "killed" Node.bool? d.killed
    defaultTreatment := ← f.withDefault "default_treatment" Node.text? d.defaultTreatment
    treatments := ← f.withDefault "treatments" (Node.list? Node.text?) d.treatments
    changeNumber := ← f.withDefault "change_number" Node.int64? d.changeNumber
    keys := ← f.withDefault "keys" (Node.map? Node.text?) d.keys
    configs := ← f.withDefault "configs" (Node.map? Node.text?) d.configs
    sets := ← f.withDefault "sets" (Node.list? Node.text?) d.sets }

namespace RuleSet

/-- The rule set that text defines. -/
def ofYaml (text : String) : Except LoadError RuleSet :=
  match Node.ofText? text >>= Node.list? FlagDefinition.ofYaml? with
  | some ds => .ok (.ofDefinitions ds)
  | none => .error (.malformed "not a list of flags")

/-- The rule set of the file under a path. -/
def ofFile (files : Files) (path : String) : Except LoadError RuleSet := files.text path >>= ofYaml

end RuleSet

end FlagSidecar
