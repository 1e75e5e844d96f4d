import FlagSidecar.Flag.Basic

/-!
# FlagSidecar.Flag.RuleSet: flags defined in a file

A rule set is a list of definitions, in which the last definition of a name counts. A flag answers its
default treatment when it is killed, the treatment listed for the key when there is one, and else its
default treatment; the label says which of the three it was. A flag that is not defined answers
`control`.
-/

namespace FlagSidecar

/-- The treatment of a flag that is not defined. -/
def controlTreatment : String := "control"

namespace Label

def definitionNotFound : String := "definition not found"
def killed : String := "killed"
def whitelisted : String := "whitelisted"
def defaultRule : String := "default rule"

end Label

/-- One flag as its author wrote it. -/
structure FlagDefinition where
  name : String
  trafficType : String := "user"
  killed : Bool := false
  defaultTreatment : String := controlTreatment
  treatments : List String := []
  changeNumber : Int64 := 0
  /-- The treatments of keys that have one of their own. -/
  keys : NameMap String := .empty
  /-- The configuration that goes with a treatment. -/
  configs : NameMap String := .empty
  sets : List String := []
deriving DecidableEq

namespace FlagDefinition

/-- What is shown of a definition: the default treatment is listed even where its author left it out
of the treatments. -/
def view (d : FlagDefinition) : FlagView where
  name := d.name
  trafficType := d.trafficType
  killed := d.killed
  treatments :=
    if d.treatments.contains d.defaultTreatment then d.treatments
    else d.treatments ++ [d.defaultTreatment]
  changeNumber := d.changeNumber
  configs := d.configs
  defaultTreatment := d.defaultTreatment
  sets := d.sets

/-- The treatment that a key gets, and the label that says why. -/
def treatmentFor (d : FlagDefinition) (key : String) : String × String :=
  if d.killed then (d.defaultTreatment, Label.killed)
  else
    match d.keys.get? key with
    | some treatment => (treatment, Label.whitelisted)
    | none => (d.defaultTreatment, Label.defaultRule)

def evaluate (d : FlagDefinition) (key : String) : Evaluation :=
  let (treatment, label) := d.treatmentFor key
  ⟨treatment, label, d.changeNumber, d.configs.get? treatment⟩

end FlagDefinition

/-- Definitions under their names. -/
structure RuleSet where
  definitions : NameMap FlagDefinition
deriving DecidableEq

namespace RuleSet

def empty : RuleSet := ⟨.empty⟩

/-- The rule set of a list of definitions; the last one of a name counts. -/
def ofDefinitions (ds : List FlagDefinition) : RuleSet := ⟨.ofList (ds.map fun d => (d.name, d))⟩

def size (r : RuleSet) : Nat := r.definitions.size

def evaluate (r : RuleSet) (q : Query) : Evaluation :=
  match r.definitions.get? q.feature with
  | some d => d.evaluate q.key
  | none => ⟨controlTreatment, Label.definitionNotFound, -1, none⟩

def flagNames (r : RuleSet) : List String := r.definitions.names

def flag (r : RuleSet) (name : String) : Option FlagView := (r.definitions.get? name).map (·.view)

def flags (r : RuleSet) : List FlagView := r.definitions.values.map (·.view)

/-- A rule set as an evaluator; it never fails. -/
def evaluator (r : RuleSet) : Evaluator where
  evaluate q := .ok (r.evaluate q)
  flagNames := r.flagNames
  flag := r.flag
  flags := r.flags

end RuleSet

end FlagSidecar
