import FlagSidecar.Attribute

/-!
# FlagSidecar.Flag.Basic: flags, evaluations and evaluators

An `Evaluator` answers what a flag says for a key, and shows the flags it knows. It is a value: the
same question has the same answer. Everything above this module is written against an evaluator;
`FlagSidecar.Flag.RuleSet` is one.
-/

namespace FlagSidecar

/-- What an evaluation is asked. -/
structure Query where
  key : String
  bucketingKey : Option String
  feature : String
  attributes : Option Attributes
deriving DecidableEq

/-- What an evaluation answers. -/
structure Evaluation where
  treatment : String
  label : String
  changeNumber : Int64
  config : Option String
deriving DecidableEq, Inhabited

/-- Why an evaluation has no answer. -/
structure EvaluationFailure where
  feature : String
  reason : String
deriving DecidableEq

/-- What may be seen of a flag. -/
structure FlagView where
  name : String
  trafficType : String
  killed : Bool
  treatments : List String
  changeNumber : Int64
  configs : NameMap String
  defaultTreatment : String
  sets : List String
deriving DecidableEq

/-- Evaluates flags and shows them. -/
structure Evaluator where
  evaluate : Query → Except EvaluationFailure Evaluation
  flagNames : List String
  flag : String → Option FlagView
  flags : List FlagView

/-- One use of an evaluator. -/
inductive Consultation where
  | evaluate (query : Query)
  | flagNames
  | flag (name : String)
  | flags
deriving DecidableEq

/-- What was to be evaluated, if this was an evaluation. -/
def Consultation.query? : Consultation → Option Query
  | evaluate query => some query
  | _ => none

/-- The evaluator that fails on some features and otherwise answers as `e`. -/
def Evaluator.failingOn (e : Evaluator) (features : List String) (reason : String) : Evaluator :=
  { e with
    evaluate := fun q =>
      if features.contains q.feature then .error ⟨q.feature, reason⟩ else e.evaluate q }

end FlagSidecar
