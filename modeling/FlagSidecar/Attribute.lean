import FlagSidecar.NameMap
import FlagSidecar.Number.Binary64

/-!
# FlagSidecar.Attribute: what may describe a key or an event

An attribute is one of six shapes. Client data of any other shape is coerced into one of them or
dropped before it gets here, so evaluators and uploads see these six only.
-/

namespace FlagSidecar

/-- One attribute or event property. -/
inductive Attribute where
  | null
  | bool (b : Bool)
  | int (n : Int64)
  | float (x : Binary64)
  | str (s : String)
  | list (items : List String)
deriving DecidableEq

/-- Attributes under their names, in the order of the names. -/
abbrev Attributes := NameMap Attribute

namespace Attribute

/-- Equal, where any NaN counts as any other. -/
def Same : Attribute → Attribute → Prop
  | float x, float y => x.Same y
  | a, b => a = b

end Attribute

end FlagSidecar
