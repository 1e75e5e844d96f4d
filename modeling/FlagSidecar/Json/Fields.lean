import FlagSidecar.Json.Value
import FlagSidecar.NameMap
import FlagSidecar.Number.Width

/-!
# FlagSidecar.Json.Fields: records, texts and numbers in JSON

A record is an object, or an array of the values of its fields in order. In an object, names that the
record does not have are passed over and a name of its own may occur once. A field can be required,
optional (null or nothing stands for none) or have a default.

| field             | missing in an object | missing in an array | null    |
|-------------------|----------------------|---------------------|---------|
| `required`        | refused              | refused             | refused |
| `optional`        | none                 | refused             | none    |
| `optionalOrNone`  | none                 | none                | none    |
| `withDefault`     | default              | default             | refused |
-/

namespace FlagSidecar.Json

/-- The values of a record's fields, under their names. -/
structure Fields where
  entries : List (String × Value)
  /-- Was the record an object? -/
  named : Bool

namespace Value

/-! ## Single values -/

def text? : Value → Option String
  | .text s => some s
  | _ => none

def bool? : Value → Option Bool
  | .bool b => some b
  | _ => none

/-- A signed integer; a number with a point or an exponent is none. -/
def int64? : Value → Option Int64
  | .number (.integer n) => Width.int64? n
  | _ => none

/-- A number as a double. -/
def float? : Value → Option Binary64
  | .number (.integer n) => some (.ofInt n)
  | .number (.float x) => some x
  | _ => none

def list? {α : Type} (read : Value → Option α) : Value → Option (List α)
  | .array items => items.mapM read
  | _ => none

/-- An object as a map; the last entry of a name counts, but each of them has to be readable. -/
def map? {α : Type} (read : Value → Option α) : Value → Option (NameMap α)
  | .object entries => (entries.mapM fun e => (read e.2).map (e.1, ·)).map .ofList
  | _ => none

def ofInt64 (n : Int64) : Value := .number (.integer n.toInt)

def ofFloat (x : Binary64) : Value := .number (.float x)

def texts (items : List String) : Value := .array (items.map .text)

/-- The object of a map, in the order of the names. -/
def ofMap {α : Type} (f : α → Value) (m : NameMap α) : Value :=
  .object (m.entries.map fun (name, a) => (name, f a))

/-- Null where there is nothing. -/
def orNull {α : Type} (f : α → Value) (a : Option α) : Value := (a.map f).getD .null

/-- An entry, if there is a value for it. -/
def entryIfSome {α : Type} (name : String) (f : α → Value) : Option α → List (String × Value)
  | none => []
  | some a => [(name, f a)]

/-! ## Records -/

/-- The fields of a record with these names. -/
def fields? (names : List String) : Value → Option Fields
  | .object entries =>
    let known := entries.filter fun e => names.contains e.1
    if (known.map Prod.fst).Nodup then some ⟨known, true⟩ else none
  | .array items => if items.length ≤ names.length then some ⟨names.zip items, false⟩ else none
  | _ => none

end Value

namespace Fields

variable {α : Type}

def required (f : Fields) (name : String) (read : Value → Option α) : Option α := do
  read (← f.entries.lookup name)

def withDefault (f : Fields) (name : String) (read : Value → Option α) (default : α) : Option α :=
  match f.entries.lookup name with
  | none => some default
  | some v => read v

def optionalOrNone (f : Fields) (name : String) (read : Value → Option α) : Option (Option α) :=
  match f.entries.lookup name with
  | none => some none
  | some .null => some none
  | some v => (read v).map some

def optional (f : Fields) (name : String) (read : Value → Option α) : Option (Option α) :=
  if f.named ∨ (f.entries.lookup name).isSome then f.optionalOrNone name read else none

end Fields

end FlagSidecar.Json
