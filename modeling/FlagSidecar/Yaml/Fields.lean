import FlagSidecar.NameMap
import FlagSidecar.Number.Width
import FlagSidecar.Text.Hex
import FlagSidecar.Text.Numeral
import FlagSidecar.Yaml.Node

/-!
# FlagSidecar.Yaml.Fields: records, texts and numbers in YAML

A node is read as what is expected there. Every scalar is a text, however it is written, and only plain
scalars are numbers, truth values or nothing. Where a sequence or a mapping is expected, nothing written
is an empty one; a written null is not.

A record is a mapping. Names that the record does not have are passed over, and a name of its own may
occur once.
-/

namespace FlagSidecar.Yaml

namespace Numeral

open FlagSidecar.Numeral (isDigit)

/-- The number that digits of a base stand for; there has to be one digit. -/
def ofDigits? (base : Nat) (ds : List Char) : Option Nat :=
  if ds.isEmpty then none
  else
    ds.foldlM (fun n d => do
      let v ← Hex.digit? d
      if v < base then some (n * base + v) else none) 0

/-- A number without its sign: decimal, or in the base that its first two characters name. Zeros in
front are for the other bases only. -/
def magnitude? : List Char → Option Nat
  | '0' :: 'x' :: ds => ofDigits? 16 ds
  | '0' :: 'o' :: ds => ofDigits? 8 ds
  | '0' :: 'b' :: ds => ofDigits? 2 ds
  | '0' :: d :: ds => if (d :: ds).all isDigit then none else ofDigits? 10 ('0' :: d :: ds)
  | ds => ofDigits? 10 ds

/-- A whole number with or without a sign. -/
def integer? : List Char → Option Int
  | '+' :: ds => (magnitude? ds).map Int.ofNat
  | '-' :: ds => (magnitude? ds).map fun n => -Int.ofNat n
  | ds => (magnitude? ds).map Int.ofNat

/-- A whole number that is not negative, without a minus sign even for zero. -/
def natural? : List Char → Option Nat
  | '+' :: ds => magnitude? ds
  | ds => magnitude? ds

end Numeral

namespace Node

/-- The tags of the three kinds of scalar that are not texts. -/
def nullTag : String := "tag:yaml.org,2002:null"
def boolTag : String := "tag:yaml.org,2002:bool"
def intTag : String := "tag:yaml.org,2002:int"

def isNullText (text : String) : Bool := ["~", "null", "Null", "NULL"].contains text

/-! ## Single values -/

def text? : Node → Option String
  | scalar _ _ text => some text
  | _ => none

/-- The text of a scalar that may be something else than a text: a plain one, or a block marked with
the tag of what it is. -/
def bareText? (tag : String) : Node → Option String
  | scalar _ .plain text => some text
  | scalar (some t) .literal text => if t = tag then some text else none
  | _ => none

def bool? (n : Node) : Option Bool := do
  let text ← n.bareText? boolTag
  if ["true", "True", "TRUE"].contains text then some true
  else if ["false", "False", "FALSE"].contains text then some false
  else none

def int64? (n : Node) : Option Int64 := do
  let text ← n.bareText? intTag
  Width.int64? (← Numeral.integer? text.toList)

def uint64? (n : Node) : Option UInt64 := do
  let text ← n.bareText? intTag
  Width.uint64? (← Numeral.natural? text.toList)

/-- What may be left out: a plain null stands for nothing, and a tag says that something is there. -/
def option? {α : Type} (read : Node → Option α) : Node → Option (Option α)
  | missing => some none
  | scalar none .plain text =>
    if text.isEmpty ∨ isNullText text then some none else (read (scalar none .plain text)).map some
  | scalar (some tag) .plain text =>
    if tag = nullTag then (if isNullText text then some none else none)
    else (read (scalar (some tag) .plain text)).map some
  | n => (read n).map some

/-- One of several names, as a text, or as a tag with nothing behind it. -/
def name? : Node → Option String
  | scalar (some tag) style text =>
    match tag.toList with
    | '!' :: name =>
      if style = .plain ∧ (text.isEmpty ∨ isNullText text) then some (String.ofList name) else none
    | _ => some text
  | scalar none _ text => some text
  | _ => none

/-- Is nothing written here? -/
def isNothing : Node → Bool
  | missing => true
  | scalar _ .plain text => text.isEmpty
  | _ => false

def list? {α : Type} (read : Node → Option α) : Node → Option (List α)
  | sequence _ items => items.mapM read
  | n => if n.isNothing then some [] else none

/-- The entries of a mapping. -/
def entries? : Node → Option (List (Node × Node))
  | mapping _ entries => some entries
  | n => if n.isNothing then some [] else none

/-- A mapping as a map; the last entry of a name counts, but each of them has to be readable. -/
def map? {α : Type} (read : Node → Option α) (n : Node) : Option (NameMap α) := do
  let entries ← (← n.entries?).mapM fun (name, value) => do some (← name.text?, ← read value)
  some (.ofList entries)

end Node

/-! ## Records -/

/-- The values of a record's fields, under their names. -/
structure Fields where
  entries : List (String × Node)

/-- The fields of a record with these names. -/
def Node.fields? (names : List String) (n : Node) : Option Fields := do
  let entries ← (← n.entries?).mapM fun (name, value) => do some (← name.text?, value)
  let known := entries.filter fun e => names.contains e.1
  if (known.map Prod.fst).Nodup then some ⟨known⟩ else none

namespace Fields

variable {α : Type}

def required (f : Fields) (name : String) (read : Node → Option α) : Option α := do
  read (← f.entries.lookup name)

def withDefault (f : Fields) (name : String) (read : Node → Option α) (default : α) : Option α :=
  match f.entries.lookup name with
  | none => some default
  | some n => read n

end Fields

end FlagSidecar.Yaml
