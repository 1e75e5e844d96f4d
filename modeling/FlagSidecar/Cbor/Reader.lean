import FlagSidecar.Cbor.Value
import FlagSidecar.NameMap
import FlagSidecar.Number.Width

/-!
# FlagSidecar.Cbor.Reader: records and typed fields

Typed data can be read from two places: from an item as it was written (`Written`), or from a generic
value (`Value`). `Source` lists what a typed reader asks of either. The two differ in small ways that
messages can show: a written record may spell its keys as octets, and a written list may be an octet
string; in a generic value neither is accepted.

In both, tags around text, truth values, lists and maps do not matter. A record is a map whose keys
are names: names that the reader does not know are passed over together with their values, a known
name may occur once, and a key that is no name at all makes the record unreadable.
-/

namespace FlagSidecar.Cbor

/-- What typed data can be read from. -/
class Source (σ : Type) where
  isNull : σ → Bool
  text? : σ → Option String
  bool? : σ → Option Bool
  integer? : σ → Option Int
  items? : σ → Option (List σ)
  entries? : σ → Option (List (σ × σ))
  /-- The octets of a key, if it can name a field. -/
  name? : σ → Option Bytes
  /-- Whether a field that nobody asks for can be passed over. -/
  isReadable : σ → Bool

namespace Source

variable {σ : Type} [Source σ]

/-- The fields of a record under the asked names. -/
def fields? (names : List String) (x : σ) : Option (List (String × σ)) := do
  pick (← entries? x)
where
  pick : List (σ × σ) → Option (List (String × σ))
    | [] => some []
    | (key, value) :: rest => do
      let octets ← name? key
      let fields ← pick rest
      match names.find? (Bytes.utf8 · = octets) with
      | none => if isReadable value then some fields else none
      | some name => if (fields.lookup name).isSome then none else some ((name, value) :: fields)

/-- A field that has to be there. -/
def required {α : Type} (fields : List (String × σ)) (name : String) (read : σ → Option α) :
    Option α := do
  read (← fields.lookup name)

/-- A field that may be missing, or null. -/
def optional {α : Type} (fields : List (String × σ)) (name : String) (read : σ → Option α) :
    Option (Option α) :=
  match fields.lookup name with
  | none => some none
  | some x => if isNull x then some none else (read x).map some

def uint8? (x : σ) : Option UInt8 := do Width.uint8? (← integer? x)

def int64? (x : σ) : Option Int64 := do Width.int64? (← integer? x)

def list? {α : Type} (read : σ → Option α) (x : σ) : Option (List α) := do
  (← items? x).mapM read

/-- A map from names to texts, in which the last entry of a name counts. -/
def textMap? (x : σ) : Option (NameMap String) := do
  let entries ← (← entries? x).mapM fun (k, v) => do some ((← text? k), (← text? v))
  some (.ofList entries)

end Source

/-! ## Reading what was written -/

/-- An item inside a message, with the levels of nesting left for it. -/
structure Written where
  levels : Nat
  item : Item

namespace Written

/-- The longest key, in octets, that can name a field. -/
def longestName : Nat := 4096

/-- The magnitude that tagged octets stand for; sixteen octets after the zeros in front are the most. -/
def magnitude? : Item → Option Nat
  | .bytes s =>
    let digits := Bytes.trimZeros s.octets
    if digits.length ≤ 16 then some (Bytes.ofBigEndian digits) else none
  | _ => none

/-- A number as it may be written where a number is asked for: with tags around it, or as octets under
tag 2 or 3. -/
def integerOf? : Item → Option Int
  | .unsigned n => some n.toNat
  | .negative n => some (-1 - n.toNat)
  | .tag number inner =>
    if number = 2 then (magnitude? inner).map fun n => (n : Int)
    else if number = 3 then (magnitude? inner).map fun n => -1 - (n : Int)
    else integerOf? inner
  | _ => none

def isNullItem : Item → Bool
  | .simple n => n == 22 || n == 23
  | _ => false

def textOf? : Item → Option String
  | .text s => s.text?
  | _ => none

def boolOf? : Item → Option Bool
  | .simple n => if n = 20 then some false else if n = 21 then some true else none
  | _ => none

/-- The octets of a key: text or an octet string, written whole and not too long. -/
def nameOf? : Item → Option Bytes
  | .text (.whole octets) =>
    if octets.length ≤ longestName then (Bytes.text? octets).map Bytes.utf8 else none
  | .bytes (.whole octets) => if octets.length ≤ longestName then some octets else none
  | _ => none

def itemsOf? (levels : Nat) : Item → Option (List Written)
  | .array items =>
    match levels with
    | 0 => none
    | levels + 1 => some (items.map (Written.mk levels))
  | .bytes s => some (s.octets.map fun b => ⟨levels, .unsigned b.toUInt64⟩)
  | _ => none

def entriesOf? (levels : Nat) : Item → Option (List (Written × Written))
  | .map entries =>
    match levels with
    | 0 => none
    | levels + 1 => some (entries.map fun e => (⟨levels, e.1⟩, ⟨levels, e.2⟩))
  | _ => none

instance : Source Written where
  isNull x := isNullItem x.item
  text? x := textOf? x.item.untagged
  bool? x := boolOf? x.item.untagged
  integer? x := integerOf? x.item
  items? x := itemsOf? x.levels x.item.untagged
  entries? x := entriesOf? x.levels x.item.untagged
  name? x := nameOf? x.item.untagged
  isReadable x := (Value.ofItem? x.levels x.item).isSome

/-- The generic value of a written item. -/
def value? (x : Written) : Option Value := Value.ofItem? x.levels x.item

/-- Reads one item off the front of octets, to be taken as a message. -/
def read? (bs : Bytes) : Option Written := (Item.read? bs).map fun (item, _) => ⟨nestingLimit, item⟩

end Written

/-! ## Reading generic values -/

namespace Value

def integer? : Value → Option Int
  | .integer n => some n.val
  | .tag number (.bytes octets) =>
    let digits := Bytes.trimZeros octets
    if 16 < digits.length then none
    else if number = 2 then some (Bytes.ofBigEndian digits)
    else if number = 3 then some (-1 - (Bytes.ofBigEndian digits : Int))
    else none
  | _ => none

def isNull : Value → Bool
  | .null => true
  | _ => false

def text? : Value → Option String
  | .text s => some s
  | _ => none

def bool? : Value → Option Bool
  | .bool b => some b
  | _ => none

def items? : Value → Option (List Value)
  | .array items => some items
  | _ => none

def entries? : Value → Option (List (Value × Value))
  | .map entries => some entries
  | _ => none

instance : Source Value where
  isNull := isNull
  text? x := x.untagged.text?
  bool? x := x.untagged.bool?
  integer? := integer?
  items? x := x.untagged.items?
  entries? x := x.untagged.entries?
  name? x := x.untagged.text?.map Bytes.utf8
  isReadable _ := true

end Value

end FlagSidecar.Cbor
