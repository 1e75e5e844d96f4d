import FlagSidecar.Cbor.Item

/-!
# FlagSidecar.Cbor.Value: generic values, and their octets

A `Value` is what a data item means, whatever way it was written. `Value.write` gives each value its
one written form: shortest heads, announced lengths, floats in the narrowest exact format, entries in
the order of the list. `Value.ofItem?` reads every way of writing.

Arrays, maps and tags may nest `nestingLimit` deep; `levels` counts how many are left. A number that
was written as tagged octets (tags 2 and 3) becomes an integer where it fits one.

Main statement, in the proof modules: a value is read back from its written form.
-/

namespace FlagSidecar.Cbor

/-- How deep arrays, maps and tags may nest in one message. -/
def nestingLimit : Nat := 256

/-- An integer that a head can hold. -/
structure Integer where
  val : Int
  lower : -2 ^ 64 ≤ val
  upper : val < 2 ^ 64
deriving DecidableEq

namespace Integer

def ofInt? (n : Int) : Option Integer :=
  if h : -2 ^ 64 ≤ n ∧ n < 2 ^ 64 then some ⟨n, h.1, h.2⟩ else none

def ofUInt64 (n : UInt64) : Integer :=
  ⟨n.toNat, by omega, by have := n.toNat_lt; omega⟩

/-- The integer of a head for negative numbers: `-1 - n`. -/
def ofNegative (n : UInt64) : Integer :=
  ⟨-1 - n.toNat, by have := n.toNat_lt; omega, by omega⟩

def ofUInt8 (n : UInt8) : Integer :=
  ⟨n.toNat, by omega, by have := n.toNat_lt; omega⟩

end Integer

/-- A generic value. Maps keep their entries in order, repeated keys included. -/
inductive Value where
  | null
  | bool (b : Bool)
  | integer (n : Integer)
  | float (x : Binary64)
  | text (s : String)
  | bytes (octets : Bytes)
  | array (items : List Value)
  | map (entries : List (Value × Value))
  | tag (number : UInt64) (inner : Value)

instance : Inhabited Value := ⟨.null⟩

namespace Value

/-! ## Writing -/

/-- The octets of an integer: the negative ones are written as `-1 - n`. -/
def writeInteger (n : Int) : Bytes :=
  if 0 ≤ n then Head.write 0 n.toNat else Head.write 1 (-1 - n).toNat

mutual

/-- The written form of a value. -/
def write : Value → Bytes
  | null => [0xf6]
  | bool false => [0xf4]
  | bool true => [0xf5]
  | integer n => writeInteger n.val
  | float x => Head.writeFloat x
  | text s => let octets := Bytes.utf8 s; Head.write 3 octets.length ++ octets
  | bytes octets => Head.write 2 octets.length ++ octets
  | array items => Head.write 4 items.length ++ writeItems items
  | map entries => Head.write 5 entries.length ++ writeEntries entries
  | tag number inner => Head.write 6 number.toNat ++ write inner

def writeItems : List Value → Bytes
  | [] => []
  | v :: rest => write v ++ writeItems rest

def writeEntries : List (Value × Value) → Bytes
  | [] => []
  | (k, v) :: rest => write k ++ write v ++ writeEntries rest

end

/-! ## Depth -/

mutual

/-- How deep arrays, maps and tags nest in a value. -/
def depth : Value → Nat
  | array items => depthItems items + 1
  | map entries => depthEntries entries + 1
  | tag _ inner => depth inner + 1
  | _ => 0

def depthItems : List Value → Nat
  | [] => 0
  | v :: rest => max (depth v) (depthItems rest)

def depthEntries : List (Value × Value) → Nat
  | [] => 0
  | (k, v) :: rest => max (max (depth k) (depth v)) (depthEntries rest)

end

/-! ## Reading -/

/-- The value of a simple number: the truth values, and null in both spellings. -/
def ofSimple? (n : UInt8) : Option Value :=
  if n = 20 then some (.bool false)
  else if n = 21 then some (.bool true)
  else if n = 22 ∨ n = 23 then some .null
  else none

/-- The value of octets under tag 2 (`negative = false`) or 3: an integer where it fits one, and else
the tag over the octets without zeros in front. A negative number below `-2^127` has no value. -/
def ofBignum? (negative : Bool) (octets : Bytes) : Option Value :=
  let digits := Bytes.trimZeros octets
  let n := Bytes.ofBigEndian digits
  if negative then
    match Integer.ofInt? (-1 - n) with
    | some i => some (.integer i)
    | none => if n < 2 ^ 127 then some (.tag 3 (.bytes digits)) else none
  else
    match Integer.ofInt? n with
    | some i => some (.integer i)
    | none => some (.tag 2 (.bytes digits))

/-- The octets of a number written under tag 2 or 3: written whole, and at most sixteen. -/
def bignumOctets? : Item → Option Bytes
  | .bytes (.whole octets) => if octets.length ≤ 16 then some octets else none
  | _ => none

mutual

/-- The value of an item that nests at most `levels` deep. -/
def ofItem? : (levels : Nat) → Item → Option Value
  | _, .unsigned n => some (.integer (.ofUInt64 n))
  | _, .negative n => some (.integer (.ofNegative n))
  | _, .bytes s => some (.bytes s.octets)
  | _, .text s => s.text?.map .text
  | 0, .array _ => none
  | levels + 1, .array items => (ofItems? levels items).map .array
  | 0, .map _ => none
  | levels + 1, .map entries => (ofEntries? levels entries).map .map
  | levels, .tag number inner =>
    match if number = 2 ∨ number = 3 then bignumOctets? inner else none with
    | some octets => ofBignum? (number == 3) octets
    | none =>
      match levels with
      | 0 => none
      | levels + 1 => (ofItem? levels inner).map (.tag number)
  | _, .simple n => ofSimple? n
  | _, .float x => some (.float x)

def ofItems? : (levels : Nat) → List Item → Option (List Value)
  | _, [] => some []
  | levels, item :: rest => do
    let v ← ofItem? levels item
    let vs ← ofItems? levels rest
    some (v :: vs)

def ofEntries? : (levels : Nat) → List (Item × Item) → Option (List (Value × Value))
  | _, [] => some []
  | levels, (key, value) :: rest => do
    let k ← ofItem? levels key
    let v ← ofItem? levels value
    let es ← ofEntries? levels rest
    some ((k, v) :: es)

end

/-- Reads one value off the front of octets; what follows it is left over and does not matter. -/
def read? (bs : Bytes) : Option Value := do
  let (item, _) ← Item.read? bs
  ofItem? nestingLimit item

/-- The value under all tags. -/
def untagged : Value → Value
  | tag _ inner => inner.untagged
  | v => v

/-! ## Building -/

def ofInt (n : Int) : Value :=
  match Integer.ofInt? n with
  | some i => .integer i
  | none => .null

/-- A map with text keys. -/
def record (fields : List (String × Value)) : Value :=
  .map (fields.map fun f => (.text f.1, f.2))

end Value

end FlagSidecar.Cbor
