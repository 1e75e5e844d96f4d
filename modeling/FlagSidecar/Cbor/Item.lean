import FlagSidecar.Cbor.Head

/-!
# FlagSidecar.Cbor.Item: data items as they are written

An `Item` is the syntax tree of one CBOR data item. It still tells apart what different writers may
write for the same value: a string written whole from one written in pieces, `undefined` from `null`,
a number from a tagged octet string. What a reader makes of these is decided where a value or a
record is read from an item.

`Item.read?` takes one item off the front of octets and leaves the rest. Every item takes at least one
octet, so twice the length of the input bounds the recursion.
-/

namespace FlagSidecar.Cbor

/-- The octets of a string: all at once, or in pieces that are strings themselves. -/
inductive Strand where
  | whole (octets : Bytes)
  | pieces (octets : List Bytes)
deriving DecidableEq

namespace Strand

def octets : Strand → Bytes
  | whole b => b
  | pieces bs => bs.flatten

/-- The text of a strand. Each piece has to be text by itself. -/
def text? : Strand → Option String
  | whole b => Bytes.text? b
  | pieces bs => do
    let texts ← bs.mapM Bytes.text?
    some (String.join texts)

end Strand

/-- One data item as it is written. -/
inductive Item where
  | unsigned (n : UInt64)
  | negative (n : UInt64)
  | bytes (s : Strand)
  | text (s : Strand)
  | array (items : List Item)
  | map (entries : List (Item × Item))
  | tag (number : UInt64) (inner : Item)
  | simple (n : UInt8)
  | float (x : Binary64)

namespace Item

/-- The kinds of string. -/
inductive StringKind where
  | octets
  | text
deriving DecidableEq

/-- The length that a head announces for a string of a kind, if it announces one. -/
def StringKind.length? : StringKind → Head → Option (Option UInt64)
  | .octets, .bytes n => some n
  | .text, .text n => some n
  | _, _ => none

/-- The pieces of a string up to its stop. A piece may itself come in pieces; `depth` counts the
strings that are open beyond the first. -/
def readPieces (kind : StringKind) : Nat → (depth : Nat) → Bytes → Option (List Bytes × Bytes)
  | 0, _, _ => none
  | fuel + 1, depth, bs => do
    let (head, rest) ← Head.read? bs
    if head = .stop then
      match depth with
      | 0 => some ([], rest)
      | depth + 1 => readPieces kind fuel depth rest
    else
      match ← kind.length? head with
      | none => readPieces kind fuel (depth + 1) rest
      | some n =>
        let (piece, rest) ← Bytes.take? n.toNat rest
        let (pieces, rest) ← readPieces kind fuel depth rest
        some (piece :: pieces, rest)

/-- A string of the announced length, or in pieces if none is announced. -/
def readStrand (kind : StringKind) (fuel : Nat) (length : Option UInt64) (bs : Bytes) :
    Option (Strand × Bytes) :=
  match length with
  | some n => (Bytes.take? n.toNat bs).map fun (octets, rest) => (.whole octets, rest)
  | none => (readPieces kind fuel 0 bs).map fun (pieces, rest) => (.pieces pieces, rest)

mutual

/-- One item, with fuel for at least twice the octets and one more step. -/
def readItem : Nat → Bytes → Option (Item × Bytes)
  | 0, _ => none
  | fuel + 1, bs => do
    let (head, rest) ← Head.read? bs
    match head with
    | .unsigned n => some (.unsigned n, rest)
    | .negative n => some (.negative n, rest)
    | .bytes length =>
      let (s, rest) ← readStrand .octets fuel length rest
      some (.bytes s, rest)
    | .text length =>
      let (s, rest) ← readStrand .text fuel length rest
      some (.text s, rest)
    | .array (some n) =>
      let (items, rest) ← readItems fuel n.toNat rest
      some (.array items, rest)
    | .array none =>
      let (items, rest) ← readItemsToStop fuel rest
      some (.array items, rest)
    | .map (some n) =>
      let (entries, rest) ← readEntries fuel n.toNat rest
      some (.map entries, rest)
    | .map none =>
      let (entries, rest) ← readEntriesToStop fuel rest
      some (.map entries, rest)
    | .tag number =>
      let (inner, rest) ← readItem fuel rest
      some (.tag number inner, rest)
    | .simple n => some (.simple n, rest)
    | .float x => some (.float x, rest)
    | .stop => none

/-- A counted run of items. -/
def readItems : Nat → Nat → Bytes → Option (List Item × Bytes)
  | _, 0, bs => some ([], bs)
  | 0, _ + 1, _ => none
  | fuel + 1, count + 1, bs => do
    let (item, rest) ← readItem fuel bs
    let (items, rest) ← readItems fuel count rest
    some (item :: items, rest)

/-- The items up to a stop. -/
def readItemsToStop : Nat → Bytes → Option (List Item × Bytes)
  | 0, _ => none
  | fuel + 1, bs =>
    match Head.read? bs with
    | some (.stop, rest) => some ([], rest)
    | _ => do
      let (item, rest) ← readItem fuel bs
      let (items, rest) ← readItemsToStop fuel rest
      some (item :: items, rest)

/-- A counted run of key and value pairs. -/
def readEntries : Nat → Nat → Bytes → Option (List (Item × Item) × Bytes)
  | _, 0, bs => some ([], bs)
  | 0, _ + 1, _ => none
  | fuel + 1, count + 1, bs => do
    let (key, rest) ← readItem fuel bs
    let (value, rest) ← readItem fuel rest
    let (entries, rest) ← readEntries fuel count rest
    some ((key, value) :: entries, rest)

/-- The key and value pairs up to a stop, which may stand in place of a key only. -/
def readEntriesToStop : Nat → Bytes → Option (List (Item × Item) × Bytes)
  | 0, _ => none
  | fuel + 1, bs =>
    match Head.read? bs with
    | some (.stop, rest) => some ([], rest)
    | _ => do
      let (key, rest) ← readItem fuel bs
      let (value, rest) ← readItem fuel rest
      let (entries, rest) ← readEntriesToStop fuel rest
      some ((key, value) :: entries, rest)

end

/-- Reads one item off the front of octets; what follows it is left over. -/
def read? (bs : Bytes) : Option (Item × Bytes) := readItem (2 * bs.length + 2) bs

/-! ## Reading past tags -/

/-- The item under all tags. -/
def untagged : Item → Item
  | .tag _ inner => inner.untagged
  | item => item

end Item

end FlagSidecar.Cbor
