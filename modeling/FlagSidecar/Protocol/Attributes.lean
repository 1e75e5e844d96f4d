import FlagSidecar.Attribute
import FlagSidecar.Cbor.Value
import FlagSidecar.Number.Width
import FlagSidecar.Time.Rfc3339

/-!
# FlagSidecar.Protocol.Attributes: client attributes made safe

Clients send attributes as arbitrary CBOR maps. What an attribute can hold is kept, by these rules:

| CBOR                      | attribute                          |
|---------------------------|------------------------------------|
| text, truth value, null   | the same                           |
| integer within 64 bits    | integer                            |
| other integer             | nearest float                      |
| float                     | float                              |
| array                     | list, its leading run of texts     |
| tag 0 over RFC 3339 text  | integer, seconds since 1970        |
| tag 1 over a number       | integer, seconds since 1970        |

Everything else is dropped, as are entries whose key is not text. Of the entries of one name the last
that is kept counts.

`Attribute.toCbor` is the form in which a client sends an attribute.
-/

namespace FlagSidecar

open Cbor (Value)

namespace Attribute

/-- The texts that an array begins with. -/
def leadingTexts : List Value → List String
  | .text s :: rest => s :: leadingTexts rest
  | _ => []

/-- Seconds since 1970 as a number says them; a float is rounded down, and held within 64 bits. -/
def epochSeconds? : Value → Option Int64
  | .integer n => Width.int64? n.val
  | .float x => if x.isFinite then some (Int64.ofInt x.floorClamped) else none
  | _ => none

/-- Seconds since 1970 as a text says them. -/
def textSeconds? : Value → Option Int64
  | .text s => (Rfc3339.seconds? s).map Int64.ofInt
  | _ => none

/-- The attribute that a value stands for, if any. -/
def ofCbor? : Value → Option Attribute
  | .null => some .null
  | .bool b => some (.bool b)
  | .text s => some (.str s)
  | .float x => some (.float x)
  | .integer n =>
    match Width.int64? n.val with
    | some i => some (.int i)
    | none => some (.float (.ofInt n.val))
  | .array items => some (.list (leadingTexts items))
  | .tag number inner =>
    if number = 0 then (textSeconds? inner).map .int
    else if number = 1 then (epochSeconds? inner).map .int
    else none
  | .bytes _ => none
  | .map _ => none

/-- An attribute as clients send it. -/
def toCbor : Attribute → Value
  | null => .null
  | bool b => .bool b
  | int n => .ofInt n.toInt
  | float x => .float x
  | str s => .text s
  | list items => .array (items.map .text)

end Attribute

namespace Attributes

/-- The name and the attribute of an entry, if both can be kept. -/
def entryOfCbor? : Value × Value → Option (String × Attribute)
  | (.text name, value) => (Attribute.ofCbor? value).map (name, ·)
  | _ => none

/-- The attributes that can be kept of the entries of a map. -/
def ofCbor (entries : List (Value × Value)) : Attributes :=
  .ofList (entries.filterMap entryOfCbor?)

/-- Attributes as clients send them, in the order of the names. -/
def toCbor (attributes : Attributes) : Value :=
  .map (attributes.entries.map fun e => (.text e.1, e.2.toCbor))

end Attributes

end FlagSidecar
