/-!
# FlagSidecar.Text.Hex: octets as hexadecimal digits

An octet is always two lower-case digits. The other direction accepts both cases and nothing else.
-/

namespace FlagSidecar.Hex

def digit (n : Nat) : Char :=
  if n < 10 then Char.ofNat ('0'.toNat + n) else Char.ofNat ('a'.toNat + (n - 10))

def octet (b : UInt8) : String := String.ofList [digit (b.toNat / 16), digit (b.toNat % 16)]

/-- An octet as texts show it, marked as hexadecimal. -/
def marked (b : UInt8) : String := "0x" ++ octet b

def digit? (c : Char) : Option Nat :=
  if '0' ≤ c ∧ c ≤ '9' then some (c.toNat - '0'.toNat)
  else if 'a' ≤ c ∧ c ≤ 'f' then some (c.toNat - 'a'.toNat + 10)
  else if 'A' ≤ c ∧ c ≤ 'F' then some (c.toNat - 'A'.toNat + 10)
  else none

/-- The octets of pairs of digits. -/
def octets? : List Char → Option (List UInt8)
  | [] => some []
  | [_] => none
  | h :: l :: rest => do
    let h ← digit? h
    let l ← digit? l
    let bs ← octets? rest
    some ((h * 16 + l).toUInt8 :: bs)

def text (bs : List UInt8) : String := String.join (bs.map octet)

end FlagSidecar.Hex
