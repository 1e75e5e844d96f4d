import FlagSidecar.Bytes
import FlagSidecar.Text.Hex

/-!
# FlagSidecar.Url.Escape: characters that a part of a URL writes as octets

Each part of a URL has characters that it cannot hold as they are: it holds the octets of their UTF-8
instead, each as a percent sign and two upper-case hexadecimal digits. A percent sign that is there
already stays.
-/

namespace FlagSidecar.Url

/-- Is a character written as octets in every part? -/
def isControl (c : Char) : Bool := c.toNat < 0x20 || 0x7f ≤ c.toNat

def escapedInFragment (c : Char) : Bool := isControl c || [' ', '"', '<', '>', '\x60'].contains c

def escapedInPath (c : Char) : Bool := escapedInFragment c || ['#', '?', '{', '}'].contains c

def escapedInCredentials (c : Char) : Bool :=
  escapedInPath c || ['/', ':', ';', '=', '@', '[', '\\', ']', '^', '|'].contains c

/-- A query of the well-known schemes writes an apostrophe as an octet too. -/
def escapedInQuery (special : Bool) (c : Char) : Bool :=
  isControl c || [' ', '"', '#', '<', '>'].contains c || (special && c == '\'')

def upperDigit (n : Nat) : Char :=
  if n < 10 then Char.ofNat ('0'.toNat + n) else Char.ofNat ('A'.toNat + (n - 10))

def escapeOctet (b : UInt8) : List Char := ['%', upperDigit (b.toNat / 16), upperDigit (b.toNat % 16)]

/-- Writes the characters that a part cannot hold as octets. -/
def escape (escaped : Char → Bool) (cs : List Char) : List Char :=
  cs.flatMap fun c => if escaped c then (String.utf8EncodeChar c).flatMap escapeOctet else [c]

/-- The octets that characters stand for. A percent sign without two digits behind it is itself. -/
def unescape : List Char → Bytes
  | '%' :: h :: l :: rest =>
    match Hex.digit? h, Hex.digit? l with
    | some h, some l => (h * 16 + l).toUInt8 :: unescape rest
    | _, _ => String.utf8EncodeChar '%' ++ unescape (h :: l :: rest)
  | c :: rest => String.utf8EncodeChar c ++ unescape rest
  | [] => []

end FlagSidecar.Url
