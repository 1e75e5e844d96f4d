import FlagSidecar.Url.Address
import FlagSidecar.Url.Escape
import FlagSidecar.Url.Punycode

/-!
# FlagSidecar.Url.Host: who a URL talks to

In the well-known schemes a host is an address or a domain. A domain is shown in lower case and in
ASCII. In all other schemes a host is an address in brackets or any text without delimiters.
-/

namespace FlagSidecar.Url

/-- A host. -/
inductive Host where
  /-- A domain, or any text; there may be none. -/
  | name (text : String)
  | ipv4 (address : Nat)
  | ipv6 (pieces : List Nat)
deriving DecidableEq

def Host.text : Host → String
  | name text => text
  | ipv4 address => ipv4Text address
  | ipv6 pieces => "[" ++ ipv6Text pieces ++ "]"

/-! ## Domains -/

/-- Ranges of capital letters, and how far their small letters are from them. -/
def capitals : List (Nat × Nat × Nat) :=
  [(0x41, 0x5a, 32), (0xc0, 0xd6, 32), (0xd8, 0xde, 32), (0x391, 0x3a9, 32), (0x400, 0x40f, 80),
    (0x410, 0x42f, 32)]

/-- The small letter of a capital one. -/
def lower (c : Char) : Char :=
  let n := c.toNat
  match capitals.find? fun (first, last, _) => first ≤ n && n ≤ last with
  | some (_, _, distance) => Char.ofNat (n + distance)
  | none => c

/-- The form of a character in which domains are compared: wide characters are as good as ASCII ones,
every full stop is a point, and case does not matter. -/
def domainChar (c : Char) : Char :=
  let n := c.toNat
  if n = 0x3002 ∨ n = 0xff61 then '.'
  else if 0xff01 ≤ n ∧ n ≤ 0xff5e then lower (Char.ofNat (n - 0xfee0))
  else lower c

/-- Is a character passed over in a domain? Hyphens that show only at the end of a line, joints of no
width and selectors of variants are. -/
def isIgnored (c : Char) : Bool :=
  [0xad, 0x34f, 0x200b, 0x2060, 0x2064, 0xfeff].contains c.toNat ||
    (0xfe00 ≤ c.toNat && c.toNat ≤ 0xfe0f)

/-- May a character not occur in any host? -/
def isDelimiter (c : Char) : Bool :=
  ['\x00', '\t', '\n', '\r', ' ', '#', '/', ':', '<', '>', '?', '@', '[', '\\', ']', '^', '|'].contains c

/-- A label in ASCII. -/
def label (cs : List Char) : List Char :=
  if cs.all (·.toNat < 0x80) then cs else "xn--".toList ++ Punycode.encode cs

/-- The ASCII form of a domain, unless it is empty or has a character that no domain has. -/
def domain? (octets : Bytes) : Option (List Char) := do
  let text ← Bytes.text? octets
  let labels := splitAtEach (· == '.') ((text.toList.filter (!isIgnored ·)).map domainChar)
  let ascii := List.intercalate ['.'] (labels.map label)
  if ascii.isEmpty ∨ ascii.any (fun c => isControl c || isDelimiter c || c == '%') then none
  else some ascii

/-! ## Hosts -/

/-- An address in brackets. -/
def bracketed? (cs : List Char) : Option Host :=
  if cs.getLast? = some ']' then (ipv6? (cs.drop 1).dropLast).map .ipv6 else none

/-- The host of a well-known scheme. -/
def specialHost? (cs : List Char) : Option Host :=
  if cs.head? = some '[' then bracketed? cs
  else do
    let ascii ← domain? (unescape cs)
    if endsInNumber ascii then (ipv4? ascii).map .ipv4 else some (.name (String.ofList ascii))

/-- The host of another scheme. -/
def opaqueHost? (cs : List Char) : Option Host :=
  if cs.head? = some '[' then bracketed? cs
  else if cs.any isDelimiter then none
  else some (.name (String.ofList (escape isControl cs)))

/-- The host in each kind of scheme. -/
def host? (special : Bool) (cs : List Char) : Option Host :=
  if special then specialHost? cs else opaqueHost? cs

end FlagSidecar.Url
