/-!
# FlagSidecar.Url.Punycode: names beyond ASCII in ASCII

The ASCII characters of a name come first, then a hyphen if there are any, then numbers that say which
other characters go where. The other characters are taken in increasing order; a number counts the
places passed over since the one before, and is written in base 36 with digits whose thresholds adapt
to the numbers before it.
-/

namespace FlagSidecar.Url.Punycode

def digitChar (d : Nat) : Char :=
  if d < 26 then Char.ofNat ('a'.toNat + d) else Char.ofNat ('0'.toNat + (d - 26))

/-- The threshold of the digit at a position, which goes up by 36 from digit to digit. -/
def threshold (position bias : Nat) : Nat := max 1 (min 26 (position - bias))

/-- Divides by 35 until a number is small; counts 36 for each time. -/
def shrink (delta count : Nat) : Nat × Nat :=
  if 455 < delta then shrink (delta / 35) (count + 36) else (delta, count)
termination_by delta
decreasing_by exact Nat.div_lt_self (by omega) (by omega)

/-- The bias after a number. -/
def adapt (delta written : Nat) (first : Bool) : Nat :=
  let delta := if first then delta / 700 else delta / 2
  let (delta, count) := shrink (delta + delta / written) 0
  count + 36 * delta / (delta + 38)

/-- The digits of a number, the lowest first. -/
def digits (bias position n : Nat) : List Char :=
  let t := threshold position bias
  if n < t then [digitChar n]
  else digitChar (t + (n - t) % (36 - t)) :: digits bias (position + 36) ((n - t) / (36 - t))
termination_by n
decreasing_by
  have h₁ : 1 ≤ threshold position bias := Nat.le_max_left ..
  calc (n - threshold position bias) / (36 - threshold position bias)
      ≤ n - threshold position bias := Nat.div_le_self _ _
    _ < n := by omega

/-- The state of encoding. -/
structure State where
  text : List Char
  delta : Nat := 0
  bias : Nat := 72
  /-- How many characters have found their place. -/
  written : Nat

/-- One character of the name, while the characters equal to `m` are placed. -/
def visit (basic m : Nat) (s : State) (c : Char) : State :=
  if c.toNat < m then { s with delta := s.delta + 1 }
  else if c.toNat = m then
    { text := s.text ++ digits s.bias 36 s.delta
      bias := adapt s.delta (s.written + 1) (s.written == basic)
      written := s.written + 1 }
  else s

/-- Places the characters with these numbers, in increasing order. -/
def place (name : List Char) (basic : Nat) : List Nat → (next : Nat) → State → State
  | [], _, s => s
  | m :: rest, next, s =>
    let s := { s with delta := s.delta + (m - next) * (s.written + 1) }
    let s := name.foldl (visit basic m) s
    place name basic rest (m + 1) { s with delta := s.delta + 1 }

/-- The encoding of a name. -/
def encode (name : List Char) : List Char :=
  let basic := name.filter (·.toNat < 0x80)
  let others := ((name.map Char.toNat).filter (0x80 ≤ ·)).mergeSort.eraseDups
  let start := if basic.isEmpty then [] else basic ++ ['-']
  (place name basic.length others 0x80 { text := start, written := basic.length }).text

end FlagSidecar.Url.Punycode
