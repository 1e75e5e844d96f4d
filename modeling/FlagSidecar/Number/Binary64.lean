import FlagSidecar.Number.Basic

/-!
# FlagSidecar.Number.Binary64: double-precision numbers as exact integers

A double is its 64-bit word. Everything said about its value is said in `Nat`: a finite double has
magnitude `significand · 2^scale` counted in units of the least positive double, `2^-1074`. So no
statement of this library needs the machine's floating-point operations, and rounding is one
function, `ofQuotient`, that takes an exact quotient to the nearest double, ties to the even
significand.

Two doubles are told apart by their words; `Same` is equality up to the payload of a NaN, which is
what the other end of a link can observe.
-/

namespace FlagSidecar

/-- A double-precision number, as its word: sign, eleven exponent bits, 52 fraction bits. -/
structure Binary64 where
  bits : UInt64
deriving DecidableEq, Inhabited

namespace Binary64

/-! ## Fields of the word -/

def word (x : Binary64) : Nat := x.bits.toNat

def ofWord (w : Nat) : Binary64 := ⟨w.toUInt64⟩

def isNegative (x : Binary64) : Bool := decide (2 ^ 63 ≤ x.word)

def exponentField (x : Binary64) : Nat := x.word / 2 ^ 52 % 2 ^ 11

def fractionField (x : Binary64) : Nat := x.word % 2 ^ 52

def isNaN (x : Binary64) : Bool := x.exponentField == 2047 && x.fractionField != 0

def isFinite (x : Binary64) : Bool := x.exponentField != 2047

/-- The significand as an integer: the leading one is implicit unless the exponent field is zero. -/
def significand (x : Binary64) : Nat :=
  if x.exponentField = 0 then x.fractionField else 2 ^ 52 + x.fractionField

/-- The power of two, above `2^-1074`, by which the significand is scaled. -/
def scale (x : Binary64) : Nat := x.exponentField - 1

/-- The absolute value of a finite double, in units of `2^-1074`. -/
def magnitude (x : Binary64) : Nat := x.significand * 2 ^ x.scale

/-- The value of a finite double, in units of `2^-1074`. -/
def scaled (x : Binary64) : Int :=
  if x.isNegative then -(x.magnitude : Int) else x.magnitude

/-- Equal, or both not a number. -/
def Same (x y : Binary64) : Prop := x = y ∨ (x.isNaN = true ∧ y.isNaN = true)

instance (x y : Binary64) : Decidable (Same x y) := inferInstanceAs (Decidable (_ ∨ _))

theorem Same.refl (x : Binary64) : Same x x := .inl rfl

def infinity (negative : Bool) : Binary64 :=
  ofWord ((if negative then 2 ^ 63 else 0) + 2047 * 2 ^ 52)

def zero : Binary64 := ⟨0⟩

/-! ## Rounding -/

/-- The integer nearest to `a / d`, a half going to the even neighbour. -/
def nearest (a d : Nat) : Nat :=
  let q := a / d
  let r := a % d
  if 2 * r < d then q else if d < 2 * r then q + 1 else q + q % 2

/-- The exponent of the unit in the last place, for a magnitude of `q` units whose significand has
`fractionBits` bits after the leading one. -/
def unitExponent (fractionBits q : Nat) : Nat :=
  if q < 2 ^ (fractionBits + 1) then 0 else q.log2 - fractionBits

/-- The double nearest to `num / den`. The significand may round up to `2^53`; added to the exponent
field it carries there, so the sum is the right word in every case. -/
def ofQuotient (negative : Bool) (num den : Nat) : Binary64 :=
  let a := num * 2 ^ 1074
  let e := unitExponent 52 (a / den)
  let w := e * 2 ^ 52 + nearest a (den * 2 ^ e)
  if 2047 * 2 ^ 52 ≤ w then infinity negative
  else ofWord ((if negative then 2 ^ 63 else 0) + w)

/-- The double nearest to an integer; zero is the positive zero. -/
def ofInt (n : Int) : Binary64 := ofQuotient (decide (n < 0)) n.natAbs 1

def ofNat (n : Nat) : Binary64 := ofQuotient false n 1

/-- The double nearest to `digits · 10^exponent`. Exponents far outside the range of a double are
answered without forming the power. -/
def ofDecimal (negative : Bool) (digits : Nat) (exponent : Int) : Binary64 :=
  let length := (digits.log2 : Int) / 3 + 1
  if digits = 0 then ofWord (if negative then 2 ^ 63 else 0)
  else if 400 < exponent then infinity negative
  else if exponent + length < -400 then ofWord (if negative then 2 ^ 63 else 0)
  else if 0 ≤ exponent then ofQuotient negative (digits * 10 ^ exponent.toNat) 1
  else ofQuotient negative digits (10 ^ (-exponent).toNat)

/-- The quotient of two finite non-negative doubles, the second not zero, rounded once. -/
def quotient (x y : Binary64) : Binary64 := ofQuotient false x.magnitude y.magnitude

/-- The product of two finite non-negative doubles, rounded once. -/
def product (x y : Binary64) : Binary64 :=
  ofQuotient false (x.magnitude * y.magnitude) (2 ^ 1074 * 2 ^ 1074)

/-- The opposite sign. -/
def neg (x : Binary64) : Binary64 := ⟨x.bits ^^^ 0x8000000000000000⟩

/-! ## Integers from doubles -/

/-- The largest integer not above a finite double, held within the signed 64-bit range. -/
def floorClamped (x : Binary64) : Int :=
  max (-2 ^ 63) (min (2 ^ 63 - 1) (x.scaled / 2 ^ 1074))

theorem floorClamped_bounds (x : Binary64) : -2 ^ 63 ≤ x.floorClamped ∧ x.floorClamped < 2 ^ 63 :=
  ⟨Int.le_max_left _ _,
    Int.max_lt.mpr ⟨by decide, Int.lt_of_le_of_lt (Int.min_le_left _ _) (by decide)⟩⟩

/-! ## Narrower formats -/

/-- A binary interchange format that is narrower than the double. -/
structure Format where
  exponentBits : Nat
  fractionBits : Nat

/-- Half precision. -/
def Format.half : Format := ⟨5, 10⟩

/-- Single precision. -/
def Format.single : Format := ⟨8, 23⟩

namespace Format

/-- The exponent field of infinities and NaNs. -/
def top (f : Format) : Nat := 2 ^ f.exponentBits - 1

/-- The least positive number of the format, in units of the least positive double: both are powers
of two. -/
def unitShift (f : Format) : Nat := 1074 - (2 ^ (f.exponentBits - 1) - 2 + f.fractionBits)

end Format

/-- The word of a double whose magnitude is `k` units, if `k` has at most 53 significant bits. -/
def assemble (fractionBits k : Nat) : Nat :=
  let e := unitExponent fractionBits k
  e * 2 ^ fractionBits + k / 2 ^ e

/-- The double with the value of a narrower word. A NaN keeps the payload, and becomes quiet. -/
def widen (f : Format) (w : Nat) : Binary64 :=
  let fraction := w % 2 ^ f.fractionBits
  let exponent := w / 2 ^ f.fractionBits % 2 ^ f.exponentBits
  let sign := w / 2 ^ (f.fractionBits + f.exponentBits) % 2 * 2 ^ 63
  if exponent = f.top then
    if fraction = 0 then ofWord (sign + 2047 * 2 ^ 52)
    else ofWord (sign + 2047 * 2 ^ 52 + ((fraction * 2 ^ (52 - f.fractionBits)) ||| 2 ^ 51))
  else
    let m := if exponent = 0 then fraction else 2 ^ f.fractionBits + fraction
    ofWord (sign + assemble 52 (m * 2 ^ (exponent - 1) * 2 ^ f.unitShift))

/-- The narrower word that could stand for a double; whether it does is for `narrow?` to check. -/
def narrowCandidate (f : Format) (x : Binary64) : Nat :=
  let sign := (if x.isNegative then 1 else 0) * 2 ^ (f.fractionBits + f.exponentBits)
  if x.isFinite then
    sign + assemble f.fractionBits (x.magnitude / 2 ^ f.unitShift)
  else
    sign + f.top * 2 ^ f.fractionBits + x.fractionField / 2 ^ (52 - f.fractionBits)

/-- The word of a double in a narrower format, if that keeps every bit. -/
def narrow? (f : Format) (x : Binary64) : Option Nat :=
  let w := narrowCandidate f x
  if w < 2 ^ (1 + f.exponentBits + f.fractionBits) ∧ widen f w = x then some w else none

theorem widen_of_narrow? {f : Format} {x : Binary64} {w : Nat} (h : narrow? f x = some w) :
    widen f w = x ∧ w < 2 ^ (1 + f.exponentBits + f.fractionBits) := by
  simp only [narrow?] at h
  split at h
  · next hc => cases h; exact ⟨hc.2, hc.1⟩
  · cases h

end Binary64

end FlagSidecar
