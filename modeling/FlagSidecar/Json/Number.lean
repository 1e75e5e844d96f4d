import FlagSidecar.Number.Decimal
import FlagSidecar.Number.Text

/-!
# FlagSidecar.Json.Number: the numbers of JSON text

A number is an integer if it is written as one and fits 64 bits, signed or unsigned; every other number
is a double. Minus zero is a double.

Reading a double keeps as many digits as fit an unsigned 64-bit word, counts the rest in the exponent,
rounds the digits to a double and multiplies it with, or divides it by, a power of ten. Writing a
double uses the fewest digits that name it, in the layout that `Layout.json` records.
-/

namespace FlagSidecar.Json

/-- A number of JSON. -/
inductive Number where
  | integer (n : Int)
  | float (x : Binary64)
deriving DecidableEq

/-! ## Writing -/

/-- How the digits of a double are laid out. -/
structure Layout where
  /-- The decimal exponents, of the first digit, for which all places are written out. -/
  lowest : Int
  highest : Int
  /-- The sign of an exponent that is not negative. -/
  plus : List Char

/-- From `0.00001` up to sixteen places before the point all places are written out; elsewhere one digit
stands before the point and the exponent has a sign. -/
def Layout.json : Layout := ⟨-5, 15, ['+']⟩

/-- The text of digits with the point behind the first `point` of them. -/
def placePoint (ds : List Char) (point : Int) : List Char :=
  if point ≤ 0 then ['0', '.'] ++ List.replicate (-point).toNat '0' ++ ds
  else if (ds.length : Int) ≤ point then
    ds ++ List.replicate (point.toNat - ds.length) '0' ++ ['.', '0']
  else ds.take point.toNat ++ '.' :: ds.drop point.toNat

/-- One digit before the point, and an exponent. -/
def scientific (layout : Layout) (ds : List Char) (exponent : Int) : List Char :=
  let mantissa := match ds with
    | d :: rest@(_ :: _) => d :: '.' :: rest
    | ds => ds
  let sign := if exponent < 0 then ['-'] else layout.plus
  mantissa ++ 'e' :: sign ++ Numeral.digits exponent.natAbs

/-- The text of a finite double. -/
def Layout.print (layout : Layout) (x : Binary64) : List Char :=
  let sign := if x.isNegative then ['-'] else []
  if x.magnitude = 0 then sign ++ ['0', '.', '0']
  else
    let d := x.shortest
    let ds := Numeral.digits d.digits
    let exponent := d.exponent + ds.length - 1
    if layout.lowest ≤ exponent ∧ exponent ≤ layout.highest then
      sign ++ placePoint ds (exponent + 1)
    else sign ++ scientific layout ds exponent

/-- The text of a number; a double that is not finite is null. -/
def Number.print : Number → List Char
  | integer n => Numeral.ofInt n
  | float x => if x.isFinite then Layout.json.print x else ['n', 'u', 'l', 'l']

/-! ## Reading -/

/-- The greatest number that an unsigned word holds. -/
def greatestWord : Nat := 2 ^ 64 - 1

/-- The greatest exponent that is told from an infinite one. -/
def greatestExponent : Nat := 2 ^ 31 - 1

/-- Takes digits into a significand as long as it fits a word; leaves the digits from the first that
does not. -/
def takeDigits (significand : Nat) : List Char → Nat × List Char
  | [] => (significand, [])
  | c :: rest =>
    let next := significand * 10 + Numeral.digitValue c
    if next ≤ greatestWord then takeDigits next rest else (significand, c :: rest)

/-- `x · 10^exponent` for a finite double that is not negative. The power is a double itself, so beyond
`10^308` it is taken in steps; a product that is not finite is out of range. -/
def scale : (steps : Nat) → Binary64 → Int → Option Binary64
  | 0, _, _ => some .zero
  | steps + 1, x, exponent =>
    if exponent.natAbs ≤ 308 then
      let power := Binary64.ofDecimal false 1 exponent.natAbs
      if 0 ≤ exponent then
        let y := x.product power
        if y.isFinite then some y else none
      else some (x.quotient power)
    else if x.magnitude = 0 then some x
    else if 0 ≤ exponent then none
    else scale steps (x.quotient (.ofDecimal false 1 308)) (exponent + 308)

def signed (negative : Bool) (x : Binary64) : Binary64 := if negative then x.neg else x

/-- The double of a significand and an exponent, if it is in range. Three steps of `10^308` take every
significand to zero. -/
def ofParts (negative : Bool) (significand : Nat) (exponent : Int) : Option Binary64 :=
  (scale 4 (.ofNat significand) exponent).map (signed negative)

/-- The pieces of a number's text. -/
structure Numerals where
  negative : Bool
  whole : List Char
  /-- The digits behind the point, if there is one. -/
  fraction : Option (List Char)
  /-- The sign and the digits of the exponent, if there is one. -/
  exponent : Option (Bool × List Char)

/-- The number that pieces stand for; none if it is beyond the doubles. -/
def Numerals.number (t : Numerals) : Option Number :=
  let (significand, dropped) := takeDigits 0 t.whole
  match t.fraction, t.exponent, dropped with
  | none, none, [] =>
    if t.negative then
      if significand = 0 ∨ 2 ^ 63 < significand then some (.float (Binary64.ofNat significand).neg)
      else some (.integer (-significand))
    else some (.integer significand)
  | _, _, _ =>
    let fraction := t.fraction.getD []
    let (significand, unused) := takeDigits significand fraction
    let places : Int := dropped.length - (fraction.length - unused.length : Nat)
    match t.exponent with
    | none => (ofParts t.negative significand places).map .float
    | some (negative, ds) =>
      let e := Numeral.value ds
      if greatestExponent < e then
        if significand ≠ 0 ∧ ¬ negative then none
        else some (.float (signed t.negative .zero))
      else
        let exponent := if negative then places - e else places + e
        (ofParts t.negative significand exponent).map .float

namespace Numerals

/-- A minus sign, if there is one. -/
def minus : List Char → Bool × List Char
  | '-' :: rest => (true, rest)
  | cs => (false, cs)

/-- The digits behind a point, if there is a point; without any digit it is none of a number. -/
def fraction? : List Char → Option (Option (List Char) × List Char)
  | '.' :: rest =>
    let (ds, rest) := Numeral.span rest
    if ds.isEmpty then none else some (some ds, rest)
  | cs => some (none, cs)

/-- The sign and the digits of an exponent, if there is one; it has digits as well. -/
def exponent? : List Char → Option (Option (Bool × List Char) × List Char)
  | [] => some (none, [])
  | c :: rest =>
    if c = 'e' ∨ c = 'E' then
      let (negative, rest) := Numeral.sign rest
      let (ds, rest) := Numeral.span rest
      if ds.isEmpty then none else some (some (negative, ds), rest)
    else some (none, c :: rest)

/-- Reads the pieces of a number off the front of text. -/
def read? (cs : List Char) : Option (Numerals × List Char) :=
  let (negative, cs) := minus cs
  let (whole, cs) := Numeral.span cs
  if whole.isEmpty ∨ (whole.head? = some '0' ∧ whole.length ≠ 1) then none
  else do
    let (fraction, cs) ← fraction? cs
    let (exponent, cs) ← exponent? cs
    some (⟨negative, whole, fraction, exponent⟩, cs)

end Numerals

end FlagSidecar.Json
