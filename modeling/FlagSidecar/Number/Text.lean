import FlagSidecar.Number.Binary64
import FlagSidecar.Number.Width
import FlagSidecar.Text.Numeral

/-!
# FlagSidecar.Number.Text: numbers in the text of an argument

A number may have a sign and stands alone: nothing comes before it or behind it. A double has digits
before the point, behind it or on both sides, and perhaps an exponent; its text names the nearest
double. Infinity and what is not a number have names of their own, in any case of letters.
-/

namespace FlagSidecar

open Numeral (isDigit)

namespace Numeral

/-- The number that digits stand for, if they are digits and there is one. -/
def ofDigits? (ds : List Char) : Option Nat :=
  if ds.isEmpty ∨ ¬ ds.all isDigit then none else some (value ds)

/-- A sign, if there is one; true for minus. -/
def sign : List Char → Bool × List Char
  | '-' :: rest => (true, rest)
  | '+' :: rest => (false, rest)
  | cs => (false, cs)

/-- A whole number with or without a sign. -/
def integer? (cs : List Char) : Option Int :=
  let (negative, ds) := sign cs
  (ofDigits? ds).map fun n => if negative then -n else n

end Numeral

/-- A number that fits 64 bits with a sign. -/
def int64OfText? (s : String) : Option Int64 := Numeral.integer? s.toList >>= Width.int64?

/-- A number that fits 64 bits without a sign; a minus is refused even before zero. -/
def uint64OfText? (s : String) : Option UInt64 :=
  match s.toList with
  | '-' :: _ => none
  | cs => Numeral.integer? cs >>= Width.uint64?

namespace Binary64

/-- Not a number, as its name stands for it. -/
def notANumber (negative : Bool) : Binary64 :=
  ofWord ((if negative then 2 ^ 63 else 0) + 2047 * 2 ^ 52 + 2 ^ 51)

/-- What has a name instead of digits. -/
def named? (negative : Bool) (name : String) : Option Binary64 :=
  if name = "nan" then some (notANumber negative)
  else if name = "inf" ∨ name = "infinity" then some (infinity negative)
  else none

/-- The exponent behind the digits, and nothing else; none written is zero. -/
def exponent? : List Char → Option Int
  | [] => some 0
  | c :: rest => if c = 'e' ∨ c = 'E' then Numeral.integer? rest else none

/-- Digits with a point, or without one, and an exponent. -/
def decimal? (negative : Bool) (cs : List Char) : Option Binary64 :=
  let (whole, cs) := Numeral.span cs
  let (fraction, cs) :=
    match cs with
    | '.' :: rest => Numeral.span rest
    | cs => ([], cs)
  if whole.isEmpty ∧ fraction.isEmpty then none
  else
    (exponent? cs).map fun e =>
      ofDecimal negative (Numeral.value (whole ++ fraction)) (e - fraction.length)

/-- The double that a text names. -/
def ofText? (s : String) : Option Binary64 :=
  let (negative, cs) := Numeral.sign s.toList
  match named? negative (String.ofList (cs.map Char.toLower)) with
  | some x => some x
  | none => decimal? negative cs

end Binary64

end FlagSidecar
