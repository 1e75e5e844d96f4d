import FlagSidecar.Number.Binary64

/-!
# FlagSidecar.Number.Decimal: the fewest digits that name a double

Every finite double is the nearest double to an interval of reals. `Binary64.shortest` is a decimal
with the fewest digits in that interval, and the nearest to the double among those. It is found grid
by grid: on the grid of `n`-digit decimals only the two neighbours of the double need a look, because
a grid that meets the interval at all meets it in one of them. All of it is exact integer arithmetic.
-/

namespace FlagSidecar

/-- The number `digits · 10^exponent`. -/
structure Decimal where
  digits : Nat
  exponent : Int
deriving DecidableEq

namespace Decimal

/-- The same number without zeros at the end of its digits. -/
def trim (d : Decimal) : Decimal :=
  if h : d.digits ≠ 0 ∧ d.digits % 10 = 0 then
    have : d.digits / 10 < d.digits := Nat.div_lt_self (Nat.pos_of_ne_zero h.1) (by decide)
    trim ⟨d.digits / 10, d.exponent + 1⟩
  else d
termination_by d.digits

end Decimal

namespace Binary64

/-- Does `10^k ≤ num / den` hold? -/
def tenPowerLE (k : Int) (num den : Nat) : Bool :=
  if 0 ≤ k then 10 ^ k.toNat * den ≤ num else den ≤ num * 10 ^ (-k).toNat

/-- The greatest `k` with `10^k ≤ num / den`. The binary logarithms fix it up to a few steps. -/
def tenExponent (num den : Nat) : Int :=
  let low := Int.fdiv (((num.log2 : Int) - den.log2 - 1) * 30103) 100000 - 1
  [low + 3, low + 2, low + 1].find? (tenPowerLE · num den) |>.getD low

/-- The reals that round to a double, as its own value and both bounds in units of `2^-1076`, with
whether the bounds themselves round to it. -/
structure Basin where
  lower : Nat
  value : Nat
  upper : Nat
  closed : Bool

/-- Half a unit to both sides; only a quarter below a power of two, where the doubles get denser. The
bounds round to the even significand. -/
def basin (x : Binary64) : Basin :=
  let unit := 2 ^ x.scale
  let value := 4 * x.magnitude
  let below := if x.fractionField = 0 ∧ 1 < x.exponentField then unit else 2 * unit
  ⟨value - below, value, value + 2 * unit, x.significand % 2 == 0⟩

namespace Basin

/-- Whether `num / den`, in units of `2^-1076`, lies in the basin. -/
def holds (b : Basin) (num den : Nat) : Bool :=
  if b.closed then b.lower * den ≤ num && num ≤ b.upper * den
  else b.lower * den < num && num < b.upper * den

/-- The multiple of `10^e` nearest to the value among its two neighbours that lie in the basin; an
exact tie goes to the even multiple. -/
def onGrid? (b : Basin) (e : Int) : Option Nat :=
  let up := 2 ^ 1076 * 10 ^ e.toNat
  let down := 10 ^ (-e).toNat
  let value := b.value * down
  let g := value / up
  let low := b.holds (g * up) down
  let high := b.holds ((g + 1) * up) down
  let r := value % up
  if low && high then
    some (if 2 * r < up then g else if up < 2 * r then g + 1 else g + g % 2)
  else if low then some g
  else if high then some (g + 1)
  else none

end Basin

/-- A decimal with the fewest digits that reads back as `x`, and of those the nearest to it. Seventeen
digits always suffice. -/
def shortest (x : Binary64) : Decimal :=
  let b := x.basin
  let k := tenExponent b.value (2 ^ 1076)
  let grids := (List.range 17).map fun (n : Nat) => k - n
  match grids.findSome? fun e => (b.onGrid? e).map (Decimal.mk · e) with
  | some d => d.trim
  | none => ⟨0, 0⟩

end Binary64

end FlagSidecar
