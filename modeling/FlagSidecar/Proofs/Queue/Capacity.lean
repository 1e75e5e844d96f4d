import FlagSidecar.Queue.Ring
import Mathlib.Data.UInt

/-!
# FlagSidecar.Proofs.Queue.Capacity: how many slots a queue gets

A capacity is a power of two, two at least, and the least of those that leave one slot free, as far as a
word can say it. Rounding up a second time changes nothing, so a ring for a size has the slots that were
meant for it.

Main statements: `Capacity.toNat_forSlots`, `Capacity.toNat_forSize`, `Ring.capacity_forSize`.
-/

namespace FlagSidecar

namespace Capacity

/-- The power above a number is the least: the half of it is below the number. -/
theorem powerAbove_eq_two_pow {n : Nat} (h : 2 ≤ n) :
    ∃ k, powerAbove n = 2 ^ (k + 1) ∧ 2 ^ k < n ∧ n ≤ 2 ^ (k + 1) := by
  have hle : 2 ^ (n - 1).log2 ≤ n - 1 := Nat.log2_self_le (by omega)
  have hlt : n - 1 < 2 ^ ((n - 1).log2 + 1) := Nat.lt_log2_self
  refine ⟨(n - 1).log2, ?_, by omega, by omega⟩
  rw [powerAbove, if_neg (by omega)]

/-- A word that is not beyond the greatest power has a word for the power above it. -/
theorem powerAbove?_eq_some {n : UInt64} (hlow : 2 ≤ n.toNat) (hhigh : n.toNat ≤ 2 ^ 63) :
    ∃ (power : UInt64) (k : Nat), powerAbove? n = some power ∧ k ≤ 62 ∧
      power.toNat = 2 ^ (k + 1) ∧ 2 ^ k < n.toNat ∧ n.toNat ≤ 2 ^ (k + 1) := by
  obtain ⟨k, hpower, hbelow, habove⟩ := powerAbove_eq_two_pow hlow
  have hk : k < 63 := (Nat.pow_lt_pow_iff_right (show 1 < 2 by omega)).mp
    (Nat.lt_of_lt_of_le hbelow hhigh)
  have hword : 2 ^ (k + 1) < 2 ^ 64 := Nat.pow_lt_pow_right (by omega) (by omega)
  refine ⟨(2 ^ (k + 1)).toUInt64, k, ?_, by omega, UInt64.toNat_ofNat_of_lt' hword, hbelow, habove⟩
  have hle : n ≤ greatest := UInt64.le_iff_toNat_le.mpr hhigh
  rw [powerAbove?, if_pos hle, hpower]

/-- A ring gets a power of two of slots: at least two, and no more than a word can count. -/
theorem toNat_forSlots (slots : UInt64) :
    ∃ k, 1 ≤ k ∧ k ≤ 63 ∧ (forSlots slots).toNat = 2 ^ k := by
  have htwo : 2 ≤ (max 2 slots).toNat := by
    rw [UInt64.toNat_max]
    exact Nat.le_max_left _ _
  rcases Nat.lt_or_ge (2 ^ 63) (max 2 slots).toNat with hhigh | hhigh
  · have hle : ¬ max 2 slots ≤ greatest := fun h =>
      Nat.not_le_of_lt hhigh (UInt64.le_iff_toNat_le.mp h)
    refine ⟨1, by omega, by omega, ?_⟩
    rw [forSlots, powerAbove?, if_neg hle]
    rfl
  · obtain ⟨power, k, hsome, hk, hpower, -, -⟩ := powerAbove?_eq_some htwo hhigh
    refine ⟨k + 1, by omega, by omega, ?_⟩
    rw [forSlots, hsome]
    exact hpower

/-- A power of two is rounded to itself, so the rounding always comes to something. -/
theorem powerAbove?_max_of_toNat_eq {slots : UInt64} {k : Nat} (h : slots.toNat = 2 ^ (k + 1)) :
    powerAbove? (max 2 slots) = some slots := by
  have hlt : 2 ^ (k + 1) < 2 ^ 64 := h ▸ slots.toNat_lt
  have hk : k < 63 := by
    have := (Nat.pow_lt_pow_iff_right (show 1 < 2 by omega)).mp hlt
    omega
  have hhigh : 2 ^ (k + 1) ≤ 2 ^ 63 := Nat.pow_le_pow_right (by omega) (by omega)
  have hmax : (max 2 slots).toNat = 2 ^ (k + 1) := by
    rw [UInt64.toNat_max, h]
    have := Nat.pow_le_pow_right (show 0 < 2 by omega) (show 1 ≤ k + 1 by omega)
    exact Nat.max_eq_right this
  have htwo : 2 ≤ (max 2 slots).toNat := by
    rw [UInt64.toNat_max]
    exact Nat.le_max_left _ _
  obtain ⟨power, j, hsome, -, hpower, hbelow, habove⟩ :=
    powerAbove?_eq_some htwo (hmax ▸ hhigh)
  -- between half of a power of two and the power there is no other
  rw [hmax] at hbelow habove
  have hlow := (Nat.pow_lt_pow_iff_right (show 1 < 2 by omega)).mp hbelow
  have hle := (Nat.pow_le_pow_iff_right (show 1 < 2 by omega)).mp habove
  have hj : j = k := by omega
  rw [hsome, Option.some.injEq, ← UInt64.toNat_inj, hpower, hj, h]

/-- **A power of two of slots is not rounded.** -/
theorem forSlots_eq_self {slots : UInt64} {k : Nat} (h : slots.toNat = 2 ^ (k + 1)) :
    forSlots slots = slots := by
  rw [forSlots, powerAbove?_max_of_toNat_eq h, Option.getD_some]

theorem toNat_succClamped (n : UInt64) :
    (succClamped n).toNat = min (n.toNat + 1) (2 ^ 64 - 1) := by
  have hn := n.toNat_lt
  have hadd : (n + 1).toNat = (n.toNat + 1) % 2 ^ 64 := UInt64.toNat_add n 1
  unfold succClamped
  split
  next hzero =>
    rw [hzero] at hadd
    have : (0 : UInt64).toNat = 0 := rfl
    omega
  next hne =>
    have : (n + 1).toNat ≠ 0 := fun h => hne (UInt64.toNat_inj.mp h)
    omega

/-- **A queue gets the least power of two above its size**, and two slots at least. Where that power is
beyond a word it gets the greatest that is not. -/
theorem toNat_forSize (size : UInt64) :
    ∃ k, k ≤ 62 ∧ (forSize size).toNat = 2 ^ (k + 1) ∧
      (size.toNat < 2 ^ (k + 1) ∨ k = 62) ∧ (k = 0 ∨ 2 ^ k ≤ size.toNat) := by
  have hsucc := toNat_succClamped size
  rcases Nat.lt_or_ge (2 ^ 63) (succClamped size).toNat with hhigh | hhigh
  · have hle : ¬ succClamped size ≤ greatest := fun h =>
      Nat.not_le_of_lt hhigh (UInt64.le_iff_toNat_le.mp h)
    refine ⟨62, by omega, ?_, .inr rfl, by omega⟩
    rw [forSize, powerAbove?, if_neg hle]
    rfl
  · rcases Nat.lt_or_ge (succClamped size).toNat 2 with hone | htwo
    · have hzero : size = 0 := UInt64.toNat_inj.mp (show size.toNat = 0 by omega)
      subst hzero
      exact ⟨0, by omega, rfl, .inl (by decide), .inl rfl⟩
    · obtain ⟨power, k, hsome, hk, hpower, hbelow, habove⟩ := powerAbove?_eq_some htwo hhigh
      have := Nat.pow_le_pow_right (show 0 < 2 by omega) (show 1 ≤ k + 1 by omega)
      refine ⟨k, hk, ?_, .inl (by omega), .inr (by omega)⟩
      rw [forSize, hsome, Option.getD_some, UInt64.toNat_max, hpower]
      exact Nat.max_eq_right this

end Capacity

/-- **A ring for a size has the slots that are meant for it.** -/
theorem Ring.capacity_forSize {α : Type} (size : UInt64) :
    (forSize size : Ring α).capacity = (Capacity.forSize size).toNat := by
  obtain ⟨k, -, hk, -, -⟩ := Capacity.toNat_forSize size
  rw [capacity, forSize, withSlots, Capacity.forSlots_eq_self hk, Array.size_replicate]

end FlagSidecar
