import FlagSidecar.Proofs.Queue.Capacity
import Mathlib.Order.Bounds.Basic

/-!
# FlagSidecar.Proofs.Queue.Sizing: the size that is asked for and the slots that there are

A capacity is read off its exponent (`Capacity.toNat_forSize`): the power is above the size, and half of it
is not. Minimality and monotony are comparisons of exponents. What is left are the ends of the range, where
the successor of a size is clamped and where the power above it is beyond a word.

All of this is about numbers, and they go on to the end of the range. A ring does not: it is made only where
there is room for its slots (`Part.Fits`), and from half of the greatest capacity on there is none for slots
of an octet.

Main statements: `Capacity.sizing_exact` and `Ring.not_made_for_every_size`.
-/

namespace FlagSidecar

namespace Capacity

/-- The capacities that a queue for so many items could have: one slot always stays free. -/
def Suits (size : UInt64) : Set Nat := {c | (∃ k, c = 2 ^ k) ∧ 2 ≤ c ∧ size.toNat ≤ c - 1}

/-- **Below the greatest power the capacity is the least that suits.** -/
theorem isLeast_forSize {size : UInt64} (h : size.toNat < 2 ^ 63) :
    IsLeast (Suits size) (forSize size).toNat := by
  obtain ⟨k, hk, hcapacity, habove, hhalf⟩ := toNat_forSize size
  rw [hcapacity]
  have hlt : size.toNat < 2 ^ (k + 1) := by
    rcases habove with hlt | rfl
    · exact hlt
    · exact h
  have htwo : 2 ^ 1 ≤ 2 ^ (k + 1) := Nat.pow_le_pow_right (by omega) (by omega)
  refine ⟨⟨⟨k + 1, rfl⟩, htwo, by omega⟩, ?_⟩
  rintro c ⟨⟨j, rfl⟩, hc, hsize⟩
  -- half of the capacity is no more than the size, which is below the other power
  rcases hhalf with rfl | hhalf
  · exact hc
  · have hkj : k < j := (Nat.pow_lt_pow_iff_right (show 1 < 2 by omega)).mp (by omega)
    exact Nat.pow_le_pow_right (by omega) hkj

/-- From half of the greatest power on the capacity is that power: one slot stays free. -/
theorem toNat_forSize_of_le {size : UInt64} (h : 2 ^ 62 ≤ size.toNat) :
    (forSize size).toNat = 2 ^ 63 := by
  obtain ⟨k, hk, hcapacity, habove, -⟩ := toNat_forSize size
  have htop : k = 62 := by
    rcases habove with hlt | htop
    · have := (Nat.pow_lt_pow_iff_right (show 1 < 2 by omega)).mp (h.trans_lt hlt)
      omega
    · exact htop
  rw [hcapacity, htop]

/-- **Who asks for more gets no less.** -/
theorem forSize_mono {size larger : UInt64} (h : size ≤ larger) : forSize size ≤ forSize larger := by
  obtain ⟨k, hk, hcapacity, -, hhalf⟩ := toNat_forSize size
  obtain ⟨j, -, hcapacity', habove', -⟩ := toNat_forSize larger
  have hle : size.toNat ≤ larger.toNat := UInt64.le_iff_toNat_le.mp h
  have hkj : k ≤ j := by
    rcases hhalf with rfl | hhalf
    · exact Nat.zero_le j
    rcases habove' with habove' | rfl
    · have := (Nat.pow_lt_pow_iff_right (show 1 < 2 by omega)).mp
        (show 2 ^ k < 2 ^ (j + 1) by omega)
      omega
    · exact hk
  rw [UInt64.le_iff_toNat_le, hcapacity, hcapacity']
  exact Nat.pow_le_pow_right (by omega) (by omega)

end Capacity

namespace Ring

variable {α : Type}

/-- The numbers of a ring for a size: it has the capacity of the size, its mask is one less, and so is what it
can hold; that is the size at least, as far as a capacity can be that great. -/
structure SizedFor (size : UInt64) (ring : Ring α) : Prop where
  capacity_eq : ring.capacity = (Capacity.forSize size).toNat
  mask_eq : ring.mask.toNat = ring.capacity - 1
  usable_eq : ring.usable = ring.capacity - 1
  covers : min size.toNat (2 ^ 63 - 1) ≤ ring.usable

theorem sizedFor_forSize (size : UInt64) : (forSize size : Ring α).SizedFor size := by
  have hcapacity : (forSize size : Ring α).capacity = (Capacity.forSize size).toNat := capacity_forSize size
  obtain ⟨k, -, hk, habove, -⟩ := Capacity.toNat_forSize size
  have hpos : 0 < 2 ^ (k + 1) := Nat.two_pow_pos _
  refine ⟨hcapacity, ?_, rfl, ?_⟩
  · have hmask : (forSize size : Ring α).mask = Capacity.forSize size - 1 := by
      show Capacity.forSlots (Capacity.forSize size) - 1 = _
      rw [Capacity.forSlots_eq_self hk]
    have hone : 1 ≤ Capacity.forSize size := by
      rw [UInt64.le_iff_toNat_le, hk]
      exact hpos
    rw [hcapacity, hmask, UInt64.toNat_sub_of_le _ _ hone]
    rfl
  · show _ ≤ (forSize size : Ring α).capacity - 1
    rw [hcapacity, hk]
    rcases habove with hlt | rfl
    · omega
    · omega

/-- **A ring is made exactly if there is room for the slots of its capacity**, and then it is the ring of that
size. -/
theorem forSize?_eq_some_iff {slotSize : Nat} {size : UInt64} {ring : Ring α} :
    forSize? slotSize size = some ring ↔
      (Part.ring (Capacity.forSize size).toNat slotSize).Fits ∧ forSize size = ring := by
  obtain ⟨k, -, hk, -, -⟩ := Capacity.toNat_forSize size
  rw [forSize?, withSlots?, Capacity.forSlots_eq_self hk]
  split
  · rename_i hfits
    rw [Option.some.injEq]
    exact (and_iff_right hfits).symm
  · rename_i hfits
    exact iff_of_false nofun fun h => hfits h.1

/-- From half of the greatest capacity on there is no room for slots of an octet. -/
theorem forSize?_eq_none {slotSize : Nat} {size : UInt64} (hslot : 0 < slotSize) (h : 2 ^ 62 ≤ size.toNat) :
    (forSize? slotSize size : Option (Ring α)) = none := by
  refine Option.eq_none_iff_forall_ne_some.mpr fun ring hring => ?_
  obtain ⟨hfits, -⟩ := forSize?_eq_some_iff.mp hring
  rw [Capacity.toNat_forSize_of_le h] at hfits
  have hoctets : 2 ^ 63 * slotSize ≤ 2 ^ 63 - 1 := hfits
  omega

end Ring

/-- **Sizing is exact over all words.** The capacity for a size is a power of two and two at least; it is
the least that leaves one slot free while there is one, and the greatest power of two beyond that; and it
grows with the size. The successor of the size is clamped and does not wrap. A ring for the size rounds the
capacity to itself, so it never falls back to two slots. It is made exactly if there is room for so many
slots, with the numbers of that capacity; for slots of any octets there is none from `2 ^ 62` on. -/
theorem Capacity.sizing_exact (size : UInt64) :
    (∃ k, (forSize size).toNat = 2 ^ k) ∧ 2 ≤ (forSize size).toNat ∧
      (size.toNat < 2 ^ 63 → IsLeast (Suits size) (forSize size).toNat) ∧
      (2 ^ 63 ≤ size.toNat → (forSize size).toNat = 2 ^ 63) ∧
      (∀ larger, size ≤ larger → forSize size ≤ forSize larger) ∧
      (succClamped size).toNat = min (size.toNat + 1) (2 ^ 64 - 1) ∧
      powerAbove? (max 2 (forSize size)) = some (forSize size) ∧
      ∀ (α : Type) (slotSize : Nat),
        ((forSize size).toNat * slotSize ≤ 2 ^ 63 - 1 →
          ∃ ring : Ring α, Ring.forSize? slotSize size = some ring ∧ ring.SizedFor size) ∧
        (2 ^ 63 - 1 < (forSize size).toNat * slotSize → (Ring.forSize? slotSize size : Option (Ring α)) = none) ∧
        (0 < slotSize → 2 ^ 62 ≤ size.toNat → (Ring.forSize? slotSize size : Option (Ring α)) = none) := by
  obtain ⟨k, -, hk, -, -⟩ := toNat_forSize size
  have htwo : 2 ^ 1 ≤ 2 ^ (k + 1) := Nat.pow_le_pow_right (by omega) (by omega)
  refine ⟨⟨k + 1, hk⟩, hk ▸ htwo, isLeast_forSize,
    fun hsize => toNat_forSize_of_le (by omega), fun _ => forSize_mono, toNat_succClamped size,
    powerAbove?_max_of_toNat_eq hk,
    fun α slotSize => ⟨fun hroom => ?_, fun hnone => ?_, Ring.forSize?_eq_none⟩⟩
  · exact ⟨.forSize size, Ring.forSize?_eq_some_iff.mpr ⟨hroom, rfl⟩, Ring.sizedFor_forSize size⟩
  · exact Option.eq_none_iff_forall_ne_some.mpr fun ring hring =>
      absurd (Ring.forSize?_eq_some_iff.mp hring).1 (Nat.not_le_of_gt hnone)

/-- **Not every size has a ring**: the capacity for `2 ^ 62` items is a word, and no slots of that number are
in one piece. -/
theorem Ring.not_made_for_every_size :
    ¬ ∀ (α : Type) (slotSize : Nat) (size : UInt64), 0 < slotSize →
      ∃ ring : Ring α, forSize? slotSize size = some ring ∧ ring.SizedFor size := by
  intro h
  obtain ⟨ring, hring, -⟩ := h Nat 1 0x4000000000000000 (by decide)
  cases hring.symm.trans (forSize?_eq_none (by decide) (by decide))

end FlagSidecar
