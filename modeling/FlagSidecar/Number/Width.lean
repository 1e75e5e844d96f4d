import FlagSidecar.Number.Basic

/-!
# FlagSidecar.Number.Width: integers that fit a fixed width

Numbers arrive as unbounded integers and are kept in words of a fixed width. A number outside the
width is refused; it never wraps.
-/

namespace FlagSidecar.Width

def int64? (n : Int) : Option Int64 :=
  if -2 ^ 63 ≤ n ∧ n < 2 ^ 63 then some (Int64.ofInt n) else none

def uint64? (n : Int) : Option UInt64 :=
  if 0 ≤ n ∧ n < 2 ^ 64 then some n.toNat.toUInt64 else none

def uint8? (n : Int) : Option UInt8 :=
  if 0 ≤ n ∧ n < 2 ^ 8 then some n.toNat.toUInt8 else none

@[simp] theorem int64?_toInt (n : Int64) : int64? n.toInt = some n := by
  rw [int64?, if_pos ⟨n.le_toInt, n.toInt_lt⟩, Int64.ofInt_toInt]

@[simp] theorem uint64?_toNat (n : UInt64) : uint64? n.toNat = some n := by
  have h := n.toNat_lt
  have h' : ((n.toNat : Nat) : Int) < 2 ^ 64 := by omega
  simp only [uint64?, Int.toNat_natCast]
  rw [if_pos ⟨by omega, h'⟩]
  simp

@[simp] theorem uint8?_toNat (n : UInt8) : uint8? n.toNat = some n := by
  have h := n.toNat_lt
  have h' : ((n.toNat : Nat) : Int) < 2 ^ 8 := by omega
  simp only [uint8?, Int.toNat_natCast]
  rw [if_pos ⟨by omega, h'⟩]
  simp

/-- A number is accepted exactly when it is the value of the word it becomes. -/
theorem int64?_eq_some_iff {n : Int} {w : Int64} : int64? n = some w ↔ w.toInt = n := by
  constructor
  · intro h
    simp only [int64?] at h
    split at h
    · next hn =>
      cases h
      exact Int64.toInt_ofInt_of_le hn.1 hn.2
    · cases h
  · rintro rfl
    exact int64?_toInt w

theorem int64?_eq_none_iff {n : Int} : int64? n = none ↔ n < -2 ^ 63 ∨ 2 ^ 63 ≤ n := by
  unfold int64?
  split
  next h => exact iff_of_false (by simp) (by omega)
  next h => exact iff_of_true rfl (by omega)

/-- The same of words without a sign. -/
theorem uint64?_eq_some_iff {n : Int} {w : UInt64} : uint64? n = some w ↔ (w.toNat : Int) = n := by
  constructor
  · intro h
    simp only [uint64?] at h
    split at h
    · next hn =>
      cases h
      have hlt : n.toNat < UInt64.size := by
        show n.toNat < 2 ^ 64
        omega
      rw [show n.toNat.toUInt64.toNat = n.toNat from UInt64.toNat_ofNat_of_lt' hlt]
      exact Int.toNat_of_nonneg hn.1
    · cases h
  · rintro rfl
    exact uint64?_toNat w

end FlagSidecar.Width
