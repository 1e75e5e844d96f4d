/-!
# FlagSidecar.Text.Numeral: whole numbers in decimal digits

Main statement: `value_digits`, a number is read back from its digits.
-/

namespace FlagSidecar.Numeral

def isDigit (c : Char) : Bool := '0' ≤ c && c ≤ '9'

def digitValue (c : Char) : Nat := c.toNat - '0'.toNat

def digitChar (d : Nat) : Char := Char.ofNat ('0'.toNat + d)

/-- The decimal digits of a number, without zeros in front. -/
def digits (n : Nat) : List Char :=
  if h : n < 10 then [digitChar n]
  else
    have : n / 10 < n := Nat.div_lt_self (by omega) (by decide)
    digits (n / 10) ++ [digitChar (n % 10)]
termination_by n

/-- The number that digits stand for. -/
def value (ds : List Char) : Nat := ds.foldl (fun n c => n * 10 + digitValue c) 0

/-- A whole number, with a minus sign in front if it is negative. -/
def ofInt (n : Int) : List Char :=
  if n < 0 then '-' :: digits n.natAbs else digits n.natAbs

/-- The digits that a text begins with, and the rest. -/
def span (cs : List Char) : List Char × List Char := cs.span isDigit

theorem digitValue_digitChar : ∀ d, d < 10 → digitValue (digitChar d) = d := by decide

theorem isDigit_digitChar : ∀ d, d < 10 → isDigit (digitChar d) = true := by decide

/-- A number is read back from its digits. -/
theorem value_digits (n : Nat) : value (digits n) = n := by
  rw [digits]
  split
  · next h => simp [value, digitValue_digitChar n h]
  · next h =>
    have ih := value_digits (n / 10)
    simp only [value] at ih
    simp only [value, List.foldl_append, List.foldl_cons, List.foldl_nil, ih,
      digitValue_digitChar _ (Nat.mod_lt n (by decide))]
    omega
termination_by n
decreasing_by omega

/-- Digits are digits. -/
theorem isDigit_of_mem_digits (n : Nat) : ∀ c ∈ digits n, isDigit c = true := by
  rw [digits]
  split
  · next h => simp [isDigit_digitChar n h]
  · next h =>
    intro c hc
    rcases List.mem_append.1 hc with hc | hc
    · exact isDigit_of_mem_digits (n / 10) c hc
    · rw [List.mem_singleton.1 hc]
      exact isDigit_digitChar _ (Nat.mod_lt n (by decide))
termination_by n
decreasing_by omega

end FlagSidecar.Numeral
