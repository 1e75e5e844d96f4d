import FlagSidecar.Json.Number
import Mathlib.Data.List.TakeDrop

/-!
# FlagSidecar.Proofs.Json.Number: an integer is read back from its text

The digits of an integer have no zero in front, and they end where something comes that is no digit. They
are an integer again as long as a word can hold it, with a sign or without.

Main statements: `Json.Numerals.read?_ofInt` and `Json.Numerals.number_ofInt`.
-/

namespace FlagSidecar

namespace Numeral

theorem digits_ne_nil (n : Nat) : digits n ≠ [] := by
  rw [digits]
  split
  · exact List.cons_ne_nil _ _
  · exact List.append_ne_nil_of_right_ne_nil _ (List.cons_ne_nil _ _)

theorem eq_zero_of_digitChar : ∀ d, d < 10 → digitChar d = '0' → d = 0 := by decide

/-- Only zero begins with a zero. -/
theorem eq_zero_of_head?_digits (n : Nat) (h : (digits n).head? = some '0') : n = 0 := by
  rw [digits] at h
  split at h
  next hlt => exact eq_zero_of_digitChar n hlt (Option.some.inj h)
  next hge =>
    rw [List.head?_append, Option.or_eq_some_iff] at h
    have := h.resolve_right fun h' => digits_ne_nil _ (List.head?_eq_none_iff.mp h'.1)
    have := eq_zero_of_head?_digits (n / 10) this
    omega
termination_by n
decreasing_by omega

/-- Digits end where something comes that is none. -/
theorem span_append {ds rest : List Char} (hds : ∀ c ∈ ds, isDigit c = true)
    (hrest : ∀ c ∈ rest.head?, isDigit c = false) : span (ds ++ rest) = (ds, rest) := by
  have hnone : rest.takeWhile isDigit = [] ∧ rest.dropWhile isDigit = rest := by
    cases rest with
    | nil => exact ⟨rfl, rfl⟩
    | cons c rest =>
      have hc := hrest c rfl
      exact ⟨List.takeWhile_cons_of_neg (by simp [hc]), List.dropWhile_cons_of_neg (by simp [hc])⟩
  rw [span, List.span_eq_takeWhile_dropWhile, List.takeWhile_append_of_pos hds,
    List.dropWhile_append_of_pos hds, hnone.1, hnone.2, List.append_nil]

end Numeral

namespace Json

open Numeral (isDigit digits)

/-- No number goes on like this. -/
def EndsNumber (rest : List Char) : Prop :=
  ∀ c ∈ rest.head?, isDigit c = false ∧ c ≠ '.' ∧ c ≠ 'e' ∧ c ≠ 'E'

theorem endsNumber_nil : EndsNumber [] := fun _ h => nomatch h

namespace Numerals

/-- The pieces of an integer. -/
def ofInt (n : Int) : Numerals := ⟨decide (n < 0), digits n.natAbs, none, none⟩

theorem minus_ofInt (n : Int) (rest : List Char) :
    minus (Numeral.ofInt n ++ rest) = (decide (n < 0), digits n.natAbs ++ rest) := by
  rw [Numeral.ofInt]
  split
  next hn => rw [decide_eq_true hn, List.cons_append, minus]
  next hn =>
    rw [decide_eq_false hn]
    -- what comes first is a digit, and so no sign
    cases hds : digits n.natAbs with
    | nil => exact absurd hds (Numeral.digits_ne_nil _)
    | cons d ds =>
      have hdigit := Numeral.isDigit_of_mem_digits n.natAbs d (by rw [hds]; exact List.mem_cons_self)
      have hd : d ≠ '-' := by
        rintro rfl
        exact absurd hdigit (by decide)
      rw [List.cons_append, minus]
      rintro rest' h
      exact hd (List.cons.inj h).1

theorem fraction?_of_endsNumber {rest : List Char} (h : EndsNumber rest) :
    fraction? rest = some (none, rest) := by
  cases rest with
  | nil => rfl
  | cons c rest =>
    rw [fraction?]
    rintro rest' heq
    exact (h c rfl).2.1 (List.cons.inj heq).1

theorem exponent?_of_endsNumber {rest : List Char} (h : EndsNumber rest) :
    exponent? rest = some (none, rest) := by
  cases rest with
  | nil => rfl
  | cons c rest =>
    obtain ⟨-, -, he, hE⟩ := h c rfl
    rw [exponent?, if_neg (not_or.mpr ⟨he, hE⟩)]

/-- **The pieces of an integer are read back**, and what is behind them is left. -/
theorem read?_ofInt (n : Int) {rest : List Char} (hrest : EndsNumber rest) :
    read? (Numeral.ofInt n ++ rest) = some (ofInt n, rest) := by
  have hspan : Numeral.span (digits n.natAbs ++ rest) = (digits n.natAbs, rest) :=
    Numeral.span_append (Numeral.isDigit_of_mem_digits _) fun c hc => (hrest c hc).1
  have hwhole : ¬ ((digits n.natAbs).isEmpty = true ∨
      ((digits n.natAbs).head? = some '0' ∧ (digits n.natAbs).length ≠ 1)) := by
    rintro (hempty | ⟨hzero, hlength⟩)
    · exact Numeral.digits_ne_nil _ (List.isEmpty_iff.mp hempty)
    · rw [Numeral.eq_zero_of_head?_digits _ hzero, Numeral.digits] at hlength
      exact hlength rfl
  rw [read?, minus_ofInt]
  simp only [hspan, if_neg hwhole, fraction?_of_endsNumber hrest, exponent?_of_endsNumber hrest,
    Option.bind_eq_bind, Option.bind_some]
  rfl

/-! ## The number that the pieces stand for -/

/-- More digits make no number smaller. -/
theorem le_foldl_digits (ds : List Char) (n : Nat) :
    n ≤ ds.foldl (fun n c => n * 10 + Numeral.digitValue c) n := by
  induction ds generalizing n with
  | nil => exact Nat.le_refl n
  | cons c rest ih =>
    have := ih (n * 10 + Numeral.digitValue c)
    rw [List.foldl_cons]
    omega

/-- Digits are taken, all of them, if their number fits a word. -/
theorem takeDigits_of_le {ds : List Char} {n : Nat}
    (h : ds.foldl (fun n c => n * 10 + Numeral.digitValue c) n ≤ greatestWord) :
    takeDigits n ds = (ds.foldl (fun n c => n * 10 + Numeral.digitValue c) n, []) := by
  induction ds generalizing n with
  | nil => rfl
  | cons c rest ih =>
    rw [List.foldl_cons] at h ⊢
    rw [takeDigits, if_pos (Nat.le_trans (le_foldl_digits rest _) h), ih h]

/-- **The pieces stand for their integer**, if a word can hold it. -/
theorem number_ofInt {n : Int} (hlow : -2 ^ 63 ≤ n) (hhigh : n < 2 ^ 64) :
    (ofInt n).number = some (.integer n) := by
  have hvalue : Numeral.value (digits n.natAbs) = n.natAbs := Numeral.value_digits _
  have htake : takeDigits 0 (digits n.natAbs) = (n.natAbs, []) := by
    rw [Numeral.value] at hvalue
    rw [takeDigits_of_le, hvalue]
    rw [hvalue, greatestWord]
    omega
  rw [number]
  simp only [ofInt, htake]
  rcases Int.lt_or_le n 0 with hn | hn
  · rw [decide_eq_true hn, if_pos rfl, if_neg (by omega)]
    congr 2
    omega
  · rw [decide_eq_false (by omega), if_neg Bool.false_ne_true]
    congr 2
    omega

end Numerals

end Json

end FlagSidecar
