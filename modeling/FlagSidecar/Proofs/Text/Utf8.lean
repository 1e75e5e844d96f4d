import FlagSidecar.Bytes

/-!
# FlagSidecar.Proofs.Text.Utf8: texts compare as their octets do

The order of texts is that of their code points. It is also the order of their octets, and this is what
UTF-8 is made for: the first octet of a character grows with the number of octets behind it, and those
have the remaining bits of the code, the most significant first.

Main statement: `Bytes.utf8_lt_utf8_iff`.
-/

namespace FlagSidecar.Bytes

/-! ## The octets of a character -/

/-- How many octets follow the first one of a character. -/
def trailing (code : Nat) : Nat :=
  if code ≤ 0x7f then 0 else if code ≤ 0x7ff then 1 else if code ≤ 0xffff then 2 else 3

/-- The bits that say how many octets follow. -/
def mark : (trailing : Nat) → Nat
  | 0 => 0
  | 1 => 0xc0
  | 2 => 0xe0
  | _ => 0xf0

/-- The first octet of a character: the mark, with the bits that the others have no room for. -/
def lead (code : Nat) : Nat := code / 64 ^ trailing code + mark (trailing code)

/-- The last octets of a character, each with six bits of its code. -/
def trail : (count : Nat) → (code : Nat) → Bytes
  | 0, _ => []
  | count + 1, code => UInt8.ofNat (code / 64 ^ count % 64 + 0x80) :: trail count code

theorem code_lt (c : Char) : c.val.toNat < 0x110000 := by
  rcases c.valid with h | h
  · exact Nat.lt_trans h (by decide)
  · exact h.2

theorem utf8EncodeChar_eq (c : Char) :
    String.utf8EncodeChar c =
      UInt8.ofNat (lead c.val.toNat) :: trail (trailing c.val.toNat) c.val.toNat := by
  have hlt := code_lt c
  unfold String.utf8EncodeChar lead trailing
  generalize c.val.toNat = n at hlt
  -- no code needs more bits than the first octet has for it, so the remainder there is the quotient
  simp only
  split
  · simp [trail, mark]
  · split
    · have hdiv : n / 64 % 0x20 = n / 64 := by omega
      simp [trail, mark, hdiv]
    · split
      · have hdiv : n / 4096 % 0x10 = n / 4096 := by omega
        simp [trail, mark, hdiv]
      · have hdiv : n / 262144 % 8 = n / 262144 := by omega
        simp [trail, mark, hdiv]

/-! ## The order of characters -/

variable {m n : Nat}

theorem trailing_mono (h : m ≤ n) : trailing m ≤ trailing n := by
  unfold trailing
  repeat' split
  all_goals omega

theorem lead_lt (h : n < 0x110000) : lead n < 256 := by
  unfold lead trailing
  repeat' split
  all_goals simp only [mark]; omega

/-- The mark decides, whatever the other bits are. -/
theorem lead_lt_of_trailing_lt (hm : m < 0x110000) (h : trailing m < trailing n) :
    lead m < lead n := by
  unfold lead
  unfold trailing at *
  repeat' split
  all_goals simp_all [mark]
  all_goals omega

/-- Codes that differ only in their last bits compare as the octets that have these. The induction is on
the number of octets; if the first of them are equal, the codes differ in fewer bits. -/
theorem trail_append_lt {count : Nat} (hhigh : m / 64 ^ count = n / 64 ^ count) (h : m < n)
    (x y : Bytes) : trail count m ++ x < trail count n ++ y := by
  induction count with
  | zero =>
    rw [Nat.pow_zero, Nat.div_one, Nat.div_one] at hhigh
    exact absurd hhigh (Nat.ne_of_lt h)
  | succ count ih =>
    have hle : m / 64 ^ count ≤ n / 64 ^ count := Nat.div_le_div_right (Nat.le_of_lt h)
    rw [Nat.pow_succ, ← Nat.div_div_eq_div_mul, ← Nat.div_div_eq_div_mul] at hhigh
    rw [trail, trail, List.cons_append, List.cons_append, List.cons_lt_cons_iff,
      UInt8.lt_iff_toNat_lt, UInt8.toNat_ofNat', UInt8.toNat_ofNat']
    rcases Nat.eq_or_lt_of_le hle with heq | hlt
    · right
      exact ⟨by rw [heq], ih heq⟩
    · left
      omega

/-- **Characters compare as their octets do**, whatever follows them. -/
theorem utf8EncodeChar_append_lt {c d : Char} (h : c < d) (x y : Bytes) :
    String.utf8EncodeChar c ++ x < String.utf8EncodeChar d ++ y := by
  have hlt : c.val.toNat < d.val.toNat := h
  have hc := code_lt c
  have hd := code_lt d
  rw [utf8EncodeChar_eq, utf8EncodeChar_eq]
  generalize c.val.toNat = m at *
  generalize d.val.toNat = n at *
  have hleads : UInt8.ofNat (lead m) < UInt8.ofNat (lead n) ↔ lead m < lead n := by
    rw [UInt8.lt_iff_toNat_lt, UInt8.toNat_ofNat_of_lt' (lead_lt hc),
      UInt8.toNat_ofNat_of_lt' (lead_lt hd)]
  rw [List.cons_append, List.cons_append, List.cons_lt_cons_iff, hleads]
  rcases Nat.eq_or_lt_of_le (trailing_mono (Nat.le_of_lt hlt)) with hcount | hcount
  · have hle : m / 64 ^ trailing n ≤ n / 64 ^ trailing n := Nat.div_le_div_right (Nat.le_of_lt hlt)
    rcases Nat.eq_or_lt_of_le hle with hhigh | hhigh
    · right
      refine ⟨?_, ?_⟩
      · unfold lead
        rw [hcount, hhigh]
      · rw [hcount]
        exact trail_append_lt hhigh hlt x y
    · left
      unfold lead
      rw [hcount]
      exact Nat.add_lt_add_right hhigh _
  · left
    exact lead_lt_of_trailing_lt hc hcount

/-! ## The order of texts -/

theorem utf8_eq_flatMap (s : String) : utf8 s = s.toList.flatMap String.utf8EncodeChar := by
  conv => lhs; rw [← String.ofList_toList (s := s)]
  rw [utf8, String.toByteArray_ofList, List.utf8Encode, List.data_toByteArray]

theorem flatMap_utf8EncodeChar_lt {cs ds : List Char} (h : cs < ds) :
    cs.flatMap String.utf8EncodeChar < ds.flatMap String.utf8EncodeChar := by
  induction cs generalizing ds with
  | nil =>
    cases ds with
    | nil => exact absurd h (List.lt_irrefl _)
    | cons d ds =>
      rw [List.flatMap_nil, List.flatMap_cons, utf8EncodeChar_eq]
      exact List.nil_lt_cons _ _
  | cons c cs ih =>
    cases ds with
    | nil => exact absurd h (List.not_lt_nil _)
    | cons d ds =>
      rw [List.flatMap_cons, List.flatMap_cons]
      rcases List.cons_lt_cons_iff.mp h with hlt | ⟨rfl, hlt⟩
      · exact utf8EncodeChar_append_lt hlt _ _
      · exact List.append_left_lt (ih hlt)

/-- **Texts compare as their octets do.** -/
theorem utf8_lt_utf8_iff {s t : String} : utf8 s < utf8 t ↔ s < t := by
  have hmono {s t : String} (h : s < t) : utf8 s < utf8 t := by
    rw [utf8_eq_flatMap, utf8_eq_flatMap]
    exact flatMap_utf8EncodeChar_lt h
  refine ⟨fun h => Decidable.byContradiction fun hnot => ?_, hmono⟩
  -- otherwise the octets would compare the other way, or be the same
  by_cases hgt : t < s
  · exact List.lt_asymm h (hmono hgt)
  · have heq : s = t := String.le_antisymm (String.not_lt.mp hgt) (String.not_lt.mp hnot)
    rw [heq] at h
    exact List.lt_irrefl _ h

end FlagSidecar.Bytes
