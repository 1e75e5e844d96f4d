import FlagSidecar.Cbor.Head

/-!
# FlagSidecar.Proofs.Cbor.Head: a head is read back from its octets

A writer chooses the shortest of five widths, a reader takes whichever it meets. What has to agree is
the initial octet (three bits of major type, five bits that give the argument or its width) and the
argument behind it.

Main statements: `read?_write` (a head with an argument below `2^64`) and `read?_writeFloat` (a float,
to the last bit). Both leave whatever follows untouched.
-/

namespace FlagSidecar.Cbor.Head

open Bytes (bigEndian ofBigEndian)

/-- The width of an argument makes a difference to simple numbers and floats only. -/
theorem ofArgument_width {major : Nat} (hm : major ≤ 6) (width n : Nat) :
    ofArgument major width n = ofArgument major 0 n := by
  match major, hm with
  | 0, _ | 1, _ | 2, _ | 3, _ | 4, _ | 5, _ | 6, _ => rfl

/-- An initial octet keeps its major type and its low bits apart. -/
theorem toNat_initial {major low : Nat} (hm : major < 8) (hl : low < 32) :
    (major * 32 + low).toUInt8.toNat / 32 = major ∧ (major * 32 + low).toUInt8.toNat % 32 = low := by
  have h : (major * 32 + low).toUInt8.toNat = major * 32 + low := by
    simp only [Nat.toUInt8_eq, UInt8.toNat_ofNat']
    omega
  rw [h]
  omega

/-- An argument below 24 is held by the initial octet. -/
theorem read?_short {major n : Nat} (hm : major < 8) (hn : n < 24) (rest : Bytes) :
    read? ((major * 32 + n).toUInt8 :: rest) = some (ofArgument major 0 n, rest) := by
  obtain ⟨hmajor, hlow⟩ := toNat_initial hm (show n < 32 by omega)
  simp only [read?, hmajor, hlow]
  rw [if_pos hn]

/-- Any other argument follows in the width that the low bits announce. -/
theorem read?_long {major low width n : Nat} (hm : major < 8) (hl : 24 ≤ low ∧ low < 31)
    (hw : argumentWidth low = some width) (hn : n < 256 ^ width) (rest : Bytes) :
    read? ((major * 32 + low).toUInt8 :: bigEndian width n ++ rest) =
      some (ofArgument major width n, rest) := by
  obtain ⟨hmajor, hlow⟩ := toNat_initial hm (show low < 32 by omega)
  have htake : Bytes.take? width (bigEndian width n ++ rest) = some (bigEndian width n, rest) := by
    have := Bytes.take?_append (bigEndian width n) rest
    rwa [Bytes.length_bigEndian] at this
  have hread : ofBigEndian (bigEndian width n) = n := by
    rw [Bytes.ofBigEndian_bigEndian, Nat.mod_eq_of_lt hn]
  simp only [List.cons_append, read?, hmajor, hlow]
  rw [if_neg (by omega), if_neg (by omega), hw]
  simp only [Option.bind_eq_bind, Option.bind_some, htake, hread]

/-- **A head is read back**, whatever follows it. -/
theorem read?_write {major n : Nat} (hm : major ≤ 6) (hn : n < 2 ^ 64) (rest : Bytes) :
    read? (write major n ++ rest) = some (ofArgument major 0 n, rest) := by
  have hm' : major < 8 := by omega
  unfold write
  split
  · next h => exact read?_short hm' h rest
  split
  · next h => rw [read?_long hm' (by omega) rfl (by simpa using h), ofArgument_width hm]
  split
  · next h => rw [read?_long hm' (by omega) rfl (by simpa using h), ofArgument_width hm]
  split
  · next h => rw [read?_long hm' (by omega) rfl (by simpa using h), ofArgument_width hm]
  · rw [read?_long hm' (by omega) rfl (by simpa using hn), ofArgument_width hm]

/-- A head takes at least one octet. -/
theorem length_write_pos (major n : Nat) : 0 < (write major n).length := by
  unfold write
  split
  · simp
  split
  · simp
  split
  · simp
  split <;> simp

/-- **A float is read back to the last bit**: the narrowest format was chosen among those that keep
every bit, so widening restores the word. -/
theorem read?_writeFloat (x : Binary64) (rest : Bytes) :
    read? (writeFloat x ++ rest) = some (.float x, rest) := by
  unfold writeFloat
  split
  · next w h =>
    obtain ⟨hx, hw⟩ := Binary64.widen_of_narrow? h
    rw [← hx]
    exact read?_long (show 7 < 8 by decide) (show 24 ≤ 25 ∧ 25 < 31 by decide) rfl hw rest
  · next w _ h =>
    obtain ⟨hx, hw⟩ := Binary64.widen_of_narrow? h
    rw [← hx]
    exact read?_long (show 7 < 8 by decide) (show 24 ≤ 26 ∧ 26 < 31 by decide) rfl hw rest
  · have hw : x.word < 256 ^ 8 := x.bits.toNat_lt
    have hx : Binary64.ofWord x.word = x := by simp [Binary64.ofWord, Binary64.word]
    have := read?_long (show 7 < 8 by decide) (show 24 ≤ 27 ∧ 27 < 31 by decide) rfl hw rest
    rwa [show ofArgument 7 8 x.word = .float x from congrArg Head.float hx] at this

theorem length_writeFloat_pos (x : Binary64) : 0 < (writeFloat x).length := by
  unfold writeFloat
  split <;> simp

end FlagSidecar.Cbor.Head
