import FlagSidecar.Proofs.Text.Utf8
import FlagSidecar.Url.Parser
import Mathlib.Data.List.Induction
import Mathlib.Tactic.FinCases
import Mathlib.Tactic.ByContra

/-!
# FlagSidecar.Proofs.Url.Escape: what is escaped needs no more escaping

A part of a URL holds, once it is escaped, only characters that it can hold: those that were left as they are, and
those that escapes are made of. So escaping it again changes nothing. Segments made of dots come only from such
segments, because no escape stands for a dot.

Main statements: `mem_escape`, `escape_eq_self` and `not_dots_of_escape`.
-/

namespace FlagSidecar.Url

/-- What a check of each character finds holds of each. To decide `∀ c ∈ cs` itself would take all characters there are,
one after the other. -/
theorem of_all {p : Char → Prop} [DecidablePred p] {cs : List Char} (h : (cs.all fun c => decide (p c)) = true) :
    ∀ c ∈ cs, p c :=
  fun c hc => of_decide_eq_true (List.all_eq_true.mp h c hc)

/-- The characters that escapes are made of. -/
def escapeChars : List Char := "%0123456789ABCDEF".toList

theorem upperDigit_mem : ∀ n, n < 16 → upperDigit n ∈ escapeChars := by decide

theorem mem_escapeOctet {b : UInt8} {c : Char} (h : c ∈ escapeOctet b) : c ∈ escapeChars := by
  have hb : b.toNat < 256 := b.toNat_lt
  simp only [escapeOctet, List.mem_cons, List.not_mem_nil, or_false] at h
  rcases h with rfl | rfl | rfl
  · decide
  · exact upperDigit_mem _ (by omega)
  · exact upperDigit_mem _ (by omega)

variable {escaped : Char → Bool} {cs : List Char}

/-- What is in escaped text was there before and is not to be escaped, or belongs to an escape. -/
theorem mem_escape {c : Char} (h : c ∈ escape escaped cs) :
    (c ∈ cs ∧ escaped c = false) ∨ c ∈ escapeChars := by
  rw [escape, List.mem_flatMap] at h
  obtain ⟨d, hd, hc⟩ := h
  cases hescaped : escaped d with
  | true =>
    rw [hescaped, if_pos rfl, List.mem_flatMap] at hc
    obtain ⟨b, -, hb⟩ := hc
    exact Or.inr (mem_escapeOctet hb)
  | false =>
    rw [hescaped, if_neg Bool.false_ne_true, List.mem_singleton] at hc
    subst hc
    exact Or.inl ⟨hd, hescaped⟩

/-- Nothing of what escaping leaves is to be escaped. -/
theorem not_escaped_of_mem_escape (hchars : ∀ c ∈ escapeChars, escaped c = false) {c : Char}
    (h : c ∈ escape escaped cs) : escaped c = false := by
  rcases mem_escape h with ⟨-, hc⟩ | hc
  · exact hc
  · exact hchars c hc

theorem escape_eq_self (h : ∀ c ∈ cs, escaped c = false) : escape escaped cs = cs := by
  induction cs with
  | nil => rfl
  | cons c rest ih =>
    have hc : escaped c = false := h c List.mem_cons_self
    have hrest := ih fun d hd => h d (List.mem_cons_of_mem c hd)
    rw [escape] at hrest ⊢
    rw [List.flatMap_cons, hc, if_neg Bool.false_ne_true, hrest]
    rfl

/-- Text that is escaped without an escape in it was left as it was. -/
theorem escape_eq_self_of_not_mem (h : '%' ∉ escape escaped cs) : escape escaped cs = cs := by
  apply escape_eq_self
  intro c hc
  by_contra hescaped
  rw [Bool.not_eq_false] at hescaped
  apply h
  refine List.mem_flatMap.mpr ⟨c, hc, ?_⟩
  rw [if_pos hescaped, Bytes.utf8EncodeChar_eq]
  exact List.mem_cons_self

/-- Something is written for every character. -/
theorem escape_eq_nil_iff : escape escaped cs = [] ↔ cs = [] := by
  constructor
  · intro h
    cases cs with
    | nil => rfl
    | cons c rest =>
      rw [escape, List.flatMap_cons, List.append_eq_nil_iff] at h
      have hc := h.1
      split at hc
      · rw [Bytes.utf8EncodeChar_eq] at hc
        exact absurd hc (List.cons_ne_nil _ _)
      · exact absurd hc (List.cons_ne_nil _ _)
  · rintro rfl
    rfl

theorem escape_append (as bs : List Char) :
    escape escaped (as ++ bs) = escape escaped as ++ escape escaped bs :=
  List.flatMap_append

/-- Escaping puts no blank at the end of text. -/
theorem blank_not_mem_escape (h : ' ' ∉ cs.getLast?) : ' ' ∉ (escape escaped cs).getLast? := by
  cases cs using List.reverseRecOn with
  | nil => exact h
  | append_singleton front c =>
    have hne : escape escaped [c] ≠ [] := escape_eq_nil_iff.not.mpr (List.cons_ne_nil c [])
    rw [escape_append, List.getLast?_append_of_ne_nil _ hne]
    intro hblank
    rw [List.getLast?_concat] at h
    rcases mem_escape (List.mem_of_mem_getLast? hblank) with ⟨hc, -⟩ | hc
    · exact h (congrArg some (List.mem_singleton.mp hc).symm)
    · exact absurd hc (by decide)

/-! ## The parts and what they cannot hold -/

theorem fragment_escapeChars : ∀ c ∈ escapeChars, escapedInFragment c = false := of_all (by decide)

theorem path_escapeChars : ∀ c ∈ escapeChars, escapedInPath c = false := of_all (by decide)

theorem credentials_escapeChars : ∀ c ∈ escapeChars, escapedInCredentials c = false := of_all (by decide)

theorem control_escapeChars : ∀ c ∈ escapeChars, isControl c = false := of_all (by decide)

theorem query_escapeChars (special : Bool) : ∀ c ∈ escapeChars, escapedInQuery special c = false := by
  cases special with
  | true => exact of_all (by decide)
  | false => exact of_all (by decide)

section Parts

variable {c : Char}

theorem control_of_fragment (h : escapedInFragment c = false) : isControl c = false :=
  (Bool.or_eq_false_iff.mp h).1

theorem fragment_of_path (h : escapedInPath c = false) : escapedInFragment c = false :=
  (Bool.or_eq_false_iff.mp h).1

theorem path_of_credentials (h : escapedInCredentials c = false) : escapedInPath c = false :=
  (Bool.or_eq_false_iff.mp h).1

theorem control_of_query {special : Bool} (h : escapedInQuery special c = false) : isControl c = false :=
  (Bool.or_eq_false_iff.mp (Bool.or_eq_false_iff.mp h).1).1

/-- A character that a part escapes is not one that the part holds. -/
theorem ne_of_not_escaped {d : Char} (h : escaped c = false) (hd : escaped d = true) : c ≠ d := by
  rintro rfl
  exact Bool.false_ne_true (h.symm.trans hd)

end Parts

/-! ## Letters -/

/-- What holds of the characters of a kind in ASCII holds of each that is there. -/
theorem of_ascii {kind : Char → Bool} {p : Char → Prop}
    (hp : ∀ n, n < 0x80 → kind (Char.ofNat n) = true → p (Char.ofNat n)) {c : Char} (hlt : c.toNat < 0x80)
    (h : kind c = true) : p c := by
  rw [← Char.ofNat_toNat c] at h ⊢
  exact hp _ hlt h

theorem toNat_lt_of_isAlphanum {c : Char} (h : c.isAlphanum = true) : c.toNat < 0x80 := by
  rcases Bool.or_eq_true_iff.mp h with hletter | hdigit
  · rcases Bool.or_eq_true_iff.mp hletter with hupper | hlower
    · exact Nat.lt_of_le_of_lt (of_decide_eq_true hupper).2 (by decide)
    · exact Nat.lt_of_le_of_lt (of_decide_eq_true (Bool.and_eq_true_iff.mp hlower).2) (by decide)
  · exact Nat.lt_of_le_of_lt (of_decide_eq_true (Bool.and_eq_true_iff.mp hdigit).2) (by decide)

theorem of_isAlpha {p : Char → Prop} (hp : ∀ n, n < 0x80 → (Char.ofNat n).isAlpha = true → p (Char.ofNat n))
    {c : Char} (h : c.isAlpha = true) : p c :=
  of_ascii hp (toNat_lt_of_isAlphanum (Bool.or_eq_true_iff.mpr (Or.inl h))) h

/-! ## Segments made of dots -/

/-- The spellings of the segments made of dots, in lower case. -/
def dots : List (List Char) :=
  [['.'], ['%', '2', 'e'], ['.', '.'], ['.', '%', '2', 'e'], ['%', '2', 'e', '.'],
    ['%', '2', 'e', '%', '2', 'e']]

theorem mem_dots_of_isSingle {segment : List Char} (h : isSingle segment = true) :
    segment.map Char.toLower ∈ dots := by
  rw [isSingle, List.contains_iff_mem] at h
  rw [← String.toList_ofList (l := segment.map Char.toLower)]
  generalize String.ofList (segment.map Char.toLower) = spelling at h ⊢
  fin_cases h <;> decide

theorem mem_dots_of_isDouble {segment : List Char} (h : isDouble segment = true) :
    segment.map Char.toLower ∈ dots := by
  rw [isDouble, List.contains_iff_mem] at h
  rw [← String.toList_ofList (l := segment.map Char.toLower)]
  generalize String.ofList (segment.map Char.toLower) = spelling at h ⊢
  fin_cases h <;> decide

/-- The only escape in such a spelling is that of a dot. -/
theorem eq_of_infix_dots {x y : Char} {spelling : List Char} (h : spelling ∈ dots)
    (hwithin : ['%', x, y] <:+: spelling) : x = '2' ∧ y = 'e' := by
  simp only [dots, List.mem_cons, List.not_mem_nil, or_false] at h
  rcases h with rfl | rfl | rfl | rfl | rfl | rfl <;> simp [List.infix_cons_iff] at hwithin <;> exact hwithin

theorem eq_two_of_toLower : ∀ n, n < 16 → (upperDigit n).toLower = '2' → n = 2 := by decide

theorem eq_fourteen_of_toLower : ∀ n, n < 16 → (upperDigit n).toLower = 'e' → n = 14 := by decide

/-- Only a dot has the octet of a dot in front. -/
theorem eq_dot_of_lead {c : Char} (h : Bytes.lead c.val.toNat = 0x2e) : c = '.' := by
  have hcode : c.val.toNat = 0x2e := by
    unfold Bytes.lead Bytes.trailing at h
    repeat' split at h
    all_goals simp only [Bytes.mark] at h
    all_goals omega
  exact Char.ext (UInt32.toNat_inj.mp hcode)

/-- **No escape makes a segment of dots**: a segment that is one when it is escaped was written so. -/
theorem escape_eq_self_of_dots {segment : List Char}
    (h : (escape escapedInPath segment).map Char.toLower ∈ dots) :
    escape escapedInPath segment = segment := by
  apply escape_eq_self
  intro c hc
  by_contra hescaped
  rw [Bool.not_eq_false] at hescaped
  obtain ⟨before, after, rfl⟩ := List.append_of_mem hc
  -- the first octet of the escaped character would have to be that of a dot
  have hoctet : escape escapedInPath (before ++ c :: after) = escape escapedInPath before ++
      (escapeOctet (UInt8.ofNat (Bytes.lead c.val.toNat)) ++
        ((Bytes.trail (Bytes.trailing c.val.toNat) c.val.toNat).flatMap escapeOctet ++
          escape escapedInPath after)) := by
    rw [escape_append]
    simp [escape, hescaped, Bytes.utf8EncodeChar_eq]
  rw [hoctet, List.map_append, List.map_append] at h
  have hwithin := eq_of_infix_dots h (List.infix_append_of_infix_right (List.prefix_append _ _).isInfix)
  have hlt := Bytes.lead_lt (Bytes.code_lt c)
  rw [UInt8.toNat_ofNat_of_lt' hlt] at hwithin
  have hhigh := eq_two_of_toLower _ (by omega) hwithin.1
  have hlow := eq_fourteen_of_toLower _ (by omega) hwithin.2
  have hdot : c = '.' := eq_dot_of_lead (by omega)
  rw [hdot] at hescaped
  exact absurd hescaped (by decide)

theorem not_dots_of_escape {segment : List Char} (hsingle : isSingle segment = false)
    (hdouble : isDouble segment = false) :
    isSingle (escape escapedInPath segment) = false ∧ isDouble (escape escapedInPath segment) = false := by
  constructor
  · apply Bool.eq_false_iff.mpr
    intro h
    rw [escape_eq_self_of_dots (mem_dots_of_isSingle h), hsingle] at h
    exact Bool.false_ne_true h
  · apply Bool.eq_false_iff.mpr
    intro h
    rw [escape_eq_self_of_dots (mem_dots_of_isDouble h), hdouble] at h
    exact Bool.false_ne_true h

end FlagSidecar.Url
