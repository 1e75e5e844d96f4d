import FlagSidecar.Proofs.Url.Cut

/-!
# FlagSidecar.Proofs.Url.Domain: a domain in ASCII is its own ASCII form

The ASCII form of a domain has small letters only: capital ones are made small, and a label beyond ASCII is spelled
with small letters, digits and a hyphen. Such a text is compared as it is, so its ASCII form is the text itself.

Main statements: `inDomain_of_domain?` and `domain?_unescape`.
-/

namespace FlagSidecar.Url

/-! ## Capital letters -/

theorem isUpper_eq_false_iff {c : Char} : c.isUpper = false ↔ ¬ (0x41 ≤ c.toNat ∧ c.toNat ≤ 0x5a) :=
  decide_eq_false_iff_not

theorem isUpper_ofNat {n : Nat} (h : 0x5a < n) : (Char.ofNat n).isUpper = false := by
  rw [isUpper_eq_false_iff, Char.ofNat]
  by_cases hvalid : n.isValidChar
  · rw [dif_pos hvalid]
    show ¬ (0x41 ≤ n ∧ n ≤ 0x5a)
    omega
  · rw [dif_neg hvalid]
    decide

/-- No letter stays capital. -/
theorem isUpper_lower (c : Char) : (lower c).isUpper = false := by
  rw [lower]
  split
  case h_1 first last distance hfind =>
    obtain ⟨hrange, hmem⟩ := And.intro (List.find?_some hfind) (List.mem_of_find?_eq_some hfind)
    have hfirst : ∀ range ∈ capitals, 0x5a < range.1 + range.2.2 := by decide
    have hle := of_decide_eq_true (Bool.and_eq_true_iff.mp hrange).1
    have hlt := hfirst _ hmem
    apply isUpper_ofNat
    simp only at hlt
    omega
  case h_2 hfind =>
    have hnone := List.find?_eq_none.mp hfind (0x41, 0x5a, 32) List.mem_cons_self
    rw [isUpper_eq_false_iff]
    simpa using hnone

theorem isUpper_domainChar (c : Char) : (domainChar c).isUpper = false := by
  rw [domainChar]
  split
  · rfl
  · split <;> exact isUpper_lower _

/-! ## Labels beyond ASCII -/

namespace Punycode

theorem isUpper_digitChar : ∀ d, d < 36 → (digitChar d).isUpper = false := by decide

/-- Each digit is below its base, whatever its threshold is. -/
theorem isUpper_of_mem_digits {bias position n : Nat} :
    ∀ c ∈ digits bias position n, c.isUpper = false := by
  fun_induction digits bias position n with
  | case1 position n t hlt =>
    have hle : t ≤ 26 := by
      simp only [t, threshold]
      omega
    intro c hc
    rw [List.mem_singleton.mp hc]
    exact isUpper_digitChar n (by omega)
  | case2 position n t hge ih =>
    have hle : t ≤ 26 := by
      simp only [t, threshold]
      omega
    have hmod := Nat.mod_lt (n - t) (show 0 < 36 - t by omega)
    rw [List.forall_mem_cons]
    exact ⟨isUpper_digitChar _ (by omega), ih⟩

theorem isUpper_visit {basic m : Nat} {s : State} (h : ∀ c ∈ s.text, c.isUpper = false) (d : Char) :
    ∀ c ∈ (visit basic m s d).text, c.isUpper = false := by
  rw [visit]
  split
  · exact h
  · split
    · exact List.forall_mem_append.mpr ⟨h, isUpper_of_mem_digits⟩
    · exact h

theorem isUpper_foldl_visit {basic m : Nat} (name : List Char) {s : State}
    (h : ∀ c ∈ s.text, c.isUpper = false) : ∀ c ∈ (name.foldl (visit basic m) s).text, c.isUpper = false := by
  induction name generalizing s with
  | nil => exact h
  | cons d rest ih => exact ih (isUpper_visit h d)

theorem isUpper_place {name : List Char} {basic : Nat} (ms : List Nat) {next : Nat} {s : State}
    (h : ∀ c ∈ s.text, c.isUpper = false) :
    ∀ c ∈ (place name basic ms next s).text, c.isUpper = false := by
  induction ms generalizing next s with
  | nil => exact h
  | cons m rest ih =>
    rw [place]
    apply ih
    exact isUpper_foldl_visit name h

theorem isUpper_encode {name : List Char} (h : ∀ c ∈ name, c.isUpper = false) :
    ∀ c ∈ encode name, c.isUpper = false := by
  have hbasic : ∀ c ∈ name.filter (·.toNat < 0x80), c.isUpper = false :=
    fun c hc => h c (List.mem_of_mem_filter hc)
  rw [encode]
  apply isUpper_place
  simp only
  split
  · exact List.forall_mem_nil _
  · exact List.forall_mem_append.mpr ⟨hbasic, of_all (by decide)⟩

end Punycode

theorem isUpper_label {cs : List Char} (h : ∀ c ∈ cs, c.isUpper = false) :
    ∀ c ∈ label cs, c.isUpper = false := by
  rw [label]
  split
  · exact h
  · exact List.forall_mem_append.mpr ⟨of_all (by decide), Punycode.isUpper_encode h⟩

/-! ## Domains -/

/-- **A character of a domain in ASCII**: none that a host cannot have, no percent sign and no capital letter. -/
structure InDomain (c : Char) : Prop where
  control_eq : isControl c = false
  delimiter_eq : isDelimiter c = false
  ne_percent : c ≠ '%'
  upper_eq : c.isUpper = false

theorem InDomain.toNat_lt {c : Char} (h : InDomain c) : c.toNat < 0x7f := by
  have := of_decide_eq_false (Bool.or_eq_false_iff.mp h.control_eq).2
  omega

theorem mem_intercalate {mark c : Char} {parts : List (List Char)} (h : c ∈ [mark].intercalate parts) :
    c = mark ∨ ∃ part ∈ parts, c ∈ part := by
  induction parts with
  | nil => cases h
  | cons part rest ih =>
    cases rest with
    | nil =>
      rw [List.intercalate_singleton] at h
      exact Or.inr ⟨part, List.mem_cons_self, h⟩
    | cons next rest =>
      rw [List.intercalate_cons_cons] at h
      rcases List.mem_append.mp h with h | h
      · rcases List.mem_append.mp h with h | h
        · exact Or.inr ⟨part, List.mem_cons_self, h⟩
        · exact Or.inl (List.mem_singleton.mp h)
      · rcases ih h with h | ⟨part, hpart, hc⟩
        · exact Or.inl h
        · exact Or.inr ⟨part, List.mem_cons_of_mem _ hpart, hc⟩

/-- **The ASCII form of a domain has such characters only.** -/
theorem inDomain_of_domain? {octets : Bytes} {ascii : List Char} (h : domain? octets = some ascii) :
    ascii ≠ [] ∧ ∀ c ∈ ascii, InDomain c := by
  obtain ⟨text, -, h⟩ := Option.bind_eq_some_iff.mp h
  simp only at h
  split at h
  case isTrue => cases h
  case isFalse hgood =>
    rw [not_or, List.isEmpty_iff, Bool.not_eq_true, List.any_eq_false] at hgood
    obtain rfl := Option.some.inj h
    refine ⟨hgood.1, fun c hc => ?_⟩
    have hchar := hgood.2 c hc
    rw [Bool.or_eq_true, Bool.or_eq_true, not_or, not_or, Bool.not_eq_true, Bool.not_eq_true,
      beq_iff_eq] at hchar
    refine ⟨hchar.1.1, hchar.1.2, hchar.2, ?_⟩
    rcases mem_intercalate hc with rfl | ⟨part, hpart, hc⟩
    · rfl
    · obtain ⟨chars, hchars, rfl⟩ := List.mem_map.mp hpart
      apply isUpper_label _ c hc
      intro d hd
      obtain ⟨e, -, rfl⟩ := List.mem_map.mp (mem_of_mem_splitAtEach hchars d hd).1
      exact isUpper_domainChar e

section InDomain

variable {c : Char} {cs : List Char}

theorem lower_eq_self (h : InDomain c) : lower c = c := by
  have hlt := h.toNat_lt
  have hupper := isUpper_eq_false_iff.mp h.upper_eq
  have houtside : ∀ range ∈ capitals, ¬ (range.1 ≤ c.toNat ∧ c.toNat ≤ range.2.1) := by
    simp only [capitals, List.forall_mem_cons]
    refine ⟨hupper, ?_, ?_, ?_, ?_, ?_, List.forall_mem_nil _⟩
    all_goals omega
  rw [lower]
  split
  case h_1 first last distance hfind =>
    have hinside := List.find?_some hfind
    obtain ⟨hge, hle⟩ := Bool.and_eq_true_iff.mp hinside
    exact absurd ⟨of_decide_eq_true hge, of_decide_eq_true hle⟩ (houtside _ (List.mem_of_find?_eq_some hfind))
  case h_2 => rfl

theorem domainChar_eq_self (h : InDomain c) : domainChar c = c := by
  have hlt := h.toNat_lt
  rw [domainChar, if_neg (by omega), if_neg (by omega), lower_eq_self h]

theorem isIgnored_eq_false (h : InDomain c) : isIgnored c = false := by
  have hlt := h.toNat_lt
  have hlist : [0xad, 0x34f, 0x200b, 0x2060, 0x2064, 0xfeff].contains c.toNat = false := by
    simp only [List.contains_eq_mem, decide_eq_false_iff_not, List.mem_cons, List.not_mem_nil, or_false]
    omega
  have hrange : (0xfe00 ≤ c.toNat && c.toNat ≤ 0xfe0f) = false := by
    rw [Bool.and_eq_false_iff, decide_eq_false_iff_not]
    exact Or.inl (by omega)
  rw [isIgnored, hlist, hrange]
  rfl

theorem unescape_eq_utf8 (h : ∀ c ∈ cs, c ≠ '%') : unescape cs = Bytes.utf8 (String.ofList cs) := by
  rw [Bytes.utf8_eq_flatMap, String.toList_ofList]
  induction cs with
  | nil => rfl
  | cons c rest ih =>
    rw [unescape, ih fun d hd => h d (List.mem_cons_of_mem c hd), List.flatMap_cons]
    rintro high low rest' heq -
    exact h c List.mem_cons_self heq

/-- **A text of such characters is its own ASCII form.** -/
theorem domain?_unescape (hne : cs ≠ []) (h : ∀ c ∈ cs, InDomain c) : domain? (unescape cs) = some cs := by
  have hkept : cs.filter (!isIgnored ·) = cs := by
    rw [List.filter_eq_self]
    intro c hc
    rw [isIgnored_eq_false (h c hc)]
    rfl
  have hcompared : cs.map domainChar = cs := by
    conv => rhs; rw [← List.map_id cs]
    exact List.map_congr_left fun c hc => domainChar_eq_self (h c hc)
  have hlabels : (splitAtEach (· == '.') cs).map label = splitAtEach (· == '.') cs := by
    conv => rhs; rw [← List.map_id (splitAtEach (· == '.') cs)]
    refine List.map_congr_left fun part hpart => if_pos (List.all_eq_true.mpr fun c hc => ?_)
    have hlt := (h c (mem_of_mem_splitAtEach hpart c hc).1).toNat_lt
    exact decide_eq_true (by omega)
  have hgood : ¬ (cs.isEmpty = true ∨
      (cs.any fun c => isControl c || isDelimiter c || c == '%') = true) := by
    rw [not_or, List.isEmpty_iff, Bool.not_eq_true, List.any_eq_false]
    refine ⟨hne, fun c hc => ?_⟩
    have hchar := h c hc
    rw [hchar.control_eq, hchar.delimiter_eq, beq_eq_false_iff_ne.mpr hchar.ne_percent]
    decide
  rw [unescape_eq_utf8 fun c hc => (h c hc).ne_percent, domain?, Bytes.text?_utf8]
  simp only [Option.bind_eq_bind, Option.bind_some, String.toList_ofList, hkept, hcompared, hlabels,
    intercalate_splitAtEach]
  exact if_neg hgood

end InDomain

end FlagSidecar.Url
