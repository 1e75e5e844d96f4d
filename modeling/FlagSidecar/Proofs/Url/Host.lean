import FlagSidecar.Proofs.Url.Address
import FlagSidecar.Proofs.Url.Domain

/-!
# FlagSidecar.Proofs.Url.Host: a host is read back from its text

A host that was read is written in its normal form: a domain in ASCII, an address as numbers, or text whose control
characters are escaped. Read again it is the same host. No character of it ends the authority that it is written in,
and none of its colons is taken for the one before a number.

Main statements: `Host.settled_of_host?` and `Host.settled_of_specialHost?`.
-/

namespace FlagSidecar.Url

/-- A character that goes on with an authority: it is visible, and it ends nothing before the path. -/
def inAuthority (c : Char) : Bool := !isControl c && !([' ', '/', '\\', '?', '#'].contains c)

namespace Host

/-- **A host in its normal form.** -/
structure Settled (special : Bool) (h : Host) : Prop where
  read_text : host? special h.text.toList = some h
  inAuthority : ∀ c ∈ h.text.toList, inAuthority c = true ∧ c ≠ '@'
  /-- Whatever follows, no colon of the host comes before a number. -/
  cutNumber_append : ∀ rest, cutNumber false (h.text.toList ++ rest) =
    (h.text.toList ++ (cutNumber false rest).1, (cutNumber false rest).2)
  ne_nil_of_special : special = true → h.text.toList ≠ []
  not_drive : isDrive h.text.toList = false

/-! ## Addresses of eight pieces -/

variable {pieces : List Nat}

theorem mem_shown {c : Char} (h : c ∈ shown pieces) : c = ':' ∨ ∃ n, c ∈ Nat.toDigits 16 n := by
  rcases mem_intercalate h with h | ⟨part, hpart, hc⟩
  · exact Or.inl h
  · obtain ⟨n, -, rfl⟩ := List.mem_map.mp hpart
    exact Or.inr ⟨n, hc⟩

theorem mem_ipv6Text {c : Char} (h : c ∈ (ipv6Text pieces).toList) :
    c = ':' ∨ ∃ n, c ∈ Nat.toDigits 16 n := by
  rw [ipv6Text] at h
  simp only at h
  split at h
  · rw [toList_shown] at h
    exact mem_shown h
  · rw [String.toList_append, String.toList_append, toList_shown, toList_shown] at h
    rcases List.mem_append.mp h with h | h
    · rcases List.mem_append.mp h with h | h
      · exact mem_shown h
      · left
        simpa using h
    · exact mem_shown h

/-- Digits and colons are neither brackets nor anything that ends an authority. -/
theorem plain_of_mem_ipv6Text {c : Char} (h : c ∈ (ipv6Text pieces).toList) :
    inAuthority c = true ∧ c ≠ '@' ∧ c ≠ '[' ∧ c ≠ ']' := by
  rcases mem_ipv6Text h with rfl | ⟨n, h⟩
  · decide
  · exact of_mem_toDigits (by decide) (Nat.le_refl 16)
      (p := fun c => inAuthority c = true ∧ c ≠ '@' ∧ c ≠ '[' ∧ c ≠ ']') (by decide) h

theorem toList_text_ipv6 (pieces : List Nat) :
    (ipv6 pieces).text.toList = '[' :: ((ipv6Text pieces).toList ++ [']']) := by
  rw [text, String.toList_append, String.toList_append]
  rfl

/-- Colons between brackets are passed over. -/
theorem cutNumber_inside {inner : List Char} (h : ∀ c ∈ inner, c ≠ '[' ∧ c ≠ ']') (rest : List Char) :
    cutNumber true (inner ++ rest) = (inner ++ (cutNumber true rest).1, (cutNumber true rest).2) := by
  induction inner with
  | nil => rfl
  | cons c inner ih =>
    obtain ⟨hopen, hclose⟩ := h c List.mem_cons_self
    rw [List.cons_append, cutNumber, if_neg fun hc => hc.2 rfl]
    simp only [if_neg hopen, if_neg hclose, ih fun d hd => h d (List.mem_cons_of_mem c hd)]
    rfl

theorem settled_ipv6 (special : Bool) (hlength : pieces.length = 8) (hfits : ∀ p ∈ pieces, p < 2 ^ 16) :
    (ipv6 pieces).Settled special where
  read_text := by
    have hbracketed : bracketed? (ipv6 pieces).text.toList = some (ipv6 pieces) := by
      rw [toList_text_ipv6, bracketed?, ← List.cons_append, List.getLast?_concat, if_pos rfl,
        List.cons_append, List.drop_one, List.tail_cons, List.dropLast_concat, ipv6?_text hlength hfits]
      rfl
    have hhead : (ipv6 pieces).text.toList.head? = some '[' := by rw [toList_text_ipv6]; rfl
    rw [host?, specialHost?, opaqueHost?, if_pos hhead, if_pos hhead, hbracketed, ite_self]
  inAuthority c hc := by
    rw [toList_text_ipv6] at hc
    rcases List.mem_cons.mp hc with rfl | hc
    · decide
    · rcases List.mem_append.mp hc with hc | hc
      · exact ⟨(plain_of_mem_ipv6Text hc).1, (plain_of_mem_ipv6Text hc).2.1⟩
      · rw [List.mem_singleton.mp hc]
        decide
  cutNumber_append rest := by
    have hinner : ∀ c ∈ (ipv6Text pieces).toList, c ≠ '[' ∧ c ≠ ']' :=
      fun c hc => (plain_of_mem_ipv6Text hc).2.2
    have hinside := cutNumber_inside hinner (']' :: rest)
    rw [toList_text_ipv6, List.cons_append, List.append_assoc, List.singleton_append, cutNumber,
      if_neg (by decide)]
    simp only [if_pos]
    rw [hinside, cutNumber, if_neg (by decide)]
    simp
  ne_nil_of_special _ := by
    rw [toList_text_ipv6]
    exact List.cons_ne_nil _ _
  not_drive := by
    rw [toList_text_ipv6]
    match (ipv6Text pieces).toList with
    | [] | [_] | _ :: _ :: _ => rfl

theorem exists_of_bracketed? {cs : List Char} {h : Host} (hread : bracketed? cs = some h) :
    ∃ pieces, h = ipv6 pieces ∧ pieces.length = 8 ∧ ∀ p ∈ pieces, p < 2 ^ 16 := by
  rw [bracketed?] at hread
  split at hread
  · obtain ⟨pieces, hpieces, rfl⟩ := Option.map_eq_some_iff.mp hread
    exact ⟨pieces, rfl, fits_of_ipv6? hpieces⟩
  · cases hread

/-! ## Names -/

/-- No delimiter ends an authority or is a colon or bracket. -/
theorem ne_of_not_delimiter {c d : Char} (hc : isDelimiter c = false) (hd : isDelimiter d = true) : c ≠ d :=
  ne_of_not_escaped hc hd

theorem inAuthority_of_not_delimiter {c : Char} (hcontrol : isControl c = false)
    (hdelimiter : isDelimiter c = false) : inAuthority c = true ∧ c ≠ '@' := by
  refine ⟨?_, ne_of_not_delimiter hdelimiter rfl⟩
  have hends : [' ', '/', '\\', '?', '#'].contains c = false := by
    rw [← Bool.not_eq_true, List.contains_iff_mem]
    intro hmem
    have hall : ∀ d ∈ [' ', '/', '\\', '?', '#'], isDelimiter d = true := of_all (by decide)
    exact ne_of_not_delimiter hdelimiter (hall c hmem) rfl
  rw [Url.inAuthority, hcontrol, hends]
  rfl

/-- Text without colons and brackets is the host as far as it goes. -/
theorem cutNumber_of_not_delimiter {cs : List Char} (h : ∀ c ∈ cs, isDelimiter c = false)
    (rest : List Char) :
    cutNumber false (cs ++ rest) = (cs ++ (cutNumber false rest).1, (cutNumber false rest).2) := by
  induction cs with
  | nil => rfl
  | cons c cs ih =>
    have hc := h c List.mem_cons_self
    rw [List.cons_append, cutNumber, if_neg fun hcolon => ne_of_not_delimiter hc rfl hcolon.1]
    simp only [if_neg (ne_of_not_delimiter hc (d := '[') rfl), ite_self,
      ih fun d hd => h d (List.mem_cons_of_mem c hd)]
    rfl

theorem not_drive_of_not_delimiter {cs : List Char} (h : ∀ c ∈ cs, isDelimiter c = false) :
    isDrive cs = false := by
  match cs with
  | [] | [_] | _ :: _ :: _ :: _ => rfl
  | [c, mark] =>
    have hmark := h mark (List.mem_cons_of_mem c List.mem_cons_self)
    have hcolon : (mark == ':') = false := beq_eq_false_iff_ne.mpr (ne_of_not_delimiter hmark rfl)
    have hbar : (mark == '|') = false := beq_eq_false_iff_ne.mpr (ne_of_not_delimiter hmark rfl)
    rw [isDrive, hcolon, hbar, Bool.or_self, Bool.and_false]

theorem head?_ne_bracket {cs : List Char} (h : ∀ c ∈ cs, isDelimiter c = false) :
    ¬ cs.head? = some '[' := by
  intro hhead
  exact ne_of_not_delimiter (h _ (List.mem_of_mem_head? hhead)) rfl rfl

/-- What reads back from characters of a domain is settled. -/
theorem settled_of_inDomain {cs : List Char} {h : Host} (htext : h.text.toList = cs) (hne : cs ≠ [])
    (hchars : ∀ c ∈ cs, InDomain c)
    (hread : (if endsInNumber cs then (ipv4? cs).map .ipv4 else some (.name (String.ofList cs))) = some h) :
    h.Settled true where
  read_text := by
    rw [htext, host?, if_pos rfl, specialHost?,
      if_neg (head?_ne_bracket fun c hc => (hchars c hc).delimiter_eq), domain?_unescape hne hchars]
    exact hread
  inAuthority c hc := by
    rw [htext] at hc
    exact inAuthority_of_not_delimiter (hchars c hc).control_eq (hchars c hc).delimiter_eq
  cutNumber_append rest := by
    rw [htext]
    exact cutNumber_of_not_delimiter (fun c hc => (hchars c hc).delimiter_eq) rest
  ne_nil_of_special _ := by rwa [htext]
  not_drive := by
    rw [htext]
    exact not_drive_of_not_delimiter fun c hc => (hchars c hc).delimiter_eq

theorem settled_ipv4 {n : Nat} (h : n < 2 ^ 32) : (ipv4 n).Settled true := by
  have hchars : ∀ c ∈ (ipv4Text n).toList, InDomain c := by
    intro c hc
    rw [toList_ipv4Text] at hc
    rcases mem_intercalate hc with rfl | ⟨part, hpart, hc⟩
    · exact ⟨rfl, rfl, by decide, rfl⟩
    · obtain ⟨k, -, rfl⟩ := List.mem_map.mp hpart
      have hdigit : ∀ d, d < 16 → isControl (Nat.digitChar d) = false ∧
          isDelimiter (Nat.digitChar d) = false ∧ Nat.digitChar d ≠ '%' ∧
            (Nat.digitChar d).isUpper = false := by decide
      obtain ⟨d, hd, rfl⟩ := exists_of_mem_toDigits (by decide) hc
      obtain ⟨hcontrol, hdelimiter, hpercent, hupper⟩ := hdigit d (by omega)
      exact ⟨hcontrol, hdelimiter, hpercent, hupper⟩
  have hne : (ipv4Text n).toList ≠ [] := by
    intro hnil
    have hends := endsInNumber_ipv4Text n
    rw [hnil] at hends
    exact absurd hends (by decide)
  have htext : (ipv4 n).text.toList = (ipv4Text n).toList := by rw [text]
  apply settled_of_inDomain htext hne hchars
  rw [if_pos (endsInNumber_ipv4Text n), ipv4?_text h, Option.map_some]

theorem settled_opaqueText {cs : List Char} (hcontrol : ∀ c ∈ cs, isControl c = false)
    (hdelimiter : ∀ c ∈ cs, isDelimiter c = false) : (name (String.ofList cs)).Settled false := by
  have htext : (name (String.ofList cs)).text.toList = cs := String.toList_ofList
  refine ⟨?_, ?_, ?_, fun h => absurd h Bool.false_ne_true, ?_⟩
  · rw [htext, host?, if_neg Bool.false_ne_true, opaqueHost?, if_neg (head?_ne_bracket hdelimiter), if_neg,
      escape_eq_self hcontrol]
    rw [List.any_eq_true]
    rintro ⟨c, hc, htrue⟩
    exact Bool.false_ne_true ((hdelimiter c hc).symm.trans htrue)
  · intro c hc
    rw [htext] at hc
    exact inAuthority_of_not_delimiter (hcontrol c hc) (hdelimiter c hc)
  · intro rest
    rw [htext]
    exact cutNumber_of_not_delimiter hdelimiter rest
  · rw [htext]
    exact not_drive_of_not_delimiter hdelimiter

/-! ## Hosts that were read -/

/-- **A host of a well-known scheme is settled when it is read.** -/
theorem settled_of_specialHost? {cs : List Char} {h : Host} (hread : specialHost? cs = some h) :
    h.Settled true := by
  rw [specialHost?] at hread
  split at hread
  case isTrue =>
    obtain ⟨pieces, rfl, hlength, hfits⟩ := exists_of_bracketed? hread
    exact settled_ipv6 true hlength hfits
  case isFalse =>
    obtain ⟨ascii, hascii, hread⟩ := Option.bind_eq_some_iff.mp hread
    obtain ⟨hne, hchars⟩ := inDomain_of_domain? hascii
    split at hread
    case isTrue =>
      obtain ⟨n, hn, rfl⟩ := Option.map_eq_some_iff.mp hread
      exact settled_ipv4 (lt_of_ipv4? hn)
    case isFalse hends =>
      obtain rfl := Option.some.inj hread
      have htext : (name (String.ofList ascii)).text.toList = ascii := String.toList_ofList
      apply settled_of_inDomain htext hne hchars
      rw [if_neg hends]

/-- **A host is settled when it is read**, in each kind of scheme. -/
theorem settled_of_host? {special : Bool} {cs : List Char} {h : Host} (hread : host? special cs = some h) :
    h.Settled special := by
  cases special with
  | true => exact settled_of_specialHost? hread
  | false =>
    rw [host?, if_neg Bool.false_ne_true, opaqueHost?] at hread
    split at hread
    case isTrue =>
      obtain ⟨pieces, rfl, hlength, hfits⟩ := exists_of_bracketed? hread
      exact settled_ipv6 false hlength hfits
    case isFalse =>
      split at hread
      case isTrue => cases hread
      case isFalse hany =>
        obtain rfl := Option.some.inj hread
        have hdelimiter : ∀ c ∈ escapeChars, isDelimiter c = false := of_all (by decide)
        rw [Bool.not_eq_true, List.any_eq_false] at hany
        apply settled_opaqueText
        · intro c hc
          exact not_escaped_of_mem_escape control_escapeChars hc
        · intro c hc
          rcases mem_escape hc with ⟨hc, -⟩ | hc
          · exact Bool.eq_false_iff.mpr (hany c hc)
          · exact hdelimiter c hc

/-- Only no text at all is read as an empty host. -/
theorem eq_nil_of_host? {special : Bool} {cs : List Char} {h : Host} (hread : host? special cs = some h)
    (hnil : h.text.toList = []) : cs = [] := by
  have hsettled := settled_of_host? hread
  cases special with
  | true => exact absurd hnil (hsettled.ne_nil_of_special rfl)
  | false =>
    rw [host?, if_neg Bool.false_ne_true, opaqueHost?] at hread
    split at hread
    case isTrue =>
      obtain ⟨pieces, rfl, -⟩ := exists_of_bracketed? hread
      rw [toList_text_ipv6] at hnil
      exact absurd hnil (List.cons_ne_nil _ _)
    case isFalse =>
      split at hread
      case isTrue => cases hread
      case isFalse =>
        obtain rfl := Option.some.inj hread
        rw [text, String.toList_ofList] at hnil
        exact escape_eq_nil_iff.mp hnil

end Host

end FlagSidecar.Url
