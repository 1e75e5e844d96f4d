import FlagSidecar.Proofs.Url.Host

/-!
# FlagSidecar.Proofs.Url.Authority: an authority is read back from its text

An authority that was read has its name and password escaped, its host settled and a number only where one does not
go without saying. Its text is cut at the at sign and at the colons it was put together with, so the same authority
is read from it.

Main statements: `Authority.Settled.read_text` and `Authority.settled_of_authority?`.
-/

namespace FlagSidecar.Url.Authority

/-- **An authority in its normal form.** -/
structure Settled (scheme : String) (a : Authority) : Prop where
  username : ∀ c ∈ a.username.toList, escapedInCredentials c = false
  password : ∀ p ∈ a.password, p.toList ≠ [] ∧ ∀ c ∈ p.toList, escapedInCredentials c = false
  host : a.host.Settled (isSpecial scheme)
  number : ∀ n ∈ a.number, n ≤ 65535 ∧ defaultNumber? scheme ≠ some n
  /-- An empty host stands alone. -/
  alone : a.host.text.toList = [] → a.username.toList = [] ∧ a.password = none ∧ a.number = none

/-! ## The written form -/

/-- The name and the password, with the colon between them. -/
def login (a : Authority) : List Char :=
  match a.password with
  | some password => a.username.toList ++ ':' :: password.toList
  | none => a.username.toList

/-- The number and the colon before it. -/
def numbered (a : Authority) : List Char :=
  match a.number with
  | some n => ':' :: Nat.toDigits 10 n
  | none => []

/-- What is written behind the two slashes. -/
def bare (a : Authority) : List Char :=
  (if a.login = [] then [] else a.login ++ ['@']) ++ (a.host.text.toList ++ a.numbered)

theorem toList_credentials (a : Authority) :
    a.credentials.toList = if a.login = [] then [] else a.login ++ ['@'] := by
  rw [credentials, login]
  cases a.password with
  | some password =>
    rw [if_neg (List.append_ne_nil_of_right_ne_nil _ (List.cons_ne_nil _ _))]
    simp only [String.toList_append]
    simp
  | none =>
    cases hname : a.username.isEmpty with
    | true =>
      rw [String.isEmpty_iff] at hname
      simp [hname]
    | false =>
      have hne : a.username.toList ≠ [] := by
        rw [ne_eq, String.toList_eq_nil_iff]
        rintro hnil
        rw [hnil] at hname
        exact absurd hname (by decide)
      simp [hne, String.toList_append]

theorem toList_text (a : Authority) : a.text.toList = '/' :: '/' :: a.bare := by
  have hnumber : ((a.number.map fun p => ":" ++ toString p).getD "").toList = a.numbered := by
    rw [numbered]
    cases a.number with
    | none => rfl
    | some n => simp [String.toList_append]
  rw [text, String.toList_append, String.toList_append, String.toList_append, hnumber, toList_credentials, bare,
    List.append_assoc, List.append_assoc]
  rfl

/-! ## What an authority holds -/

section Characters

variable {scheme : String} {a : Authority}

theorem inAuthority_of_credentials {c : Char} (h : escapedInCredentials c = false) :
    inAuthority c = true ∧ c ≠ '@' := by
  have hpath := path_of_credentials h
  have hfragment := fragment_of_path hpath
  refine ⟨?_, ne_of_not_escaped h rfl⟩
  rw [inAuthority, control_of_fragment hfragment, Bool.not_false, Bool.true_and, Bool.not_eq_true']
  rw [← Bool.not_eq_true, List.contains_iff_mem]
  intro hmem
  have hall : ∀ d ∈ [' ', '/', '\\', '?', '#'], escapedInCredentials d = true := of_all (by decide)
  exact ne_of_not_escaped h (hall c hmem) rfl

theorem inAuthority_of_mem_numbered {c : Char} (h : c ∈ a.numbered) : inAuthority c = true ∧ c ≠ '@' := by
  rw [numbered] at h
  split at h
  · rcases List.mem_cons.mp h with rfl | h
    · decide
    · exact of_mem_toDigits (by decide) (by decide) (p := fun c => inAuthority c = true ∧ c ≠ '@') (by decide) h
  · cases h

theorem Settled.inAuthority_login (h : a.Settled scheme) {c : Char} (hc : c ∈ a.login) :
    inAuthority c = true ∧ c ≠ '@' := by
  rw [login] at hc
  split at hc
  case h_1 password hpassword =>
    rcases List.mem_append.mp hc with hc | hc
    · exact inAuthority_of_credentials (h.username c hc)
    · rcases List.mem_cons.mp hc with rfl | hc
      · decide
      · exact inAuthority_of_credentials ((h.password password hpassword).2 c hc)
  case h_2 => exact inAuthority_of_credentials (h.username c hc)

/-- The host and the number have no at sign. -/
theorem Settled.inAuthority_host (h : a.Settled scheme) {c : Char} (hc : c ∈ a.host.text.toList ++ a.numbered) :
    inAuthority c = true ∧ c ≠ '@' := by
  rcases List.mem_append.mp hc with hc | hc
  · exact h.host.inAuthority c hc
  · exact inAuthority_of_mem_numbered hc

/-- Nothing in an authority ends it. -/
theorem Settled.inAuthority_bare (h : a.Settled scheme) {c : Char} (hc : c ∈ a.bare) : inAuthority c = true := by
  rw [bare] at hc
  rcases List.mem_append.mp hc with hc | hc
  · split at hc
    · cases hc
    · rcases List.mem_append.mp hc with hc | hc
      · exact (h.inAuthority_login hc).1
      · rw [List.mem_singleton.mp hc]
        decide
  · exact (h.inAuthority_host hc).1

theorem Settled.bare_ne_nil (h : a.host.text.toList ≠ []) : a.bare ≠ [] :=
  List.append_ne_nil_of_right_ne_nil _ (List.append_ne_nil_of_left_ne_nil h _)

theorem Settled.bare_ne_nil_of_special (h : a.Settled scheme) (hspecial : isSpecial scheme = true) : a.bare ≠ [] :=
  Settled.bare_ne_nil (h.host.ne_nil_of_special hspecial)

end Characters

/-! ## Reading -/

section Reading

variable {scheme : String} {a : Authority}

theorem cutLast_bare (h : a.Settled scheme) :
    cutLast '@' a.bare =
      (if a.login = [] then none else some a.login, a.host.text.toList ++ a.numbered) := by
  have hmark : '@' ∉ a.host.text.toList ++ a.numbered := fun hc => (h.inAuthority_host hc).2 rfl
  rw [bare]
  split
  · exact cutLast_eq_self hmark
  · rw [List.append_assoc, List.singleton_append]
    exact cutLast_append hmark

theorem cutNumber_host (h : a.Settled scheme) :
    cutNumber false (a.host.text.toList ++ a.numbered) =
      (a.host.text.toList, a.number.map (Nat.toDigits 10)) := by
  rw [h.host.cutNumber_append, numbered]
  cases a.number with
  | none => rw [cutNumber, List.append_nil, Option.map_none]
  | some n => rw [cutNumber, if_pos ⟨rfl, Bool.false_ne_true⟩, List.append_nil, Option.map_some]

theorem credentials_login (h : a.Settled scheme) :
    Url.credentials a.login = (a.username, a.password) := by
  have hmark : ':' ∉ a.username.toList := fun hc => ne_of_not_escaped (h.username ':' hc) rfl rfl
  rw [login, Url.credentials]
  cases hpassword : a.password with
  | none =>
    simp only
    rw [cut_eq_self hmark]
    simp only
    rw [escape_eq_self h.username, String.ofList_toList]
  | some password =>
    obtain ⟨hne, hchars⟩ := h.password password hpassword
    simp only
    rw [cut_append hmark]
    obtain ⟨c, rest, hcons⟩ := List.exists_cons_of_ne_nil hne
    rw [hcons]
    simp only
    rw [← hcons, escape_eq_self h.username, escape_eq_self hchars, String.ofList_toList, String.ofList_toList]

theorem number?_toDigits {n : Nat} (hle : n ≤ 65535) (hdefault : defaultNumber? scheme ≠ some n) :
    number? scheme (Nat.toDigits 10 n) = some (some n) := by
  have hall : (Nat.toDigits 10 n).all Numeral.isDigit = true :=
    List.all_eq_true.mpr fun c hc => isDigit_of_mem_toDigits hc
  have hne : (Nat.toDigits 10 n).isEmpty = false := List.isEmpty_eq_false_iff.mpr Nat.toDigits_ne_nil
  have hvalue : Numeral.value (Nat.toDigits 10 n) = n := by
    have hread := Nat.ofDigitChars_toDigits (b := 10) (n := n) (by decide) (by decide)
    rw [Nat.ofDigitChars] at hread
    simp only [Nat.mul_comm 10] at hread
    exact hread
  rw [number?, if_pos hall, hvalue]
  simp only
  rw [if_neg (Nat.not_lt.mpr hle), hne, if_neg]
  rintro (hfalse | hsame)
  · exact Bool.false_ne_true hfalse
  · exact hdefault hsame

theorem number?_digits (h : a.Settled scheme) :
    number? scheme ((a.number.map (Nat.toDigits 10)).getD []) = some a.number := by
  cases hnumber : a.number with
  | none => rfl
  | some n =>
    obtain ⟨hle, hdefault⟩ := h.number n hnumber
    exact number?_toDigits hle hdefault

/-- **An authority is read back from its text.** -/
theorem Settled.read_text (h : a.Settled scheme) : authority? scheme a.bare = some a := by
  have hcredentials : Url.credentials ((if a.login = [] then none else some a.login).getD []) =
      (a.username, a.password) := by
    rw [← credentials_login h]
    split
    case isTrue hnil => rw [hnil, Option.getD_none]
    case isFalse => rw [Option.getD_some]
  have halone : ¬ (a.host.text.toList.isEmpty = true ∧ (isSpecial scheme = true ∨
      (if a.login = [] then none else some a.login).isSome = true ∨
        (a.number.map (Nat.toDigits 10)).isSome = true)) := by
    rintro ⟨hempty, hmore⟩
    have hnil := List.isEmpty_iff.mp hempty
    obtain ⟨hname, hpassword, hnumber⟩ := h.alone hnil
    rcases hmore with hspecial | hlogin | hdigits
    · exact h.host.ne_nil_of_special hspecial hnil
    · rw [login, hpassword] at hlogin
      simp [hname] at hlogin
    · rw [hnumber] at hdigits
      exact Bool.false_ne_true hdigits
  rw [authority?]
  simp only [cutLast_bare h, cutNumber_host h, if_neg halone, hcredentials, h.host.read_text, number?_digits h]
  rfl

end Reading

/-! ## Authorities that were read -/

section Read

variable {scheme : String} {a : Authority} {cs : List Char}

theorem escaped_of_credentials {username : String} {password : Option String}
    (h : Url.credentials cs = (username, password)) :
    (∀ c ∈ username.toList, escapedInCredentials c = false) ∧
      ∀ p ∈ password, p.toList ≠ [] ∧ ∀ c ∈ p.toList, escapedInCredentials c = false := by
  have hshown (part : List Char) : ∀ c ∈ (String.ofList (escape escapedInCredentials part)).toList,
      escapedInCredentials c = false := by
    intro c hc
    rw [String.toList_ofList] at hc
    exact not_escaped_of_mem_escape credentials_escapeChars hc
  rw [Url.credentials] at h
  simp only at h
  split at h
  case h_1 name c password _ =>
    obtain ⟨rfl, rfl⟩ := Prod.mk.inj h
    refine ⟨hshown name, fun p hp => ?_⟩
    obtain rfl := Option.some.inj hp
    refine ⟨?_, hshown _⟩
    rw [String.toList_ofList]
    exact escape_eq_nil_iff.not.mpr (List.cons_ne_nil _ _)
  case h_2 name _ _ _ =>
    obtain ⟨rfl, rfl⟩ := Prod.mk.inj h
    exact ⟨hshown name, fun p hp => nomatch hp⟩

theorem fits_of_number? {ds : List Char} {number : Option Nat} (h : number? scheme ds = some number) :
    ∀ n ∈ number, n ≤ 65535 ∧ defaultNumber? scheme ≠ some n := by
  intro n hn
  obtain rfl := hn
  rw [number?] at h
  split at h
  case isFalse => cases h
  case isTrue =>
    simp only at h
    split at h
    case isTrue => cases h
    case isFalse hle =>
      split at h
      case isTrue => cases h
      case isFalse hmore =>
        obtain rfl := Option.some.inj (Option.some.inj h)
        exact ⟨Nat.not_lt.mp hle, fun hdefault => hmore (Or.inr hdefault)⟩

/-- **An authority is settled when it is read.** -/
theorem settled_of_authority? (h : authority? scheme cs = some a) : a.Settled scheme := by
  rw [authority?] at h
  simp only at h
  split at h
  case isTrue => cases h
  case isFalse halone =>
    obtain ⟨host, hhost, h⟩ := Option.bind_eq_some_iff.mp h
    obtain ⟨number, hnumber, h⟩ := Option.bind_eq_some_iff.mp h
    obtain rfl := Option.some.inj h
    obtain ⟨husername, hpassword⟩ := escaped_of_credentials
      (rfl : Url.credentials ((cutLast '@' cs).1.getD []) = (_, _))
    refine ⟨husername, hpassword, Host.settled_of_host? hhost, fits_of_number? hnumber, fun hnil => ?_⟩
    -- an empty host was written with nothing around it
    have hempty := Host.eq_nil_of_host? hhost hnil
    rw [hempty, List.isEmpty_nil] at halone
    simp only [true_and, not_or, Bool.not_eq_true, Option.isSome_eq_false_iff, Option.isNone_iff_eq_none] at halone
    obtain ⟨-, hbefore, hdigits⟩ := halone
    rw [hdigits, Option.getD_none] at hnumber
    rw [hbefore, Option.getD_none]
    obtain rfl : none = number := Option.some.inj hnumber
    exact ⟨rfl, rfl, rfl⟩

end Read

end FlagSidecar.Url.Authority
