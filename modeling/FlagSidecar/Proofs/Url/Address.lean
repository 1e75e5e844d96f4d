import FlagSidecar.Proofs.Cbor.Record
import FlagSidecar.Proofs.Url.Cut

/-!
# FlagSidecar.Proofs.Url.Address: numeric addresses are read back from their text

An address of four octets is one number below 2 ^ 32, and one of eight pieces is eight numbers below 2 ^ 16: nothing
else is ever read. Such an address has one text, and this text is read as the address. For eight pieces the point is
where the text is cut: its first pair of colons stands where pieces have been left out.

Main statements: `ipv4?_text`, `ipv6?_text`, `lt_of_ipv4?` and `fits_of_ipv6?`.
-/

namespace FlagSidecar.Url

/-! ## Lists read one by one -/

section Lists

variable {α β : Type} {f : α → Option β}

theorem length_of_mapM {xs : List α} {ys : List β} (h : xs.mapM f = some ys) : xs.length = ys.length := by
  induction xs generalizing ys with
  | nil =>
    obtain rfl : [] = ys := Option.some.inj h
    rfl
  | cons x rest ih =>
    rw [List.mapM_cons] at h
    obtain ⟨y, -, h⟩ := Option.bind_eq_some_iff.mp h
    obtain ⟨ys', hrest, h⟩ := Option.bind_eq_some_iff.mp h
    obtain rfl : y :: ys' = ys := Option.some.inj h
    rw [List.length_cons, List.length_cons, ih hrest]

/-- What holds of whatever is read holds of all that was read. -/
theorem forall_of_mapM {p : β → Prop} (hp : ∀ x y, f x = some y → p y) {xs : List α} {ys : List β}
    (h : xs.mapM f = some ys) : ∀ y ∈ ys, p y := by
  induction xs generalizing ys with
  | nil =>
    obtain rfl : [] = ys := Option.some.inj h
    exact List.forall_mem_nil _
  | cons x rest ih =>
    rw [List.mapM_cons] at h
    obtain ⟨y, hx, h⟩ := Option.bind_eq_some_iff.mp h
    obtain ⟨ys', hrest, h⟩ := Option.bind_eq_some_iff.mp h
    obtain rfl : y :: ys' = ys := Option.some.inj h
    exact List.forall_mem_cons.mpr ⟨hp x y hx, ih hrest⟩

end Lists

/-! ## Numbers in a base -/

theorem digit?_digitChar : ∀ d, d < 16 → Hex.digit? (Nat.digitChar d) = some d := by decide

/-- **A number is read back from its digits.** The induction is on the number, by its last digit. -/
theorem ofBase?_toDigits {base : Nat} (hone : 1 < base) (hsixteen : base ≤ 16) (n : Nat) :
    ofBase? base (Nat.toDigits base n) = some n := by
  induction n using Nat.strongRecOn with
  | _ n ih =>
    have hstep (front : Nat) (d : Nat) (hd : d < base) :
        [Nat.digitChar d].foldlM (fun n d => do
          let v ← Hex.digit? d
          if v < base then some (n * base + v) else none) front = some (front * base + d) := by
      have hdigit := digit?_digitChar d (by omega)
      simp [hdigit, hd]
    rw [Nat.toDigits_eq_if hone]
    split
    case isTrue hlt =>
      have := hstep 0 n hlt
      rwa [Nat.zero_mul, Nat.zero_add] at this
    case isFalse hge =>
      have hfront := ih (n / base) (Nat.div_lt_self (by omega) hone)
      rw [ofBase?] at hfront ⊢
      rw [List.foldlM_append, hfront]
      have hlast := hstep (n / base) (n % base) (Nat.mod_lt n (by omega))
      rw [Nat.div_add_mod' n base] at hlast
      exact hlast

theorem exists_of_mem_toDigits {base n : Nat} (hone : 1 < base) {c : Char} (h : c ∈ Nat.toDigits base n) :
    ∃ d, d < base ∧ c = Nat.digitChar d := by
  induction n using Nat.strongRecOn with
  | _ n ih =>
    rw [Nat.toDigits_eq_if hone] at h
    split at h
    case isTrue hlt => exact ⟨n, hlt, List.mem_singleton.mp h⟩
    case isFalse hge =>
      rcases List.mem_append.mp h with h | h
      · exact ih (n / base) (Nat.div_lt_self (by omega) hone) h
      · exact ⟨n % base, Nat.mod_lt n (by omega), List.mem_singleton.mp h⟩

/-- What holds of sixteen digits holds of what is written with them. -/
theorem of_mem_toDigits {p : Char → Prop} {base : Nat} (hone : 1 < base) (hsixteen : base ≤ 16)
    (hp : ∀ d, d < 16 → p (Nat.digitChar d)) {n : Nat} {c : Char} (h : c ∈ Nat.toDigits base n) : p c := by
  obtain ⟨d, hd, rfl⟩ := exists_of_mem_toDigits hone h
  exact hp d (by omega)

theorem isDigit_of_mem_toDigits {n : Nat} {c : Char} (h : c ∈ Nat.toDigits 10 n) :
    Numeral.isDigit c = true := by
  have hdigit : ∀ d, d < 10 → Numeral.isDigit (Nat.digitChar d) = true := by decide
  obtain ⟨d, hd, rfl⟩ := exists_of_mem_toDigits (by decide) h
  exact hdigit d hd

/-- What is read in a base is below a power of it. -/
theorem lt_of_ofBase? {base n : Nat} {ds : List Char} (h : ofBase? base ds = some n) :
    n < base ^ ds.length := by
  induction ds using List.reverseRecOn generalizing n with
  | nil =>
    obtain rfl : 0 = n := Option.some.inj h
    exact Nat.one_pos
  | append_singleton front d ih =>
    rw [ofBase?, List.foldlM_append] at h
    obtain ⟨high, hhigh, hlast⟩ := Option.bind_eq_some_iff.mp h
    have hlt := ih hhigh
    simp only [List.foldlM_cons, List.foldlM_nil, bind_pure] at hlast
    obtain ⟨v, -, hv⟩ := Option.bind_eq_some_iff.mp hlast
    split at hv
    case isTrue hdigit =>
      obtain rfl : high * base + v = n := Option.some.inj hv
      rw [List.length_append, List.length_singleton, Nat.pow_succ]
      calc high * base + v < high * base + base := by omega
        _ = (high + 1) * base := by rw [Nat.add_mul, Nat.one_mul]
        _ ≤ base ^ front.length * base := Nat.mul_le_mul_right base hlt
    case isFalse => cases hv

/-! ## Four octets -/

theorem addressNumber?_toDigits : ∀ n, n < 256 → addressNumber? (Nat.toDigits 10 n) = some n := by
  decide +kernel

/-- The octets of an address, the highest first. -/
def octets (n : Nat) : List Nat := [n / 256 ^ 3 % 256, n / 256 ^ 2 % 256, n / 256 % 256, n % 256]

theorem toList_ipv4Text (n : Nat) :
    (ipv4Text n).toList = ['.'].intercalate ((octets n).map (Nat.toDigits 10)) := by
  rw [ipv4Text, String.toList_intercalate, List.map_map]
  congr 1
  simp [octets]

theorem octets_lt {n k : Nat} (h : k ∈ octets n) : k < 256 := by
  simp only [octets, List.mem_cons, List.not_mem_nil, or_false] at h
  rcases h with rfl | rfl | rfl | rfl <;> exact Nat.mod_lt _ (by decide)

theorem nameParts_ipv4Text (n : Nat) :
    nameParts (ipv4Text n).toList = (octets n).map (Nat.toDigits 10) := by
  have hsplit : splitAtEach (· == '.') (ipv4Text n).toList = (octets n).map (Nat.toDigits 10) := by
    rw [toList_ipv4Text]
    apply splitAtEach_intercalate rfl (List.cons_ne_nil _ _)
    intro part hpart c hc
    have hpart : part ∈ (octets n).map (Nat.toDigits 10) := hpart
    obtain ⟨k, -, rfl⟩ := List.mem_map.mp hpart
    rw [beq_eq_false_iff_ne]
    rintro rfl
    exact absurd (isDigit_of_mem_toDigits hc) (by decide)
  have hlast : ((octets n).map (Nat.toDigits 10)).getLast? ≠ some [] := by
    intro h
    exact Nat.toDigits_ne_nil (Option.some.inj h)
  rw [nameParts, hsplit, if_neg fun h => hlast h.1]

theorem endsInNumber_ipv4Text (n : Nat) : endsInNumber (ipv4Text n).toList = true := by
  have hdigits : (Nat.toDigits 10 (n % 256)).all Numeral.isDigit = true :=
    List.all_eq_true.mpr fun c hc => isDigit_of_mem_toDigits hc
  have hne : (Nat.toDigits 10 (n % 256)).isEmpty = false := List.isEmpty_eq_false_iff.mpr Nat.toDigits_ne_nil
  rw [endsInNumber, nameParts_ipv4Text]
  simp [octets, hdigits, hne]

/-- The number that octets stand for, the highest first. -/
def ofOctets (ks : List Nat) : Nat := ks.foldl (fun n k => n * 256 + k) 0

theorem ofOctets_lt {ks : List Nat} (h : ∀ k ∈ ks, k ≤ 255) : ofOctets ks < 256 ^ ks.length := by
  induction ks using List.reverseRecOn with
  | nil => exact Nat.one_pos
  | append_singleton front k ih =>
    have hfront := ih fun j hj => h j (List.mem_append_left [k] hj)
    have hk := h k (List.mem_append_right front (List.mem_singleton_self k))
    rw [ofOctets] at hfront ⊢
    rw [List.foldl_concat, List.length_append, List.length_singleton, Nat.pow_succ]
    omega

/-- What is read when there are numbers at all: the last one fills the octets that the others leave. -/
theorem ipv4?_of_numbers {cs : List Char} {leading : List Nat} {last : Nat}
    (hlength : leading.length < 4)
    (hnumbers : (nameParts cs).mapM addressNumber? = some (leading ++ [last])) :
    ipv4? cs = if 256 ^ (4 - leading.length) ≤ last ∨ leading.any (255 < ·) then none
      else some (ofOctets leading * 256 ^ (4 - leading.length) + last) := by
  have hparts : (nameParts cs).length = (leading ++ [last]).length := length_of_mapM hnumbers
  have hfour : ¬ 4 < (nameParts cs).length := by
    rw [hparts, List.length_append, List.length_singleton]
    omega
  rw [ipv4?, if_neg hfour, hnumbers]
  simp [ofOctets]

/-- **An address of four octets is read back from its text.** -/
theorem ipv4?_text {n : Nat} (h : n < 2 ^ 32) : ipv4? (ipv4Text n).toList = some n := by
  have hnumbers : (nameParts (ipv4Text n).toList).mapM addressNumber? = some (octets n) := by
    rw [nameParts_ipv4Text]
    exact Cbor.mapM_map_eq_some fun k hk => addressNumber?_toDigits k (octets_lt hk)
  have hlt {k : Nat} (hk : k ∈ octets n) : k < 256 := octets_lt hk
  have hvalue : (((n / 256 ^ 3 % 256 * 256 + n / 256 ^ 2 % 256) * 256 + n / 256 % 256) * 256 + n % 256) = n := by
    omega
  rw [octets] at hnumbers hlt
  generalize n / 256 ^ 3 % 256 = a, n / 256 ^ 2 % 256 = b, n / 256 % 256 = c, n % 256 = d at *
  have ha := hlt (k := a) (by simp)
  have hb := hlt (k := b) (by simp)
  have hc := hlt (k := c) (by simp)
  have hd := hlt (k := d) (by simp)
  have hlength : [a, b, c].length < 4 := Nat.lt_succ_self 3
  rw [ipv4?_of_numbers hlength hnumbers, if_neg]
  · simp only [ofOctets, List.foldl_cons, List.foldl_nil, List.length_cons, List.length_nil]
    rw [Nat.zero_mul, Nat.zero_add]
    exact congrArg some hvalue
  · simp
    omega

/-- **Only numbers of four octets are read.** -/
theorem lt_of_ipv4? {cs : List Char} {n : Nat} (h : ipv4? cs = some n) : n < 2 ^ 32 := by
  by_cases hfour : 4 < (nameParts cs).length
  · rw [ipv4?, if_pos hfour] at h
    cases h
  · have hread := h
    rw [ipv4?, if_neg hfour] at hread
    obtain ⟨numbers, hnumbers, hread⟩ := Option.bind_eq_some_iff.mp hread
    obtain ⟨last, hlast, -⟩ := Option.bind_eq_some_iff.mp hread
    obtain ⟨leading, rfl⟩ := List.getLast?_eq_some_iff.mp hlast
    have hlength := length_of_mapM hnumbers
    rw [List.length_append, List.length_singleton] at hlength
    have hleading : leading.length < 4 := by omega
    rw [ipv4?_of_numbers hleading hnumbers] at h
    split at h
    case isTrue => cases h
    case isFalse hbounds =>
      rw [not_or] at hbounds
      obtain rfl := Option.some.inj h
      have hsmall : ∀ k ∈ leading, k ≤ 255 := by
        intro k hk
        have hnot := List.any_eq_true.not.mp hbounds.2
        by_contra hgt
        exact hnot ⟨k, hk, decide_eq_true (Nat.not_le.mp hgt)⟩
      have hhigh := ofOctets_lt hsmall
      have hlow := Nat.not_le.mp hbounds.1
      -- the last number fills what the leading ones leave of four octets
      calc ofOctets leading * 256 ^ (4 - leading.length) + last
          < (ofOctets leading + 1) * 256 ^ (4 - leading.length) := by
            rw [Nat.add_mul, Nat.one_mul]
            omega
        _ ≤ 256 ^ leading.length * 256 ^ (4 - leading.length) := Nat.mul_le_mul_right _ hhigh
        _ = 2 ^ 32 := by
            rw [← Nat.pow_add, Nat.add_sub_of_le (Nat.le_of_lt hleading)]

/-! ## Eight pieces -/

theorem toList_hexText (n : Nat) : (hexText n).toList = Nat.toDigits 16 n := String.toList_ofList

/-- Pieces with colons between them. -/
def shown (pieces : List Nat) : List Char := [':'].intercalate (pieces.map (Nat.toDigits 16))

theorem toList_shown (pieces : List Nat) :
    (String.intercalate ":" (pieces.map hexText)).toList = shown pieces := by
  rw [String.toList_intercalate, List.map_map, shown]
  congr 2
  funext n
  exact toList_hexText n

theorem ne_of_mem_toDigits {n : Nat} {c : Char} (h : c ∈ Nat.toDigits 16 n) : c ≠ ':' ∧ c ≠ '.' :=
  of_mem_toDigits (by decide) (Nat.le_refl 16) (p := fun c => c ≠ ':' ∧ c ≠ '.') (by decide) h

theorem shown_cons_cons (p q : Nat) (rest : List Nat) :
    shown (p :: q :: rest) = Nat.toDigits 16 p ++ ':' :: shown (q :: rest) := by
  rw [shown, List.map_cons, List.map_cons, List.intercalate_cons_cons, List.append_assoc]
  rfl

/-- Pieces begin with a digit. -/
theorem exists_shown_cons (p : Nat) (rest : List Nat) :
    ∃ c more, shown (p :: rest) = c :: more ∧ c ≠ ':' := by
  obtain ⟨c, more, hdigits⟩ := List.exists_cons_of_ne_nil (Nat.toDigits_ne_nil (n := p) (b := 16))
  have hc := (ne_of_mem_toDigits (n := p) (c := c) (hdigits ▸ List.mem_cons_self)).1
  cases rest with
  | nil => exact ⟨c, more, by rw [shown, List.map_singleton, List.intercalate_singleton, hdigits], hc⟩
  | cons q rest => exact ⟨c, more ++ ':' :: shown (q :: rest), by rw [shown_cons_cons, hdigits]; rfl, hc⟩

theorem splitAtPair_append {part rest : List Char} (h : ':' ∉ part) :
    splitAtPair (part ++ rest) = (part ++ (splitAtPair rest).1, (splitAtPair rest).2) := by
  induction part with
  | nil => rfl
  | cons c part ih =>
    rw [List.mem_cons, not_or] at h
    rw [List.cons_append, splitAtPair, ih h.2]
    · rfl
    · rintro rest' heq -
      exact h.1 heq.symm

/-- Pieces have no pair of colons between them. -/
theorem splitAtPair_shown (pieces : List Nat) (rest : List Char) :
    splitAtPair (shown pieces ++ rest) = (shown pieces ++ (splitAtPair rest).1, (splitAtPair rest).2) := by
  induction pieces with
  | nil => rfl
  | cons p pieces ih =>
    have hcolon : ':' ∉ Nat.toDigits 16 p := fun h => (ne_of_mem_toDigits h).1 rfl
    cases pieces with
    | nil =>
      rw [shown, List.map_singleton, List.intercalate_singleton]
      exact splitAtPair_append hcolon
    | cons q pieces =>
      obtain ⟨c, more, hshown, hc⟩ := exists_shown_cons q pieces
      rw [shown_cons_cons, List.append_assoc, List.cons_append, splitAtPair_append hcolon, splitAtPair, ih]
      · simp
      · rintro rest' - heq
        rw [hshown] at heq
        exact hc (List.cons.inj heq).1

theorem piece?_toDigits {n : Nat} (h : n < 2 ^ 16) : piece? (Nat.toDigits 16 n) = some n := by
  have hlength : (Nat.toDigits 16 n).length ≤ 4 :=
    (Nat.length_toDigits_le_iff (by decide) (by decide)).mpr h
  rw [piece?, if_neg, ofBase?_toDigits (by decide) (Nat.le_refl 16)]
  rw [List.isEmpty_iff, not_or]
  exact ⟨Nat.toDigits_ne_nil, Nat.not_lt.mpr hlength⟩

/-- **Pieces are read back**, whether anything follows them or not. -/
theorem pieces?_shown (atEnd : Bool) {pieces : List Nat} (h : ∀ p ∈ pieces, p < 2 ^ 16) :
    pieces? atEnd (shown pieces) = some pieces := by
  cases pieces with
  | nil => rfl
  | cons p rest =>
    obtain ⟨c, more, hshown, -⟩ := exists_shown_cons p rest
    have hne : ¬ (shown (p :: rest)).isEmpty = true := by
      rw [hshown]
      exact Bool.false_ne_true
    have hgroups : splitAtEach (· == ':') (shown (p :: rest)) = (p :: rest).map (Nat.toDigits 16) := by
      apply splitAtEach_intercalate rfl (List.cons_ne_nil _ _)
      intro part hpart c hc
      have hpart : part ∈ (p :: rest).map (Nat.toDigits 16) := hpart
      obtain ⟨k, -, rfl⟩ := List.mem_map.mp hpart
      exact beq_eq_false_iff_ne.mpr (ne_of_mem_toDigits hc).1
    have hdot : (((p :: rest).map (Nat.toDigits 16)).getLast?.getD []).contains '.' = false := by
      rw [List.getLast?_map]
      cases (p :: rest).getLast? with
      | none => rfl
      | some last =>
        rw [Option.map_some, Option.getD_some, ← Bool.not_eq_true, List.contains_iff_mem]
        exact fun h => (ne_of_mem_toDigits h).2 rfl
    have hread : ((p :: rest).map (Nat.toDigits 16)).mapM piece? = some (p :: rest) :=
      Cbor.mapM_map_eq_some fun k hk => piece?_toDigits (h k hk)
    rw [pieces?, if_neg hne]
    simp only [hgroups, hdot, hread]
    rw [if_neg]
    exact fun h => Bool.false_ne_true h.2

/-! ## The zeros that are left out -/

/-- Of runs the first longest is taken, or what there was before. -/
theorem foldl_longest (runs : List (Nat × Nat)) (best : Nat × Nat) :
    runs.foldl (fun best run => if best.2 < run.2 then run else best) best ∈ best :: runs := by
  induction runs generalizing best with
  | nil => exact List.mem_singleton_self best
  | cons run rest ih =>
    rw [List.foldl_cons]
    rcases List.mem_cons.mp (ih (if best.2 < run.2 then run else best)) with heq | hmem
    · rw [heq]
      split
      · exact List.mem_cons_of_mem best List.mem_cons_self
      · exact List.mem_cons_self
    · exact List.mem_cons_of_mem best (List.mem_cons_of_mem run hmem)

/-- **Zeros stand where they are left out.** -/
theorem longestZeros_zeros {pieces : List Nat} {start length : Nat}
    (h : longestZeros pieces = (start, length)) :
    pieces = pieces.take start ++ List.replicate length 0 ++ pieces.drop (start + length) := by
  have hmem := foldl_longest ((List.range pieces.length).map fun i =>
    (i, ((pieces.drop i).takeWhile (· == 0)).length)) (0, 0)
  have hzeros : List.replicate length 0 = (pieces.drop start).take length := by
    rw [longestZeros] at h
    rw [h] at hmem
    rcases List.mem_cons.mp hmem with heq | hmem
    · obtain ⟨rfl, rfl⟩ := Prod.mk.inj heq
      rfl
    · obtain ⟨i, -, heq⟩ := List.mem_map.mp hmem
      obtain ⟨rfl, rfl⟩ := Prod.mk.inj heq
      -- the run is a front of what begins there, and all of it is zeros
      have hfront := List.prefix_iff_eq_take.mp (List.takeWhile_prefix (l := pieces.drop i) (· == 0))
      rw [← hfront, eq_comm, List.eq_replicate_iff]
      refine ⟨rfl, fun p hp => ?_⟩
      have hzero := List.mem_takeWhile_imp (p := (· == 0)) hp
      exact beq_iff_eq.mp hzero
  rw [hzeros, List.append_assoc, ← List.drop_drop, List.take_append_drop, List.take_append_drop]

theorem length_around_zeros {pieces : List Nat} {start length : Nat} (h : longestZeros pieces = (start, length)) :
    (pieces.take start).length + (pieces.drop (start + length)).length + length = pieces.length := by
  have hlength := congrArg List.length (longestZeros_zeros h)
  rw [List.length_append, List.length_append, List.length_replicate] at hlength
  omega

/-- **An address of eight pieces is read back from its text.** -/
theorem ipv6?_text {pieces : List Nat} (hlength : pieces.length = 8) (h : ∀ p ∈ pieces, p < 2 ^ 16) :
    ipv6? (ipv6Text pieces).toList = some pieces := by
  cases hzeros : longestZeros pieces with
  | mk start length =>
  rw [ipv6Text]
  simp only [hzeros]
  split
  case isTrue =>
    have hsplit := splitAtPair_shown pieces []
    rw [splitAtPair, List.append_nil] at hsplit
    rw [toList_shown, ipv6?, hsplit]
    simp [pieces?_shown true h, hlength]
  case isFalse hlong =>
    have hparts := longestZeros_zeros hzeros
    have hsplit := splitAtPair_shown (pieces.take start)
      (':' :: ':' :: shown (pieces.drop (start + length)))
    have haround := length_around_zeros hzeros
    have hwritten : (pieces.take start).length + (pieces.drop (start + length)).length = 8 - length := by omega
    have hle : length ≤ 8 := by omega
    have hfront : ∀ p ∈ pieces.take start, p < 2 ^ 16 := fun p hp => h p (List.mem_of_mem_take hp)
    have hback : ∀ p ∈ pieces.drop (start + length), p < 2 ^ 16 :=
      fun p hp => h p (List.mem_of_mem_drop hp)
    rw [splitAtPair, List.append_nil] at hsplit
    have htext : (shown (pieces.take start) ++ "::".toList) ++ shown (pieces.drop (start + length)) =
        shown (pieces.take start) ++ ':' :: ':' :: shown (pieces.drop (start + length)) := by simp
    rw [String.toList_append, String.toList_append, toList_shown, toList_shown, htext, ipv6?, hsplit]
    simp only [pieces?_shown false hfront, pieces?_shown true hback, Option.bind_eq_bind, Option.bind_some,
      hwritten]
    rw [if_neg (by omega), Nat.sub_sub_self hle, ← hparts]

theorem lt_of_piece? {ds : List Char} {n : Nat} (h : piece? ds = some n) : n < 2 ^ 16 := by
  rw [piece?] at h
  split at h
  case isTrue => cases h
  case isFalse hfits =>
    rw [not_or] at hfits
    calc n < 16 ^ ds.length := lt_of_ofBase? h
      _ ≤ 16 ^ 4 := Nat.pow_le_pow_right (by decide) (by omega)

theorem le_of_decimalOctet? {ds : List Char} {n : Nat} (h : decimalOctet? ds = some n) : n ≤ 255 := by
  obtain ⟨m, -, h⟩ := Option.bind_eq_some_iff.mp h
  split at h
  case isTrue => cases h
  case isFalse hfits =>
    obtain rfl : m = n := Option.some.inj h
    rw [not_or, not_or] at hfits
    omega

theorem lt_of_pieces? {atEnd : Bool} {cs : List Char} {pieces : List Nat}
    (h : pieces? atEnd cs = some pieces) : ∀ p ∈ pieces, p < 2 ^ 16 := by
  rw [pieces?] at h
  split at h
  case isTrue =>
    obtain rfl : [] = pieces := Option.some.inj h
    exact List.forall_mem_nil _
  case isFalse =>
    simp only at h
    split at h
    case isTrue =>
      obtain ⟨front, hfront, h⟩ := Option.bind_eq_some_iff.mp h
      obtain ⟨octets, hoctets, h⟩ := Option.bind_eq_some_iff.mp h
      have hoctet := forall_of_mapM (fun _ _ => le_of_decimalOctet?) hoctets
      split at h
      case h_1 _ a b c d =>
        obtain rfl := Option.some.inj h
        have ha := hoctet a (by simp)
        have hb := hoctet b (by simp)
        have hc := hoctet c (by simp)
        have hd := hoctet d (by simp)
        intro p hp
        rcases List.mem_append.mp hp with hp | hp
        · exact forall_of_mapM (fun _ _ => lt_of_piece?) hfront p hp
        · simp only [List.mem_cons, List.not_mem_nil, or_false] at hp
          omega
      case h_2 => cases h
    case isFalse => exact forall_of_mapM (fun _ _ => lt_of_piece?) h

/-- **Only eight pieces of two octets are read.** -/
theorem fits_of_ipv6? {cs : List Char} {pieces : List Nat} (h : ipv6? cs = some pieces) :
    pieces.length = 8 ∧ ∀ p ∈ pieces, p < 2 ^ 16 := by
  rw [ipv6?] at h
  split at h
  case h_1 all _ =>
    obtain ⟨read, hread, h⟩ := Option.bind_eq_some_iff.mp h
    split at h
    case isTrue hlength =>
      obtain rfl : read = pieces := Option.some.inj h
      exact ⟨hlength, lt_of_pieces? hread⟩
    case isFalse => cases h
  case h_2 before after _ =>
    obtain ⟨front, hfront, h⟩ := Option.bind_eq_some_iff.mp h
    obtain ⟨back, hback, h⟩ := Option.bind_eq_some_iff.mp h
    simp only at h
    split at h
    case isTrue => cases h
    case isFalse hwritten =>
      obtain rfl := Option.some.inj h
      constructor
      · rw [List.length_append, List.length_append, List.length_replicate]
        omega
      · intro p hp
        rcases List.mem_append.mp hp with hp | hp
        · rcases List.mem_append.mp hp with hp | hp
          · exact lt_of_pieces? hfront p hp
          · rw [List.eq_of_mem_replicate hp]
            decide
        · exact lt_of_pieces? hback p hp

end FlagSidecar.Url
