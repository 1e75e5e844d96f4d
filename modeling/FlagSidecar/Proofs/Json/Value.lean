import FlagSidecar.Json.Value
import FlagSidecar.Proofs.Json.Number

/-!
# FlagSidecar.Proofs.Json.Value: a value is read back from its text

A text is read back character by character, whatever way each of them is escaped. A number is read to its
end because none of the characters that may follow a value goes on with a number. The rest is by the fuel:
every step of the reader takes a character, and two of them at most take the same one.

The values of which this is said hold no doubles. They are the ones that have a single text.

Main statement: `Json.Value.read?_toText`.
-/

namespace FlagSidecar

theorem Hex.digit?_digit : ∀ d, d < 16 → Hex.digit? (Hex.digit d) = some d := by decide

namespace Json.Value

/-! ## Texts -/

/-- The code of a control character is read back. -/
theorem unit?_control {n : Nat} (h : n < 32) (rest : List Char) :
    unit? ('0' :: '0' :: Hex.digit (n / 16) :: Hex.digit (n % 16) :: rest) = some (n, rest) := by
  have hzero : Hex.digit? '0' = some 0 := by decide
  have hhigh := Hex.digit?_digit (n / 16) (by omega)
  have hlow := Hex.digit?_digit (n % 16) (by omega)
  simp only [unit?, hzero, hhigh, hlow, Option.bind_eq_bind, Option.bind_some]
  congr 2
  omega

theorem ofCode_toNat {c : Char} (h : c.toNat < 32) : Unit.ofCode c.toNat = .char c := by
  rw [Unit.ofCode, if_neg (by omega), Char.ofNat_toNat]

/-- **A character is read back**, whatever way it is escaped. -/
theorem units?_escape (c : Char) (fuel : Nat) (rest : List Char) :
    units? (fuel + 1) (escape c ++ rest) =
      (units? fuel rest).map fun p => (.char c :: p.1, p.2) := by
  have hsimple : ∀ e, simpleEscape? e = some c → e ≠ 'u' →
      units? (fuel + 1) ('\\' :: e :: rest) =
        (units? fuel rest).map fun p => (.char c :: p.1, p.2) := by
    intro e he hu
    rw [units?, if_neg (by decide), if_neg (by decide), if_pos rfl]
    simp only [if_neg hu, he, Option.bind_eq_bind, Option.bind_some]
    cases units? fuel rest <;> rfl
  unfold escape
  split
  next h =>
    subst h
    exact hsimple '"' rfl (by decide)
  split
  next h =>
    subst h
    exact hsimple '\\' rfl (by decide)
  split
  next h =>
    subst h
    exact hsimple 'b' rfl (by decide)
  split
  next h =>
    subst h
    exact hsimple 'f' rfl (by decide)
  split
  next h =>
    subst h
    exact hsimple 'n' rfl (by decide)
  split
  next h =>
    subst h
    exact hsimple 'r' rfl (by decide)
  split
  next h =>
    subst h
    exact hsimple 't' rfl (by decide)
  split
  next h =>
    simp only [List.cons_append, List.nil_append]
    rw [units?, if_neg (by decide), if_neg (by decide), if_pos rfl]
    simp only [if_true, unit?_control h, ofCode_toNat h, Option.bind_eq_bind, Option.bind_some]
    cases units? fuel rest <;> rfl
  next hquote hbackslash _ _ _ _ _ hcontrol =>
    rw [List.singleton_append, units?.eq_def]
    simp only [if_neg hquote, if_neg hcontrol, if_neg hbackslash]
    cases units? fuel rest <;> rfl

/-- Each character takes a unit of fuel, and so does the quote behind them. -/
theorem units?_flatMap_escape (cs rest : List Char) {fuel : Nat} (h : cs.length < fuel) :
    units? fuel (cs.flatMap escape ++ '"' :: rest) = some (cs.map .char, rest) := by
  induction cs generalizing fuel with
  | nil =>
    obtain ⟨fuel, rfl⟩ : ∃ m, fuel = m + 1 := ⟨fuel - 1, by simp only [List.length_nil] at h; omega⟩
    rw [List.flatMap_nil, List.nil_append, units?.eq_def]
    rfl
  | cons c cs ih =>
    rw [List.length_cons] at h
    obtain ⟨fuel, rfl⟩ : ∃ m, fuel = m + 1 := ⟨fuel - 1, by omega⟩
    rw [List.flatMap_cons, List.append_assoc, units?_escape, ih (by omega)]
    rfl

theorem ofUnits?_map_char (cs : List Char) : ofUnits? (cs.map .char) = some cs := by
  induction cs with
  | nil => rfl
  | cons c cs ih => rw [List.map_cons, ofUnits?, ih, Option.map_some]

theorem escape_ne_nil (c : Char) : escape c ≠ [] := by
  unfold escape
  repeat' split
  all_goals exact List.cons_ne_nil _ _

theorem length_le_flatMap_escape (cs : List Char) : cs.length ≤ (cs.flatMap escape).length := by
  induction cs with
  | nil => exact Nat.le_refl 0
  | cons c cs ih =>
    have := List.length_pos_iff.mpr (escape_ne_nil c)
    rw [List.length_cons, List.flatMap_cons, List.length_append]
    omega

theorem quote_append (s : String) (rest : List Char) :
    quote s ++ rest = '"' :: (s.toList.flatMap escape ++ '"' :: rest) := by
  rw [quote, List.cons_append, List.cons_append, List.append_assoc, List.singleton_append]

/-- **A text is read back** from behind its first quote. -/
theorem readString_quote (s : String) (rest : List Char) :
    readString (s.toList.flatMap escape ++ '"' :: rest) = some (some s, rest) := by
  have hfuel : s.toList.length < (s.toList.flatMap escape ++ '"' :: rest).length + 1 := by
    have := length_le_flatMap_escape s.toList
    rw [List.length_append]
    omega
  rw [readString, units?_flatMap_escape _ _ hfuel]
  simp only [Option.bind_eq_bind, Option.bind_some, ofUnits?_map_char, Option.map_some,
    String.ofList_toList]

/-! ## Values with a single text -/

mutual

/-- **The value can be told from its text**: its numbers are integers that a word holds, with a sign or
without, and there is nothing in it that was unreadable. -/
def Legible : Value → Prop
  | number (.integer n) => -2 ^ 63 ≤ n ∧ n < 2 ^ 64
  | number (.float _) => False
  | array items => LegibleItems items
  | object entries => LegibleEntries entries
  | unreadable => False
  | _ => True

def LegibleItems : List Value → Prop
  | [] => True
  | v :: rest => Legible v ∧ LegibleItems rest

def LegibleEntries : List (String × Value) → Prop
  | [] => True
  | (_, v) :: rest => Legible v ∧ LegibleEntries rest

end

theorem legibleItems_iff (items : List Value) : LegibleItems items ↔ ∀ v ∈ items, Legible v := by
  induction items with
  | nil => simp [LegibleItems]
  | cons v rest ih => simp [LegibleItems, ih]

theorem legibleEntries_iff (entries : List (String × Value)) :
    LegibleEntries entries ↔ ∀ e ∈ entries, Legible e.2 := by
  induction entries with
  | nil => simp [LegibleEntries]
  | cons e rest ih => simp [LegibleEntries, ih]

/-! ## Where a value begins and ends -/

/-- A character that a number begins with. -/
def BeginsNumber (c : Char) : Prop := Numeral.isDigit c = true ∨ c = '-'

instance : DecidablePred BeginsNumber := fun c =>
  inferInstanceAs (Decidable (Numeral.isDigit c = true ∨ c = '-'))

theorem BeginsNumber.ne {c d : Char} (h : BeginsNumber c) (hd : ¬ BeginsNumber d) : c ≠ d :=
  fun heq => hd (heq ▸ h)

theorem BeginsNumber.not_blank {c : Char} (h : BeginsNumber c) : isBlank c = false := by
  simp only [isBlank, Bool.or_eq_false_iff, beq_eq_false_iff_ne]
  exact ⟨⟨⟨h.ne (by decide), h.ne (by decide)⟩, h.ne (by decide)⟩, h.ne (by decide)⟩

theorem head_ofInt (n : Int) : ∃ c tail, Numeral.ofInt n = c :: tail ∧ BeginsNumber c := by
  rw [Numeral.ofInt]
  split
  · exact ⟨'-', _, rfl, .inr rfl⟩
  · cases hds : Numeral.digits n.natAbs with
    | nil => exact absurd hds (Numeral.digits_ne_nil _)
    | cons d ds =>
      exact ⟨d, ds, rfl, .inl (Numeral.isDigit_of_mem_digits n.natAbs d (hds ▸ List.mem_cons_self))⟩

/-- A text begins with a character that is no blank and ends no array. -/
theorem Legible.head {v : Value} (h : v.Legible) :
    ∃ c tail, v.print = c :: tail ∧ isBlank c = false ∧ c ≠ ']' := by
  cases v with
  | null => exact ⟨'n', _, rfl, by decide, by decide⟩
  | bool b =>
    cases b
    · exact ⟨'f', _, rfl, by decide, by decide⟩
    · exact ⟨'t', _, rfl, by decide, by decide⟩
  | number n =>
    cases n with
    | integer n =>
      obtain ⟨c, tail, hprint, hc⟩ := head_ofInt n
      exact ⟨c, tail, by rw [print, Number.print, hprint], hc.not_blank, hc.ne (by decide)⟩
    | float x => exact absurd h id
  | text s => exact ⟨'"', _, rfl, by decide, by decide⟩
  | array items => cases items <;> exact ⟨'[', _, rfl, by decide, by decide⟩
  | object entries => cases entries <;> exact ⟨'{', _, rfl, by decide, by decide⟩
  | unreadable => exact absurd h id

theorem skipBlanks_cons {c : Char} (h : isBlank c = false) (rest : List Char) :
    skipBlanks (c :: rest) = c :: rest :=
  List.dropWhile_cons_of_neg (by rw [h]; exact Bool.false_ne_true)

theorem Legible.skipBlanks {v : Value} (h : v.Legible) (rest : List Char) :
    Value.skipBlanks (v.print ++ rest) = v.print ++ rest := by
  obtain ⟨c, tail, hprint, hc, -⟩ := h.head
  rw [hprint, List.cons_append, skipBlanks_cons hc]

theorem Legible.length_print_pos {v : Value} (h : v.Legible) : 0 < v.print.length := by
  obtain ⟨c, tail, hprint, -⟩ := h.head
  rw [hprint, List.length_cons]
  exact Nat.succ_pos _

theorem endsNumber_cons {c : Char} (h : ¬ (Numeral.isDigit c = true ∨ c = '.' ∨ c = 'e' ∨ c = 'E'))
    (rest : List Char) : EndsNumber (c :: rest) := by
  obtain ⟨hdigit, hdot, he, hE⟩ : _ ∧ _ ∧ _ ∧ _ := by simpa only [not_or] using h
  intro d hd
  obtain rfl := Option.some.inj hd
  exact ⟨Bool.eq_false_iff.mpr hdigit, hdot, he, hE⟩

/-- What comes behind an item is a comma or the end of the array. -/
theorem endsNumber_printItems (items : List Value) (rest : List Char) :
    EndsNumber (printItems items ++ rest) := by
  cases items with
  | nil => exact endsNumber_cons (by decide) _
  | cons v items =>
    rw [printItems]
    exact endsNumber_cons (by decide) _

theorem endsNumber_printEntries (entries : List (String × Value)) (rest : List Char) :
    EndsNumber (printEntries entries ++ rest) := by
  cases entries with
  | nil => exact endsNumber_cons (by decide) _
  | cons e entries =>
    rw [printEntries]
    exact endsNumber_cons (by decide) _

/-! ## One value, by the kind of it -/

section

variable (fuel : Nat) (rest : List Char)

/-- A character that begins a number begins nothing else. -/
theorem readValue_of_beginsNumber {c : Char} (h : BeginsNumber c) :
    readValue (fuel + 1) (c :: rest) = (Numerals.read? (c :: rest)).map fun p =>
      (match p.1.number with
        | some n => .number n
        | none => .unreadable, p.2) := by
  rw [readValue, skipBlanks_cons h.not_blank]
  split
  next heq => cases heq
  next heq => exact absurd (List.cons.inj heq).1 (h.ne (by decide))
  next heq => exact absurd (List.cons.inj heq).1 (h.ne (by decide))
  next heq => exact absurd (List.cons.inj heq).1 (h.ne (by decide))
  next heq => exact absurd (List.cons.inj heq).1 (h.ne (by decide))
  next heq => exact absurd (List.cons.inj heq).1 (h.ne (by decide))
  next heq => exact absurd (List.cons.inj heq).1 (h.ne (by decide))
  next => cases Numerals.read? (c :: rest) <;> rfl

theorem readValue_integer {n : Int} (hlow : -2 ^ 63 ≤ n) (hhigh : n < 2 ^ 64)
    (hrest : EndsNumber rest) :
    readValue (fuel + 1) (Numeral.ofInt n ++ rest) = some (.number (.integer n), rest) := by
  obtain ⟨c, tail, hprint, hc⟩ := head_ofInt n
  have hread := Numerals.read?_ofInt n hrest
  rw [hprint, List.cons_append] at hread ⊢
  rw [readValue_of_beginsNumber fuel _ hc, hread, Option.map_some]
  simp only [Numerals.number_ofInt hlow hhigh]

theorem readValue_text (s : String) :
    readValue (fuel + 1) (quote s ++ rest) = some (.text s, rest) := by
  rw [quote_append, readValue, skipBlanks_cons (by decide)]
  simp only [readString_quote, Option.map_some, ofText?]

end

/-! ## All values -/

/-- With so much fuel each value is read back. -/
def ReadsValue (fuel : Nat) : Prop :=
  ∀ (v : Value) (rest : List Char), v.Legible → EndsNumber rest → 2 * v.print.length ≤ fuel →
    readValue fuel (v.print ++ rest) = some (v, rest)

/-- And so are the items of an array, from the first. -/
def ReadsItems (fuel : Nat) : Prop :=
  ∀ (v : Value) (items : List Value) (rest : List Char), v.Legible → LegibleItems items →
    2 * (v.print.length + (printItems items).length) ≤ fuel →
      readItems fuel (v.print ++ (printItems items ++ rest)) = some (v :: items, rest)

/-- And so are the entries of an object. -/
def ReadsEntries (fuel : Nat) : Prop :=
  ∀ (key : String) (v : Value) (entries : List (String × Value)) (rest : List Char), v.Legible →
    LegibleEntries entries →
    2 * ((quote key).length + v.print.length + (printEntries entries).length) ≤ fuel →
      readEntries fuel (quote key ++ ':' :: (v.print ++ (printEntries entries ++ rest))) =
        some ((some key, v) :: entries.map fun e => (some e.1, e.2), rest)

theorem length_printItems_pos (items : List Value) : 0 < (printItems items).length := by
  cases items <;> exact Nat.succ_pos _

theorem length_printEntries_pos (entries : List (String × Value)) :
    0 < (printEntries entries).length := by
  cases entries <;> exact Nat.succ_pos _

theorem print_object_append (key : String) (v : Value) (entries : List (String × Value))
    (rest : List Char) :
    (object ((key, v) :: entries)).print ++ rest =
      '{' :: (quote key ++ ':' :: (v.print ++ (printEntries entries ++ rest))) := by
  simp only [print, List.cons_append, List.append_assoc]

theorem ofEntries_map (entries : List (String × Value)) :
    ofEntries (entries.map fun e => (some e.1, e.2)) = .object entries := by
  have hall : entries.mapM (fun e => some (e.1, e.2)) = some (entries.map id) := List.mapM_pure
  rw [ofEntries, List.mapM_map]
  simp only [Function.comp_def, Option.map_some, hall, List.map_id]

theorem readsValue_succ {fuel : Nat} (hitems : ReadsItems fuel) (hentries : ReadsEntries fuel) :
    ReadsValue (fuel + 1) := by
  intro v rest hv hrest hfuel
  cases v with
  | null => rfl
  | bool b => cases b <;> rfl
  | number n =>
    cases n with
    | integer n => exact readValue_integer fuel rest hv.1 hv.2 hrest
    | float x => exact absurd hv id
  | text s => exact readValue_text fuel rest s
  | array items =>
    cases items with
    | nil => rfl
    | cons item items =>
      obtain ⟨hitem, hothers⟩ := hv
      obtain ⟨c, tail, hprint, hc, hbracket⟩ := hitem.head
      simp only [print, List.length_cons, List.length_append] at hfuel
      have hread := hitems item items rest hitem hothers (by omega)
      rw [print, List.cons_append, List.cons_append, List.append_assoc, readValue,
        skipBlanks_cons (by decide)]
      simp only [hitem.skipBlanks]
      -- the first item ends no array, so it is one of the items
      rw [hprint, List.cons_append] at hread ⊢
      split
      next heq => exact absurd (List.cons.inj heq).1 hbracket
      next =>
        rw [hread]
        rfl
  | object entries =>
    cases entries with
    | nil => rfl
    | cons e entries =>
      obtain ⟨key, v⟩ := e
      obtain ⟨hv, hothers⟩ := hv
      simp only [print, List.length_cons, List.length_append] at hfuel
      have hread := hentries key v entries rest hv hothers (by omega)
      rw [print_object_append, readValue, skipBlanks_cons (by decide)]
      rw [quote_append] at hread ⊢
      simp only [skipBlanks_cons (show isBlank '"' = false by decide)]
      show (readEntries fuel _).bind _ = _
      rw [hread]
      show some (ofEntries (((key, v) :: entries).map fun e => (some e.1, e.2)), rest) = _
      rw [ofEntries_map]
  | unreadable => exact absurd hv id

theorem readsItems_succ {fuel : Nat} (hvalue : ReadsValue fuel) (hitems : ReadsItems fuel) :
    ReadsItems (fuel + 1) := by
  intro v items rest hv hothers hfuel
  have hend := length_printItems_pos items
  have hread := hvalue v (printItems items ++ rest) hv (endsNumber_printItems items rest) (by omega)
  rw [readItems, hread]
  cases items with
  | nil => rfl
  | cons next items =>
    obtain ⟨hnext, hothers⟩ := hothers
    have hpos := hv.length_print_pos
    simp only [printItems, List.length_cons, List.length_append] at hfuel
    have hmore := hitems next items rest hnext hothers (by omega)
    simp only [printItems, List.cons_append, List.append_assoc, Option.bind_eq_bind,
      Option.bind_some, skipBlanks_cons (show isBlank ',' = false by decide), hmore]

theorem readsEntries_succ {fuel : Nat} (hvalue : ReadsValue fuel) (hentries : ReadsEntries fuel) :
    ReadsEntries (fuel + 1) := by
  intro key v entries rest hv hothers hfuel
  have hend := length_printEntries_pos entries
  have hread := hvalue v (printEntries entries ++ rest) hv (endsNumber_printEntries entries rest)
    (by omega)
  rw [quote_append, readEntries, skipBlanks_cons (by decide)]
  simp only [readString_quote, Option.bind_eq_bind, Option.bind_some,
    skipBlanks_cons (show isBlank ':' = false by decide), hread]
  cases entries with
  | nil => rfl
  | cons e entries =>
    obtain ⟨name, next⟩ := e
    obtain ⟨hnext, hothers⟩ := hothers
    have hpos := hv.length_print_pos
    simp only [printEntries, List.length_cons, List.length_append] at hfuel
    have hmore := hentries name next entries rest hnext hothers (by omega)
    simp only [printEntries, List.cons_append, List.append_assoc, Option.bind_some,
      skipBlanks_cons (show isBlank ',' = false by decide), hmore, List.map_cons]

/-- **Reading gives the value that was written.** The induction is on the fuel, for values, items and
entries at once. -/
theorem reads_all (fuel : Nat) : ReadsValue fuel ∧ ReadsItems fuel ∧ ReadsEntries fuel := by
  induction fuel with
  | zero =>
    -- without fuel there is nothing to read: every text takes a character
    refine ⟨fun v rest hv _ hfuel => ?_, fun v items rest hv _ hfuel => ?_,
      fun key v entries rest hv _ hfuel => ?_⟩
    all_goals
      have hpos := hv.length_print_pos
      omega
  | succ fuel ih =>
    obtain ⟨hvalue, hitems, hentries⟩ := ih
    exact ⟨readsValue_succ hitems hentries, readsItems_succ hvalue hitems,
      readsEntries_succ hvalue hentries⟩

/-- **A value is read back from its text**, if it can be told from it. -/
theorem read?_toText {v : Value} (h : v.Legible) : read? v.toText = some v := by
  have hread := (reads_all (2 * v.print.length + 2)).1 v [] h endsNumber_nil (by omega)
  rw [List.append_nil] at hread
  simp only [read?, toText, String.toList_ofList, hread, Option.bind_eq_bind, Option.bind_some]
  rfl

end Json.Value

end FlagSidecar
