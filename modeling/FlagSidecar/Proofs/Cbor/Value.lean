import FlagSidecar.Cbor.Reader
import FlagSidecar.Proofs.Cbor.Head

/-!
# FlagSidecar.Proofs.Cbor.Value: a value is read back from its written form

Reading goes in two steps, and so does the argument. `Value.toItem` is the data item that the written
form of a value spells; `Item.read?_write` says that reading octets gives that item and leaves what
follows, and `Value.ofItem?_toItem` that the item stands for the value it came from.

The second step has two limits. A value may nest at most as deep as the reader allows, and it must be
`Plain`: octets directly under tag 2 or 3 are taken for a number, so such a tag may come back as an
integer. The first step has one: an argument of a head is a 64-bit word, so the value must be
`Announceable`, with every length below `2^64`, as all that a machine holds is.

Main statements: `Written.read?_write`, `Value.ofItem?_toItem` and `Value.ofItem?_toItem_of_deep`.
-/

namespace FlagSidecar.Cbor

open Bytes (utf8)

/-! ## The item that a value is written as -/

namespace Value

mutual

/-- The data item that the written form of a value spells. -/
def toItem : Value → Item
  | null => .simple 22
  | bool false => .simple 20
  | bool true => .simple 21
  | integer n =>
    if 0 ≤ n.val then .unsigned n.val.toNat.toUInt64 else .negative (-1 - n.val).toNat.toUInt64
  | float x => .float x
  | text s => .text (.whole (utf8 s))
  | bytes octets => .bytes (.whole octets)
  | array items => .array (toItems items)
  | map entries => .map (toEntries entries)
  | tag number inner => .tag number (toItem inner)

def toItems : List Value → List Item
  | [] => []
  | v :: rest => toItem v :: toItems rest

def toEntries : List (Value × Value) → List (Item × Item)
  | [] => []
  | (k, v) :: rest => (toItem k, toItem v) :: toEntries rest

end

theorem toItems_eq_map (items : List Value) : toItems items = items.map toItem := by
  induction items with
  | nil => rfl
  | cons v rest ih => simp [toItems, ih]

theorem toEntries_eq_map (entries : List (Value × Value)) :
    toEntries entries = entries.map fun e => (toItem e.1, toItem e.2) := by
  induction entries with
  | nil => rfl
  | cons e rest ih => simp [toEntries, ih]

/-! ## Lengths -/

mutual

/-- **Every length can be announced**: the head of a string, an array or a map says in 64 bits how many
parts follow. -/
def Announceable : Value → Prop
  | text s => (utf8 s).length < 2 ^ 64
  | bytes octets => octets.length < 2 ^ 64
  | array items => items.length < 2 ^ 64 ∧ AnnounceableItems items
  | map entries => entries.length < 2 ^ 64 ∧ AnnounceableEntries entries
  | tag _ inner => Announceable inner
  | _ => True

def AnnounceableItems : List Value → Prop
  | [] => True
  | v :: rest => Announceable v ∧ AnnounceableItems rest

def AnnounceableEntries : List (Value × Value) → Prop
  | [] => True
  | (k, v) :: rest => Announceable k ∧ Announceable v ∧ AnnounceableEntries rest

end

/-- No value is written without octets: a head has one at least. -/
theorem length_write_pos (v : Value) : 0 < (write v).length := by
  cases v with
  | null => simp [write]
  | bool b => cases b <;> simp [write]
  | integer n =>
    rw [write, writeInteger]
    split <;> exact Head.length_write_pos _ _
  | float x =>
    rw [write]
    exact Head.length_writeFloat_pos x
  | text s =>
    rw [write, List.length_append]
    exact Nat.add_pos_left (Head.length_write_pos 3 _) _
  | bytes octets =>
    rw [write, List.length_append]
    exact Nat.add_pos_left (Head.length_write_pos 2 _) _
  | array items =>
    rw [write, List.length_append]
    exact Nat.add_pos_left (Head.length_write_pos 4 _) _
  | map entries =>
    rw [write, List.length_append]
    exact Nat.add_pos_left (Head.length_write_pos 5 _) _
  | tag number inner =>
    rw [write, List.length_append]
    exact Nat.add_pos_left (Head.length_write_pos 6 _) _

/-- Every item of a list takes an octet at least. -/
theorem length_le_writeItems (items : List Value) : items.length ≤ (writeItems items).length := by
  induction items with
  | nil => simp
  | cons v rest ih =>
    have := length_write_pos v
    simp only [writeItems, List.length_cons, List.length_append]
    omega

theorem length_le_writeEntries (entries : List (Value × Value)) :
    entries.length ≤ (writeEntries entries).length := by
  induction entries with
  | nil => simp
  | cons e rest ih =>
    have := length_write_pos e.1
    simp only [writeEntries, List.length_cons, List.length_append]
    omega

mutual

/-- What is written in fewer than `2^64` octets has no longer part. -/
theorem announceable_of_length_write : ∀ v : Value, (write v).length < 2 ^ 64 → Announceable v
  | .null, _ => trivial
  | .bool _, _ => trivial
  | .integer _, _ => trivial
  | .float _, _ => trivial
  | .text s, h => by
    simp only [write, List.length_append] at h
    show (utf8 s).length < 2 ^ 64
    omega
  | .bytes octets, h => by
    simp only [write, List.length_append] at h
    show octets.length < 2 ^ 64
    omega
  | .array items, h => by
    have hcount := length_le_writeItems items
    simp only [write, List.length_append] at h
    exact ⟨by omega, announceableItems_of_length_write items (by omega)⟩
  | .map entries, h => by
    have hcount := length_le_writeEntries entries
    simp only [write, List.length_append] at h
    exact ⟨by omega, announceableEntries_of_length_write entries (by omega)⟩
  | .tag _ inner, h => by
    simp only [write, List.length_append] at h
    exact announceable_of_length_write inner (by omega)

theorem announceableItems_of_length_write : ∀ items : List Value,
    (writeItems items).length < 2 ^ 64 → AnnounceableItems items
  | [], _ => trivial
  | v :: rest, h => by
    simp only [writeItems, List.length_append] at h
    exact ⟨announceable_of_length_write v (by omega),
      announceableItems_of_length_write rest (by omega)⟩

theorem announceableEntries_of_length_write : ∀ entries : List (Value × Value),
    (writeEntries entries).length < 2 ^ 64 → AnnounceableEntries entries
  | [], _ => trivial
  | (k, v) :: rest, h => by
    simp only [writeEntries, List.length_append] at h
    exact ⟨announceable_of_length_write k (by omega), announceable_of_length_write v (by omega),
      announceableEntries_of_length_write rest (by omega)⟩

end

end Value

/-! ## Reading the item back -/

namespace Item

open Value (write writeItems writeEntries toItem toItems toEntries)

/-- A number below `2^64` is kept by the word that announces it. -/
theorem toNat_toUInt64 {n : Nat} (h : n < 2 ^ 64) : n.toUInt64.toNat = n := by
  simpa using Nat.mod_eq_of_lt h

/-- A string that was announced with its length is read back. -/
theorem readStrand_whole (kind : StringKind) (fuel : Nat) {octets : Bytes}
    (h : octets.length < 2 ^ 64) (rest : Bytes) :
    readStrand kind fuel (some octets.length.toUInt64) (octets ++ rest) =
      some (.whole octets, rest) := by
  simp only [readStrand, toNat_toUInt64 h, Bytes.take?_append, Option.map_some]

theorem readItem_integer (n : Integer) (fuel : Nat) (rest : Bytes) :
    readItem (fuel + 1) (Value.writeInteger n.val ++ rest) = some (toItem (.integer n), rest) := by
  have hlower := n.lower
  have hupper := n.upper
  simp only [Value.writeInteger, toItem]
  split
  · rw [readItem, Head.read?_write (by omega) (by omega)]
    rfl
  · rw [readItem, Head.read?_write (by omega) (by omega)]
    rfl

/-- So much fuel reads every value back whose written form it can pay for, two for an octet. -/
def ReadsItem (fuel : Nat) : Prop :=
  ∀ (v : Value) (rest : Bytes), v.Announceable → 2 * (write v).length ≤ fuel →
    readItem fuel (write v ++ rest) = some (toItem v, rest)

/-- The same of lists of values, which take one more step. -/
def ReadsItems (fuel : Nat) : Prop :=
  ∀ (items : List Value) (rest : Bytes), Value.AnnounceableItems items →
    2 * (writeItems items).length + 1 ≤ fuel →
    readItems fuel items.length (writeItems items ++ rest) = some (toItems items, rest)

/-- The same of lists of entries. -/
def ReadsEntries (fuel : Nat) : Prop :=
  ∀ (entries : List (Value × Value)) (rest : Bytes), Value.AnnounceableEntries entries →
    2 * (writeEntries entries).length + 1 ≤ fuel →
    readEntries fuel entries.length (writeEntries entries ++ rest) = some (toEntries entries, rest)

/-- One more step reads a value whose parts can be read. -/
theorem readsItem_succ {fuel : Nat} (single : ReadsItem fuel) (list : ReadsItems fuel)
    (entries : ReadsEntries fuel) : ReadsItem (fuel + 1) := by
  intro v rest hlengths hfuel
  cases v with
  | null => rfl
  | bool b => cases b <;> rfl
  | integer n => exact readItem_integer n fuel rest
  | float x =>
    rw [write, readItem, Head.read?_writeFloat]
    rfl
  | text s =>
    have hlength : (utf8 s).length < 2 ^ 64 := hlengths
    rw [write, List.append_assoc, readItem, Head.read?_write (by omega) hlength]
    show (readStrand .text fuel (some (utf8 s).length.toUInt64) (utf8 s ++ rest)).bind _ = _
    rw [readStrand_whole _ _ hlength]
    rfl
  | bytes octets =>
    have hlength : octets.length < 2 ^ 64 := hlengths
    rw [write, List.append_assoc, readItem, Head.read?_write (by omega) hlength]
    show (readStrand .octets fuel (some octets.length.toUInt64) (octets ++ rest)).bind _ = _
    rw [readStrand_whole _ _ hlength]
    rfl
  | array vs =>
    -- the octet of the head pays for the step that the list takes beyond its items
    have hhead := Head.length_write_pos 4 vs.length
    obtain ⟨hlength, hitems⟩ := hlengths
    simp only [write, List.length_append] at hfuel
    rw [write, List.append_assoc, readItem, Head.read?_write (by omega) hlength]
    show (readItems fuel vs.length.toUInt64.toNat (writeItems vs ++ rest)).bind _ = _
    rw [toNat_toUInt64 hlength, list vs rest hitems (by omega)]
    rfl
  | map es =>
    have hhead := Head.length_write_pos 5 es.length
    obtain ⟨hlength, hentries⟩ := hlengths
    simp only [write, List.length_append] at hfuel
    rw [write, List.append_assoc, readItem, Head.read?_write (by omega) hlength]
    show (readEntries fuel es.length.toUInt64.toNat (writeEntries es ++ rest)).bind _ = _
    rw [toNat_toUInt64 hlength, entries es rest hentries (by omega)]
    rfl
  | tag number inner =>
    have hhead := Head.length_write_pos 6 number.toNat
    have hnumber := number.toNat_lt
    have hinner : inner.Announceable := hlengths
    simp only [write, List.length_append] at hfuel
    have hword : number.toNat.toUInt64 = number := by simp
    rw [write, List.append_assoc, readItem, Head.read?_write (by omega) (by omega)]
    show (readItem fuel (write inner ++ rest)).bind _ = _
    rw [single inner rest hinner (by omega)]
    show some (Item.tag number.toNat.toUInt64 (toItem inner), rest) = _
    rw [hword, toItem]

theorem readsItems_succ {fuel : Nat} (single : ReadsItem fuel) (list : ReadsItems fuel) :
    ReadsItems (fuel + 1) := by
  intro vs rest hlengths hfuel
  cases vs with
  | nil => rfl
  | cons v vs =>
    have hv := Value.length_write_pos v
    obtain ⟨hfirst, hothers⟩ := hlengths
    simp only [writeItems, List.length_append] at hfuel
    rw [writeItems, List.length_cons, List.append_assoc, readItems, single v _ hfirst (by omega)]
    simp only [Option.bind_eq_bind, Option.bind_some, list vs rest hothers (by omega), toItems]

theorem readsEntries_succ {fuel : Nat} (single : ReadsItem fuel) (entries : ReadsEntries fuel) :
    ReadsEntries (fuel + 1) := by
  intro es rest hlengths hfuel
  cases es with
  | nil => rfl
  | cons e es =>
    obtain ⟨k, v⟩ := e
    have hk := Value.length_write_pos k
    have hv := Value.length_write_pos v
    obtain ⟨hkey, hvalue, hothers⟩ := hlengths
    simp only [writeEntries, List.length_append] at hfuel
    rw [writeEntries, List.length_cons, List.append_assoc, List.append_assoc, readEntries,
      single k _ hkey (by omega)]
    simp only [Option.bind_eq_bind, Option.bind_some, single v _ hvalue (by omega),
      entries es rest hothers (by omega), toEntries]

/-- **Reading gives the item that was written.** The induction is on the fuel, for values, lists of
values and lists of entries at once. -/
theorem reads_all (fuel : Nat) : ReadsItem fuel ∧ ReadsItems fuel ∧ ReadsEntries fuel := by
  induction fuel with
  | zero =>
    -- without fuel there is nothing to read: even null takes an octet
    refine ⟨?_, ?_, ?_⟩
    · intro v rest _ hfuel
      have hpos := Value.length_write_pos v
      omega
    · intro items rest _ hfuel
      omega
    · intro entries rest _ hfuel
      omega
  | succ fuel ih =>
    obtain ⟨single, list, entries⟩ := ih
    exact ⟨readsItem_succ single list entries, readsItems_succ single list,
      readsEntries_succ single entries⟩

/-- The item that was written is the one that is read, and what follows it is left. -/
theorem read?_write {v : Value} (h : v.Announceable) (rest : Bytes) :
    read? (write v ++ rest) = some (toItem v, rest) := by
  refine (reads_all _).1 v rest h ?_
  simp only [List.length_append]
  omega

end Item

/-! ## The value that the item stands for -/

namespace Value

mutual

/-- **No tag 2 or 3 stands directly over octets.** Such a tag spells a number, and is read as one. -/
def Plain : Value → Prop
  | tag number (bytes _) => number ≠ 2 ∧ number ≠ 3
  | tag _ inner => Plain inner
  | array items => PlainItems items
  | map entries => PlainEntries entries
  | _ => True

def PlainItems : List Value → Prop
  | [] => True
  | v :: rest => Plain v ∧ PlainItems rest

def PlainEntries : List (Value × Value) → Prop
  | [] => True
  | (k, v) :: rest => Plain k ∧ Plain v ∧ PlainEntries rest

end

theorem plainItems_iff (items : List Value) : PlainItems items ↔ ∀ v ∈ items, Plain v := by
  induction items with
  | nil => simp [PlainItems]
  | cons v rest ih => simp [PlainItems, ih]

theorem plainEntries_iff (entries : List (Value × Value)) :
    PlainEntries entries ↔ ∀ e ∈ entries, Plain e.1 ∧ Plain e.2 := by
  induction entries with
  | nil => simp [PlainEntries]
  | cons e rest ih => simp [PlainEntries, ih, and_assoc]

theorem depthItems_le_iff (items : List Value) (n : Nat) :
    depthItems items ≤ n ↔ ∀ v ∈ items, depth v ≤ n := by
  induction items with
  | nil => simp [depthItems]
  | cons v rest ih => rw [depthItems, Nat.max_le, ih, List.forall_mem_cons]

theorem depthEntries_le_iff (entries : List (Value × Value)) (n : Nat) :
    depthEntries entries ≤ n ↔ ∀ e ∈ entries, depth e.1 ≤ n ∧ depth e.2 ≤ n := by
  induction entries with
  | nil => simp [depthEntries]
  | cons e rest ih =>
    obtain ⟨k, v⟩ := e
    rw [depthEntries, Nat.max_le, Nat.max_le, ih, List.forall_mem_cons]

theorem ofItem?_integer (n : Integer) (levels : Nat) :
    ofItem? levels (toItem (.integer n)) = some (.integer n) := by
  have hlower := n.lower
  have hupper := n.upper
  simp only [toItem]
  split
  · next h =>
    have hn : Integer.ofUInt64 n.val.toNat.toUInt64 = n := by
      have hword := Item.toNat_toUInt64 (show n.val.toNat < 2 ^ 64 by omega)
      rw [Integer.mk.injEq]
      show (n.val.toNat.toUInt64.toNat : Int) = n.val
      omega
    cases levels <;> rw [ofItem?, hn]
  · next h =>
    have hn : Integer.ofNegative (-1 - n.val).toNat.toUInt64 = n := by
      have hword := Item.toNat_toUInt64 (show (-1 - n.val).toNat < 2 ^ 64 by omega)
      rw [Integer.mk.injEq]
      show -1 - ((-1 - n.val).toNat.toUInt64.toNat : Int) = n.val
      omega
    cases levels <;> rw [ofItem?, hn]

/-- Octets under tag 2 or 3 are the only way to a number, and a plain value has none. -/
theorem bignumOctets?_of_plain {number : UInt64} {inner : Value} (h : Plain (.tag number inner)) :
    (if number = 2 ∨ number = 3 then bignumOctets? (toItem inner) else none) = none := by
  cases inner with
  | bytes octets => rw [if_neg (not_or.mpr h)]
  | bool b => cases b <;> simp [toItem, bignumOctets?]
  | integer n => by_cases hn : 0 ≤ n.val <;> simp [toItem, hn, bignumOctets?]
  | _ => simp [toItem, bignumOctets?]

/-- What stands under a tag in a plain value is plain, octets included. -/
theorem plain_of_plain_tag {number : UInt64} {inner : Value} (h : Plain (.tag number inner)) :
    Plain inner := by
  cases inner with
  | bytes octets => trivial
  | _ => exact h

mutual

/-- **The item stands for its value**, if the value does not nest too deep and is plain. -/
theorem ofItem?_toItem : ∀ (v : Value) (levels : Nat), depth v ≤ levels → Plain v →
    ofItem? levels (toItem v) = some v
  | .null, levels, _, _ => by cases levels <;> rfl
  | .bool b, levels, _, _ => by cases levels <;> cases b <;> rfl
  | .integer n, levels, _, _ => ofItem?_integer n levels
  | .float x, levels, _, _ => by cases levels <;> rfl
  | .text s, levels, _, _ => by
    have h : (Strand.whole (utf8 s)).text? = some s := Bytes.text?_utf8 s
    cases levels <;> rw [toItem, ofItem?, h, Option.map_some]
  | .bytes octets, levels, _, _ => by cases levels <;> rfl
  | .array items, levels, hdepth, hplain => by
    simp only [depth] at hdepth
    obtain ⟨levels, rfl⟩ : ∃ m, levels = m + 1 := ⟨levels - 1, by omega⟩
    rw [toItem, ofItem?, ofItems?_toItems items levels (by omega) hplain, Option.map_some]
  | .map entries, levels, hdepth, hplain => by
    simp only [depth] at hdepth
    obtain ⟨levels, rfl⟩ : ∃ m, levels = m + 1 := ⟨levels - 1, by omega⟩
    rw [toItem, ofItem?, ofEntries?_toEntries entries levels (by omega) hplain, Option.map_some]
  | .tag number inner, levels, hdepth, hplain => by
    simp only [depth] at hdepth
    obtain ⟨levels, rfl⟩ : ∃ m, levels = m + 1 := ⟨levels - 1, by omega⟩
    have hread : ofItem? levels (toItem inner) = some inner :=
      ofItem?_toItem inner levels (by omega) (plain_of_plain_tag hplain)
    rw [toItem, ofItem?, bignumOctets?_of_plain hplain]
    simp only [hread, Option.map_some]

theorem ofItems?_toItems : ∀ (items : List Value) (levels : Nat), depthItems items ≤ levels →
    PlainItems items → ofItems? levels (toItems items) = some items
  | [], _, _, _ => rfl
  | v :: rest, levels, hdepth, hplain => by
    simp only [depthItems] at hdepth
    obtain ⟨hv, hrest⟩ := hplain
    rw [toItems, ofItems?, ofItem?_toItem v levels (by omega) hv,
      ofItems?_toItems rest levels (by omega) hrest]
    rfl

theorem ofEntries?_toEntries : ∀ (entries : List (Value × Value)) (levels : Nat),
    depthEntries entries ≤ levels → PlainEntries entries →
    ofEntries? levels (toEntries entries) = some entries
  | [], _, _, _ => rfl
  | (k, v) :: rest, levels, hdepth, hplain => by
    simp only [depthEntries] at hdepth
    obtain ⟨hk, hv, hrest⟩ := hplain
    rw [toEntries, ofEntries?, ofItem?_toItem k levels (by omega) hk,
      ofItem?_toItem v levels (by omega) hv, ofEntries?_toEntries rest levels (by omega) hrest]
    rfl

end

mutual

/-- **A plain value that nests deeper is refused**, so the levels are exactly what a reader allows. -/
theorem ofItem?_toItem_of_deep : ∀ (v : Value) (levels : Nat), levels < depth v → Plain v →
    ofItem? levels (toItem v) = none
  | .null, levels, hdeep, _ => absurd hdeep (Nat.not_lt_zero levels)
  | .bool _, levels, hdeep, _ => absurd hdeep (Nat.not_lt_zero levels)
  | .integer _, levels, hdeep, _ => absurd hdeep (Nat.not_lt_zero levels)
  | .float _, levels, hdeep, _ => absurd hdeep (Nat.not_lt_zero levels)
  | .text _, levels, hdeep, _ => absurd hdeep (Nat.not_lt_zero levels)
  | .bytes _, levels, hdeep, _ => absurd hdeep (Nat.not_lt_zero levels)
  | .array _, 0, _, _ => by rw [toItem, ofItem?]
  | .array items, levels + 1, hdeep, hplain => by
    rw [toItem, ofItem?, ofItems?_toItems_of_deep items levels (Nat.lt_of_succ_lt_succ hdeep) hplain,
      Option.map_none]
  | .map _, 0, _, _ => by rw [toItem, ofItem?]
  | .map entries, levels + 1, hdeep, hplain => by
    rw [toItem, ofItem?,
      ofEntries?_toEntries_of_deep entries levels (Nat.lt_of_succ_lt_succ hdeep) hplain,
      Option.map_none]
  | .tag number inner, 0, _, hplain => by
    rw [toItem, ofItem?, bignumOctets?_of_plain hplain]
  | .tag number inner, levels + 1, hdeep, hplain => by
    have hread : ofItem? levels (toItem inner) = none :=
      ofItem?_toItem_of_deep inner levels (Nat.lt_of_succ_lt_succ hdeep) (plain_of_plain_tag hplain)
    rw [toItem, ofItem?, bignumOctets?_of_plain hplain]
    simp only [hread, Option.map_none]

theorem ofItems?_toItems_of_deep : ∀ (items : List Value) (levels : Nat),
    levels < depthItems items → PlainItems items → ofItems? levels (toItems items) = none
  | [], levels, hdeep, _ => absurd hdeep (Nat.not_lt_zero levels)
  | v :: rest, levels, hdeep, hplain => by
    simp only [depthItems] at hdeep
    obtain ⟨hv, hrest⟩ := hplain
    rw [toItems, ofItems?]
    -- the first item is refused, or it is read and the others are refused
    rcases Nat.lt_or_ge levels (depth v) with hfirst | hfirst
    · rw [ofItem?_toItem_of_deep v levels hfirst hv]
      rfl
    · rw [ofItem?_toItem v levels hfirst hv, ofItems?_toItems_of_deep rest levels (by omega) hrest]
      rfl

theorem ofEntries?_toEntries_of_deep : ∀ (entries : List (Value × Value)) (levels : Nat),
    levels < depthEntries entries → PlainEntries entries →
    ofEntries? levels (toEntries entries) = none
  | [], levels, hdeep, _ => absurd hdeep (Nat.not_lt_zero levels)
  | (k, v) :: rest, levels, hdeep, hplain => by
    simp only [depthEntries] at hdeep
    obtain ⟨hk, hv, hrest⟩ := hplain
    rw [toEntries, ofEntries?]
    rcases Nat.lt_or_ge levels (depth k) with hkey | hkey
    · rw [ofItem?_toItem_of_deep k levels hkey hk]
      rfl
    · rw [ofItem?_toItem k levels hkey hk]
      rcases Nat.lt_or_ge levels (depth v) with hvalue | hvalue
      · rw [ofItem?_toItem_of_deep v levels hvalue hv]
        rfl
      · rw [ofItem?_toItem v levels hvalue hv,
          ofEntries?_toEntries_of_deep rest levels (by omega) hrest]
        rfl

end

end Value

/-- What is read of a written value, as a message: the item that spells it, with all levels left. -/
theorem Written.read?_write {v : Value} (h : v.Announceable) (rest : Bytes) :
    Written.read? (v.write ++ rest) = some ⟨nestingLimit, v.toItem⟩ := by
  rw [Written.read?, Item.read?_write h, Option.map_some]

end FlagSidecar.Cbor
