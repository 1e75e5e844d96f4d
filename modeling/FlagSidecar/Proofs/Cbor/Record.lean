import FlagSidecar.Proofs.Cbor.Nesting

/-!
# FlagSidecar.Proofs.Cbor.Record: fields of a record are found again

A record is written as a map with text keys. Its two readers take it from a generic value, or from the
item as it was written; both find each field under its name, as long as the names are among those that
are asked for and no name occurs twice. From a written item a name must not be too long.

Main statements: `Source.fields?_record` for values and `Written.fields?_record` for written items,
and one small law per typed field.
-/

namespace FlagSidecar.Cbor

open Bytes (utf8)

/-! ## Any source -/

theorem mapM_map_eq_some {α β : Type} {f : α → β} {g : β → Option α} {l : List α}
    (h : ∀ a ∈ l, g (f a) = some a) : (l.map f).mapM g = some l := by
  induction l with
  | nil => rfl
  | cons a rest ih =>
    have ha := h a List.mem_cons_self
    have hrest := ih fun b hb => h b (List.mem_cons_of_mem a hb)
    rw [List.map_cons, List.mapM_cons, ha, hrest]
    rfl

theorem mapM_eq_none_of_mem {α β : Type} {g : β → Option α} {l : List β} {b : β} (hb : b ∈ l)
    (h : g b = none) : l.mapM g = none := by
  induction l with
  | nil => cases hb
  | cons c rest ih =>
    rw [List.mapM_cons]
    rcases List.mem_cons.mp hb with rfl | hb
    · rw [h]
      rfl
    · rw [ih hb]
      cases g c <;> rfl

namespace Source

variable {σ : Type} [Source σ]

/-- A name that is asked for is recognised by its octets, and no other name is. -/
theorem find?_utf8 {names : List String} {name : String} (h : name ∈ names) :
    names.find? (utf8 · = utf8 name) = some name := by
  induction names with
  | nil => cases h
  | cons n rest ih =>
    by_cases hn : n = name
    · simp [hn]
    · -- another name has other octets, so the search goes on
      have hmem : name ∈ rest := by
        rcases List.mem_cons.mp h with rfl | h
        · exact absurd rfl hn
        · exact h
      rw [List.find?_cons_of_neg (by simpa [Bytes.utf8_inj] using hn), ih hmem]

/-- **Fields with distinct names that are asked for are all found**, in their order. -/
theorem pick_fields {names : List String} (key : String → σ)
    (hkey : ∀ name ∈ names, name? (key name) = some (utf8 name)) :
    ∀ {fields : List (String × σ)}, (∀ f ∈ fields, f.1 ∈ names) → (fields.map Prod.fst).Nodup →
      fields?.pick names (fields.map fun f => (key f.1, f.2)) = some fields := by
  intro fields
  induction fields with
  | nil => intro _ _; rfl
  | cons f rest ih =>
    intro hmem hnodup
    obtain ⟨name, x⟩ := f
    rw [List.map_cons, List.nodup_cons] at hnodup
    have hname : name ∈ names := hmem (name, x) List.mem_cons_self
    have hrest := ih (fun g hg => hmem g (List.mem_cons_of_mem _ hg)) hnodup.2
    -- a second field of this name would be a fault
    have hfresh : rest.lookup name = none := by
      rw [List.lookup_eq_none_iff]
      intro g hg
      rw [bne_iff_ne]
      intro h
      exact hnodup.1 (List.mem_map.mpr ⟨g, hg, h.symm⟩)
    simp only [List.map_cons, fields?.pick, hkey name hname, hrest, Option.bind_eq_bind,
      Option.bind_some, find?_utf8 hname, hfresh]
    rfl

end Source

/-! ## Generic values -/

namespace Value

theorem fields?_record {names : List String} {fields : List (String × Value)}
    (hmem : ∀ f ∈ fields, f.1 ∈ names) (hnodup : (fields.map Prod.fst).Nodup) :
    Source.fields? names (record fields) = some fields :=
  Source.pick_fields text (fun _ _ => rfl) hmem hnodup

@[simp] theorem source_text?_text (s : String) : Source.text? (text s) = some s := rfl

@[simp] theorem source_bool?_bool (b : Bool) : Source.bool? (bool b) = some b := rfl

@[simp] theorem source_isNull_text (s : String) : Source.isNull (text s) = false := rfl

@[simp] theorem source_isNull_record (fields : List (String × Value)) :
    Source.isNull (record fields) = false := rfl

theorem ofInt_toInt_eq (n : Int64) : ∃ i : Integer, ofInt n.toInt = integer i ∧ i.val = n.toInt := by
  have hlower := n.le_toInt
  have hupper := n.toInt_lt
  rw [ofInt, Integer.ofInt?, dif_pos (by omega)]
  exact ⟨_, rfl, rfl⟩

@[simp] theorem source_int64?_ofInt (n : Int64) : Source.int64? (ofInt n.toInt) = some n := by
  obtain ⟨i, hi, hval⟩ := ofInt_toInt_eq n
  rw [hi]
  show Width.int64? i.val = some n
  rw [hval, Width.int64?_toInt]

theorem source_list?_array {α : Type} {f : α → Value} {read : Value → Option α} {l : List α}
    (h : ∀ a ∈ l, read (f a) = some a) : Source.list? read (array (l.map f)) = some l :=
  mapM_map_eq_some h

/-- The texts of a map are found again under their names. -/
@[simp] theorem source_textMap?_record (m : NameMap String) :
    Source.textMap? (record (m.entries.map fun e => (e.1, text e.2))) = some m := by
  have h : ((m.entries.map fun e => (e.1, text e.2)).map fun f => (text f.1, f.2)).mapM
      (fun e : Value × Value => do some ((← Source.text? e.1), (← Source.text? e.2))) =
        some m.entries := by
    rw [List.map_map]
    exact mapM_map_eq_some fun e _ => rfl
  show Option.bind (List.mapM _ _) _ = _
  rw [h, Option.bind_some, NameMap.ofList_entries]

end Value

/-! ## Written items -/

namespace Written

open Value (toItem toItems toEntries)

theorem fields?_record {names : List String} {fields : List (String × Value)} (levels : Nat)
    (hshort : ∀ name ∈ names, (utf8 name).length ≤ longestName)
    (hmem : ∀ f ∈ fields, f.1 ∈ names) (hnodup : (fields.map Prod.fst).Nodup) :
    Source.fields? names (⟨levels + 1, (Value.record fields).toItem⟩ : Written) =
      some (fields.map fun f => (f.1, ⟨levels, f.2.toItem⟩)) := by
  let key (name : String) : Written := ⟨levels, .text (.whole (utf8 name))⟩
  have hkey : ∀ name ∈ names, Source.name? (key name) = some (utf8 name) := by
    intro name hname
    show nameOf? (.text (.whole (utf8 name))) = _
    rw [nameOf?, if_pos (hshort name hname), Bytes.text?_utf8, Option.map_some]
  have hentries : Source.entries? (⟨levels + 1, (Value.record fields).toItem⟩ : Written) =
      some ((fields.map fun f => (f.1, (⟨levels, f.2.toItem⟩ : Written))).map
        fun f => (key f.1, f.2)) := by
    show entriesOf? (levels + 1) (Item.untagged (Value.record fields).toItem) = _
    rw [Value.record, toItem, Value.toEntries_eq_map]
    simp only [Item.untagged, entriesOf?, List.map_map]
    rfl
  rw [Source.fields?, hentries]
  refine Source.pick_fields _ hkey ?_ ?_
  · intro f hf
    obtain ⟨g, hg, rfl⟩ := List.mem_map.mp hf
    exact hmem g hg
  · rw [List.map_map]
    exact hnodup

/-- An octet that was written as a number is read back. -/
theorem uint8?_ofUInt8 (levels : Nat) (n : UInt8) :
    Source.uint8? (⟨levels, (Value.integer (.ofUInt8 n)).toItem⟩ : Written) = some n := by
  have hitem : (Value.integer (.ofUInt8 n)).toItem = .unsigned n.toNat.toUInt64 := by
    have h : 0 ≤ (Integer.ofUInt8 n).val := Int.natCast_nonneg _
    rw [toItem, if_pos h]
    rfl
  have hnat : n.toNat.toUInt64.toNat = n.toNat := by simp
  show Option.bind (integerOf? (Value.integer (.ofUInt8 n)).toItem) Width.uint8? = _
  rw [hitem, integerOf?, Option.bind_some, hnat, Width.uint8?_toNat]

theorem isNull_toItem {v : Value} (h : v ≠ .null) (levels : Nat) :
    Source.isNull (⟨levels, v.toItem⟩ : Written) = false := by
  show isNullItem v.toItem = false
  cases v with
  | null => exact absurd rfl h
  | bool b => cases b <;> rfl
  | integer n => by_cases hn : 0 ≤ n.val <;> simp [toItem, hn, isNullItem]
  | _ => rfl

theorem items?_array (items : List Value) (levels : Nat) :
    Source.items? (⟨levels + 1, (Value.array items).toItem⟩ : Written) =
      some (items.map fun v => (⟨levels, v.toItem⟩ : Written)) := by
  show itemsOf? (levels + 1) (Item.untagged (Value.array items).toItem) = _
  rw [toItem, Value.toItems_eq_map]
  simp only [Item.untagged, itemsOf?, List.map_map]
  rfl

/-- A list of values is read back item by item. -/
theorem list?_value?_array {items : List Value} {levels : Nat}
    (h : ∀ v ∈ items, v.Shallow levels) :
    Source.list? value? (⟨levels + 1, (Value.array items).toItem⟩ : Written) = some items := by
  rw [Source.list?, items?_array]
  exact mapM_map_eq_some fun v hv => Value.ofItem?_toItem_of_shallow (h v hv)

/-- A list is refused if one of its values nests too deep. -/
theorem list?_value?_array_of_deep {items : List Value} {levels : Nat} {v : Value} (hv : v ∈ items)
    (hdeep : levels < v.depth) (hplain : v.Plain) :
    Source.list? value? (⟨levels + 1, (Value.array items).toItem⟩ : Written) = none := by
  rw [Source.list?, items?_array]
  exact mapM_eq_none_of_mem (List.mem_map.mpr ⟨v, hv, rfl⟩)
    (Value.ofItem?_toItem_of_deep v levels hdeep hplain)

end Written

end FlagSidecar.Cbor
