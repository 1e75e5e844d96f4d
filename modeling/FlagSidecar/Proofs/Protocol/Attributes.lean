import FlagSidecar.Proofs.Protocol.Request

/-!
# FlagSidecar.Proofs.Protocol.Attributes: what is kept of the attributes that a client sends

Every value either stands for one attribute or for none; `Attribute.Kept` and `Attribute.Dropped` say which,
shape by shape. Of the entries of a map those count whose key is text and whose value stands for something,
and of several under one name the last of these. All others might as well not be there.

What was kept is kept again: sent as clients send attributes, also as octets, it stands for itself, although
the values that it came from may have had other shapes.

Main statement: `Attributes.keeps_representable`.
-/

namespace FlagSidecar

open Cbor (Value)

/-! ## Values -/

namespace Attribute

/-- **The attribute that a value stands for.** -/
inductive Kept : Value → Attribute → Prop where
  | null : Kept .null .null
  | bool (b : Bool) : Kept (.bool b) (.bool b)
  | text (s : String) : Kept (.text s) (.str s)
  | float (x : Binary64) : Kept (.float x) (.float x)
  /-- An integer within 64 bits. -/
  | int {n : Cbor.Integer} {i : Int64} (hval : n.val = i.toInt) : Kept (.integer n) (.int i)
  | wide {n : Cbor.Integer} (hwide : n.val < -2 ^ 63 ∨ 2 ^ 63 ≤ n.val) :
    Kept (.integer n) (.float (.ofInt n.val))
  /-- The longest run of texts that an array begins with. -/
  | list (texts : List String) {rest : List Value} (hrest : ∀ s more, rest ≠ .text s :: more) :
    Kept (.array (texts.map .text ++ rest)) (.list texts)
  /-- The seconds since 1970 of an instant that a text says. -/
  | date {s : String} {i : Int64} (hdate : Rfc3339.seconds? s = some i.toInt) :
    Kept (.tag 0 (.text s)) (.int i)
  | epoch {n : Cbor.Integer} {i : Int64} (hval : n.val = i.toInt) : Kept (.tag 1 (.integer n)) (.int i)
  /-- A finite float, rounded down and held within 64 bits. -/
  | epochFloat {x : Binary64} {i : Int64} (hfinite : x.isFinite = true) (hfloor : x.floorClamped = i.toInt) :
    Kept (.tag 1 (.float x)) (.int i)

/-- **The values that stand for no attribute.** -/
inductive Dropped : Value → Prop where
  | map (entries : List (Value × Value)) : Dropped (.map entries)
  | bytes (octets : Bytes) : Dropped (.bytes octets)
  | otherTag {number : UInt64} (hdate : number ≠ 0) (hepoch : number ≠ 1) (inner : Value) :
    Dropped (.tag number inner)
  | noDate {inner : Value} (hdate : ∀ s, inner = .text s → Rfc3339.seconds? s = none) :
    Dropped (.tag 0 inner)
  | noEpoch {inner : Value} (hinteger : ∀ n, inner = .integer n → n.val < -2 ^ 63 ∨ 2 ^ 63 ≤ n.val)
      (hfloat : ∀ x, inner = .float x → x.isFinite = false) :
    Dropped (.tag 1 inner)

/-- The texts that are found are the longest run: they are there, and no text follows. -/
theorem exists_leadingTexts (items : List Value) :
    ∃ rest, items = (leadingTexts items).map .text ++ rest ∧ ∀ s more, rest ≠ .text s :: more := by
  fun_induction leadingTexts items with
  | case1 s rest ih =>
    obtain ⟨behind, hrest, hno⟩ := ih
    exact ⟨behind, congrArg (Value.text s :: ·) hrest, hno⟩
  | case2 items hno => exact ⟨items, rfl, fun s more h => hno s more h⟩

theorem leadingTexts_append (texts : List String) {rest : List Value}
    (hrest : ∀ s more, rest ≠ .text s :: more) :
    leadingTexts (texts.map .text ++ rest) = texts := by
  induction texts with
  | nil =>
    show leadingTexts rest = []
    fun_cases leadingTexts rest with
    | case1 s more => exact absurd rfl (hrest s more)
    | case2 => rfl
  | cons s texts ih => exact congrArg (s :: ·) ih

theorem ofCbor?_of_kept {v : Value} {a : Attribute} (h : Kept v a) : ofCbor? v = some a := by
  cases h with
  | null => rfl
  | bool b => rfl
  | text s => rfl
  | float x => rfl
  | int hval => simp only [ofCbor?, hval, Width.int64?_toInt]
  | wide hwide => simp only [ofCbor?, Width.int64?_eq_none_iff.mpr hwide]
  | list texts hrest => rw [ofCbor?, leadingTexts_append texts hrest]
  | date hdate => simp [ofCbor?, textSeconds?, hdate]
  | epoch hval => simp [ofCbor?, epochSeconds?, hval]
  | epochFloat hfinite hfloor => simp [ofCbor?, epochSeconds?, hfinite, hfloor]

theorem ofCbor?_of_dropped {v : Value} (h : Dropped v) : ofCbor? v = none := by
  cases h with
  | map entries => rfl
  | bytes octets => rfl
  | otherTag hdate hepoch inner => rw [ofCbor?, if_neg hdate, if_neg hepoch]
  | @noDate inner hdate =>
    have hnone : textSeconds? inner = none := by
      unfold textSeconds?
      split
      next s => rw [hdate s rfl, Option.map_none]
      next => rfl
    rw [ofCbor?, if_pos rfl, hnone, Option.map_none]
  | @noEpoch inner hinteger hfloat =>
    have hnone : epochSeconds? inner = none := by
      unfold epochSeconds?
      split
      next n => exact Width.int64?_eq_none_iff.mpr (hinteger n rfl)
      next x => rw [hfloat x rfl]; rfl
      next => rfl
    rw [ofCbor?, if_neg (by decide), if_pos rfl, hnone, Option.map_none]

/-- What is tagged as the text of a date is one or is dropped. -/
theorem date_kept_or_dropped (inner : Value) : (∃ a, Kept (.tag 0 inner) a) ∨ Dropped (.tag 0 inner) := by
  by_cases hdate : ∃ s n, inner = .text s ∧ Rfc3339.seconds? s = some n
  · obtain ⟨s, n, rfl, hs⟩ := hdate
    obtain ⟨hlow, hhigh⟩ := Rfc3339.seconds?_bounded hs
    exact .inl ⟨_, .date (hs.trans (congrArg some (Int64.toInt_ofInt_of_le hlow hhigh).symm))⟩
  · refine .inr (.noDate fun s hs => ?_)
    exact Option.eq_none_iff_forall_ne_some.mpr fun n hn => hdate ⟨s, n, hs, hn⟩

/-- What is tagged as a number of seconds is one that fits or is dropped. -/
theorem epoch_kept_or_dropped (inner : Value) : (∃ a, Kept (.tag 1 inner) a) ∨ Dropped (.tag 1 inner) := by
  cases inner with
  | integer n =>
    cases hwidth : Width.int64? n.val with
    | some i => exact .inl ⟨_, .epoch (Width.int64?_eq_some_iff.mp hwidth).symm⟩
    | none =>
      refine .inr (.noEpoch (fun m hm => ?_) fun _ hx => nomatch hx)
      cases hm
      exact Width.int64?_eq_none_iff.mp hwidth
  | float x =>
    cases hfinite : x.isFinite with
    | true =>
      obtain ⟨hlow, hhigh⟩ := x.floorClamped_bounds
      exact .inl ⟨_, .epochFloat hfinite (Int64.toInt_ofInt_of_le hlow hhigh).symm⟩
    | false =>
      refine .inr (.noEpoch (fun _ hn => nomatch hn) fun y hy => ?_)
      cases hy
      exact hfinite
  | _ => exact .inr (.noEpoch (fun _ hn => nomatch hn) fun _ hx => nomatch hx)

/-- **Every value is kept or dropped.** -/
theorem kept_or_dropped (v : Value) : (∃ a, Kept v a) ∨ Dropped v := by
  cases v with
  | null => exact .inl ⟨_, .null⟩
  | bool b => exact .inl ⟨_, .bool b⟩
  | text s => exact .inl ⟨_, .text s⟩
  | float x => exact .inl ⟨_, .float x⟩
  | bytes octets => exact .inr (.bytes octets)
  | map entries => exact .inr (.map entries)
  | integer n =>
    cases hwidth : Width.int64? n.val with
    | some i => exact .inl ⟨_, .int (Width.int64?_eq_some_iff.mp hwidth).symm⟩
    | none => exact .inl ⟨_, .wide (Width.int64?_eq_none_iff.mp hwidth)⟩
  | array items =>
    obtain ⟨rest, hitems, hrest⟩ := exists_leadingTexts items
    rw [hitems]
    exact .inl ⟨_, .list _ hrest⟩
  | tag number inner =>
    by_cases hzero : number = 0
    · exact hzero ▸ date_kept_or_dropped inner
    by_cases hone : number = 1
    · exact hone ▸ epoch_kept_or_dropped inner
    exact .inr (.otherTag hzero hone inner)

/-- Being made safe finds exactly the attribute that a value stands for. -/
theorem ofCbor?_eq_some_iff {v : Value} {a : Attribute} : ofCbor? v = some a ↔ Kept v a := by
  refine ⟨fun h => ?_, ofCbor?_of_kept⟩
  rcases kept_or_dropped v with ⟨b, hb⟩ | hdropped
  · rw [ofCbor?_of_kept hb] at h
    cases h
    exact hb
  · rw [ofCbor?_of_dropped hdropped] at h
    cases h

theorem ofCbor?_eq_none_iff {v : Value} : ofCbor? v = none ↔ Dropped v := by
  refine ⟨fun h => ?_, ofCbor?_of_dropped⟩
  refine (kept_or_dropped v).resolve_left fun ⟨a, ha⟩ => ?_
  rw [ofCbor?_of_kept ha] at h
  cases h

theorem dropped_iff {v : Value} : Dropped v ↔ ∀ a, ¬ Kept v a := by
  simp only [← ofCbor?_eq_none_iff, ← ofCbor?_eq_some_iff, Option.eq_none_iff_forall_ne_some, ne_eq]

end Attribute

/-! ## Entries -/

namespace Attributes

open Attribute (Kept Dropped)

/-- An entry that counts for nothing: its key is no text, or its value stands for no attribute. -/
def Ignored (e : Value × Value) : Prop := (∀ name, e.1 ≠ .text name) ∨ Dropped e.2

theorem entryOfCbor?_eq_some_iff {e : Value × Value} {name : String} {a : Attribute} :
    entryOfCbor? e = some (name, a) ↔ e.1 = .text name ∧ Kept e.2 a := by
  rw [← Attribute.ofCbor?_eq_some_iff]
  fun_cases entryOfCbor? e with
  | case1 key v =>
    rw [Value.text.injEq, Option.map_eq_some_iff]
    constructor
    · rintro ⟨b, hb, h⟩
      cases h
      exact ⟨rfl, hb⟩
    · rintro ⟨rfl, hv⟩
      exact ⟨a, hv, rfl⟩
  | case2 e hno => exact iff_of_false nofun fun h => hno name e.2 (Prod.ext h.1 rfl)

theorem entryOfCbor?_of_ignored {e : Value × Value} (h : Ignored e) : entryOfCbor? e = none := by
  rw [Option.eq_none_iff_forall_ne_some]
  rintro ⟨name, a⟩ he
  obtain ⟨hkey, hkept⟩ := entryOfCbor?_eq_some_iff.mp he
  rcases h with hno | hdropped
  · exact hno name hkey
  · exact Attribute.dropped_iff.mp hdropped a hkept

/-- `l'` is `l` with ignored entries strewn in, anywhere and any number of them. -/
inductive Strewn : List (Value × Value) → List (Value × Value) → Prop where
  | nil : Strewn [] []
  | entry (e : Value × Value) {l l' : List (Value × Value)} (h : Strewn l l') : Strewn (e :: l) (e :: l')
  | ignored {e : Value × Value} (hignored : Ignored e) {l l' : List (Value × Value)} (h : Strewn l l') :
    Strewn l (e :: l')

/-- **Ignored entries make no difference**, wherever they are put in or taken out. -/
theorem ofCbor_strewn {l l' : List (Value × Value)} (h : Strewn l l') : ofCbor l' = ofCbor l := by
  have hentries : l'.filterMap entryOfCbor? = l.filterMap entryOfCbor? := by
    induction h with
    | nil => rfl
    | entry e h ih => rw [List.filterMap_cons, List.filterMap_cons, ih]
    | ignored hignored h ih => rw [List.filterMap_cons_none (entryOfCbor?_of_ignored hignored), ih]
  rw [ofCbor, hentries, ofCbor]

/-- Nothing is found under a name exactly when all its entries are dropped. -/
theorem get?_ofCbor_eq_none_iff {entries : List (Value × Value)} {name : String} :
    (ofCbor entries).get? name = none ↔ ∀ v, (.text name, v) ∈ entries → Dropped v := by
  rw [ofCbor, NameMap.get?_ofList_eq_none_iff]
  simp only [List.mem_filterMap, entryOfCbor?_eq_some_iff, not_exists, not_and]
  constructor
  · intro h v hv
    exact Attribute.dropped_iff.mpr fun a => h a (.text name, v) hv rfl
  · rintro h a ⟨key, v⟩ hv rfl
    exact Attribute.dropped_iff.mp (h v hv) a

/-- **The last entry that is kept counts**: those of the name that come after it are all dropped. -/
theorem get?_ofCbor_eq_some_iff {entries : List (Value × Value)} {name : String} {a : Attribute} :
    (ofCbor entries).get? name = some a ↔
      ∃ before v after, entries = before ++ (.text name, v) :: after ∧ Kept v a ∧
        ∀ w, (.text name, w) ∈ after → Dropped w := by
  rw [ofCbor, NameMap.get?_ofList_eq_some_iff]
  constructor
  · rintro ⟨kept, later, hkept, hlater⟩
    obtain ⟨before, rest, rfl, -, hrest⟩ := List.filterMap_eq_append_iff.mp hkept
    obtain ⟨skipped, e, after, rfl, -, he, rfl⟩ := List.filterMap_eq_cons_iff.mp hrest
    obtain ⟨hkey, hv⟩ := entryOfCbor?_eq_some_iff.mp he
    refine ⟨before ++ skipped, e.2, after, ?_, hv, ?_⟩
    · rw [List.append_assoc, ← hkey]
    · exact get?_ofCbor_eq_none_iff.mp (NameMap.get?_ofList_eq_none_iff.mpr hlater)
  · rintro ⟨before, v, after, rfl, hkept, hlater⟩
    have he : entryOfCbor? (.text name, v) = some (name, a) := entryOfCbor?_eq_some_iff.mpr ⟨rfl, hkept⟩
    refine ⟨before.filterMap entryOfCbor?, after.filterMap entryOfCbor?, ?_, ?_⟩
    · rw [List.filterMap_append, List.filterMap_cons_some he]
    · exact NameMap.get?_ofList_eq_none_iff.mp (get?_ofCbor_eq_none_iff.mpr hlater)

/-- The names that are kept. -/
theorem mem_names_ofCbor_iff {entries : List (Value × Value)} {name : String} :
    name ∈ (ofCbor entries).names ↔ ∃ v a, (.text name, v) ∈ entries ∧ Kept v a := by
  rw [NameMap.mem_names_iff, Option.isSome_iff_exists]
  constructor
  · rintro ⟨a, ha⟩
    obtain ⟨before, v, after, rfl, hkept, -⟩ := get?_ofCbor_eq_some_iff.mp ha
    exact ⟨v, a, by simp, hkept⟩
  · rintro ⟨v, a, hv, hkept⟩
    refine Option.ne_none_iff_exists'.mp fun hnone => ?_
    exact Attribute.dropped_iff.mp (get?_ofCbor_eq_none_iff.mp hnone v hv) a hkept

/-! ## Once more -/

/-- Attributes are read back as they were sent, whatever follows. -/
theorem read?_write (attributes : Attributes) (hlt : (toCbor attributes).write.length < 2 ^ 64)
    (rest : Bytes) :
    Value.read? ((toCbor attributes).write ++ rest) = some (toCbor attributes) := by
  have hitem := Cbor.Item.read?_write (Value.announceable_of_length_write _ hlt) rest
  have hshallow : (toCbor attributes).Shallow Cbor.nestingLimit :=
    (shallow_toCbor attributes).mono (by decide)
  rw [Value.read?, hitem, Option.bind_eq_bind, Option.bind_some]
  exact Value.ofItem?_toItem_of_shallow hshallow

/-- What becomes of the entries of a map. -/
structure KeepsRepresentable (entries : List (Value × Value)) : Prop where
  mem_names_iff (name : String) :
    name ∈ (ofCbor entries).names ↔ ∃ v a, (.text name, v) ∈ entries ∧ Kept v a
  /-- The last kept entry of a name counts, whatever is dropped after it. -/
  get?_eq_some_iff (name : String) (a : Attribute) :
    (ofCbor entries).get? name = some a ↔
      ∃ before v after, entries = before ++ (.text name, v) :: after ∧ Kept v a ∧
        ∀ w, (.text name, w) ∈ after → Dropped w
  inserting (more : List (Value × Value)) (hstrewn : Strewn entries more) : ofCbor more = ofCbor entries
  removing (fewer : List (Value × Value)) (hstrewn : Strewn fewer entries) : ofCbor fewer = ofCbor entries
  /-- What was kept is kept again as it is, float for float to the bit. -/
  again : Slot.optionalAttributes? (toCbor (ofCbor entries)) = some (some (ofCbor entries))
  /-- So it is when it has gone over the link as octets. -/
  acrossLink (rest : Bytes) (hlt : (toCbor (ofCbor entries)).write.length < 2 ^ 64) :
    (Value.read? ((toCbor (ofCbor entries)).write ++ rest)).bind Slot.optionalAttributes? =
      some (some (ofCbor entries))

/-- **What can be represented is kept, and nothing else.** -/
theorem keeps_representable :
    (∀ v a, Attribute.ofCbor? v = some a ↔ Kept v a) ∧ (∀ v, Attribute.ofCbor? v = none ↔ Dropped v) ∧
      ∀ entries, KeepsRepresentable entries := by
  refine ⟨fun _ _ => Attribute.ofCbor?_eq_some_iff, fun _ => Attribute.ofCbor?_eq_none_iff, fun entries => ?_⟩
  have hagain : Slot.optionalAttributes? (toCbor (ofCbor entries)) = some (some (ofCbor entries)) :=
    Slot.optionalAttributes?_orNull (some (ofCbor entries))
  exact {
    mem_names_iff := fun _ => mem_names_ofCbor_iff
    get?_eq_some_iff := fun _ _ => get?_ofCbor_eq_some_iff
    inserting := fun _ hstrewn => ofCbor_strewn hstrewn
    removing := fun _ hstrewn => (ofCbor_strewn hstrewn).symm
    again := hagain
    acrossLink := fun rest hlt => by rw [read?_write _ hlt, Option.bind_some, hagain] }

/-- What is dropped does not take back what was kept before. -/
example : ofCbor [(.text "plan", .text "pro"), (.text "plan", .bytes [1]), (.null, .text "free")] =
    .ofList [("plan", .str "pro")] := by decide

end Attributes

end FlagSidecar
