import FlagSidecar.Proofs.Cbor.Record
import FlagSidecar.Protocol.Arguments
import Mathlib.Data.Nat.Find
import Mathlib.Data.Set.List

/-!
# FlagSidecar.Proofs.Protocol.Arguments: which arguments a layout reads, and what it says of the others

What the slots of each type may hold, and what they then mean, is said here once more without the code that
reads them. A layout reads a request exactly if the operation is one of its own, there are as many arguments
as slots, and every argument is of the type of its slot. Of any other request it reports the first fault in
this order, and of the slots the leftmost.

A reading goes through the slots from the left; `Scans` is what it comes to from some slot on. Each layout is
such a reading, slot by slot, so there is one proof for all of them.

Main statement: `Layout.reads_exactly`.
-/

namespace FlagSidecar

open Cbor (Value)

/-! ## What slots hold -/

namespace SlotType

/-- What a value of a type means. -/
@[reducible] def Content : SlotType → Type
  | text => String
  | optionalText => Option String
  | unsigned => UInt64
  | signed => Int64
  | optionalNumber => Option Binary64
  | textList => List String
  | optionalMap => Option Attributes

/-- The values of a type. -/
def Accepts : SlotType → Value → Prop
  | text, v => ∃ s, v = .text s
  | optionalText, v => v = .null ∨ ∃ s, v = .text s
  | unsigned, v => ∃ n, v = .integer n ∧ 0 ≤ n.val ∧ n.val < 2 ^ 64
  | signed, v => ∃ n, v = .integer n ∧ -2 ^ 63 ≤ n.val ∧ n.val < 2 ^ 63
  | optionalNumber, v => v = .null ∨ (∃ x, v = .float x) ∨ ∃ n, v = .integer n
  | textList, v => ∃ items, v = .array items ∧ ∀ item ∈ items, ∃ s, item = .text s
  | optionalMap, v => v = .null ∨ ∃ entries, v = .map entries

def SaysText (v : Value) (s : String) : Prop := v = .text s

/-- As a number an integer means the float nearest to it. -/
def SaysNumber (v : Value) (x : Binary64) : Prop := v = .float x ∨ ∃ n, v = .integer n ∧ x = .ofInt n.val

/-- Of a map the attributes are meant that can be kept. -/
def SaysAttributes (v : Value) (m : Attributes) : Prop := ∃ entries, v = .map entries ∧ m = .ofCbor entries

/-- Null says that there is nothing. -/
def OrNull {α : Type} (Says : Value → α → Prop) (v : Value) : Option α → Prop
  | none => v = .null
  | some a => Says v a

/-- A value means this in a slot of a type. -/
def Holds : (type : SlotType) → Value → type.Content → Prop
  | text => SaysText
  | optionalText => OrNull SaysText
  | unsigned => fun v w => ∃ n, v = .integer n ∧ n.val = w.toNat
  | signed => fun v w => ∃ n, v = .integer n ∧ n.val = w.toInt
  | optionalNumber => OrNull SaysNumber
  | textList => fun v texts => v = .array (texts.map .text)
  | optionalMap => OrNull SaysAttributes

theorem exists_orNull_iff {α : Type} (Says : Value → α → Prop) {v : Value} :
    (∃ a, OrNull Says v a) ↔ v = .null ∨ ∃ a, Says v a := by
  constructor
  · rintro ⟨_ | a, h⟩
    · exact .inl h
    · exact .inr ⟨a, h⟩
  · rintro (h | ⟨a, h⟩)
    · exact ⟨none, h⟩
    · exact ⟨some a, h⟩

/-- **Every value of a type means something**, and no other value does. -/
theorem exists_holds_iff {type : SlotType} {v : Value} : (∃ c, type.Holds v c) ↔ type.Accepts v := by
  cases type with
  | text => exact Iff.rfl
  | optionalText => exact exists_orNull_iff SaysText
  | unsigned =>
    constructor
    · rintro ⟨w, n, rfl, hn⟩
      have hlt := w.toNat_lt
      exact ⟨n, rfl, by omega, by omega⟩
    · rintro ⟨n, rfl, hlower, hupper⟩
      exact ⟨_, n, rfl, (Width.uint64?_eq_some_iff.mp (if_pos ⟨hlower, hupper⟩)).symm⟩
  | signed =>
    constructor
    · rintro ⟨w, n, rfl, hn⟩
      have hle := w.le_toInt
      have hlt := w.toInt_lt
      exact ⟨n, rfl, by omega, by omega⟩
    · rintro ⟨n, rfl, hlower, hupper⟩
      exact ⟨_, n, rfl, (Width.int64?_eq_some_iff.mp (if_pos ⟨hlower, hupper⟩)).symm⟩
  | optionalNumber =>
    refine (exists_orNull_iff SaysNumber).trans (or_congr_right ?_)
    simp only [SaysNumber, exists_or]
    rw [exists_comm (α := Binary64)]
    simp only [exists_and_left, exists_eq, and_true]
  | textList =>
    constructor
    · rintro ⟨texts, rfl⟩
      refine ⟨_, rfl, fun item hitem => ?_⟩
      obtain ⟨s, -, rfl⟩ := List.mem_map.mp hitem
      exact ⟨s, rfl⟩
    · rintro ⟨items, rfl, htexts⟩
      -- a list of texts only is the image of a list of texts
      have himage : items ∈ Set.range (List.map Value.text) := by
        rw [Set.range_list_map]
        exact fun item hitem => (htexts item hitem).imp fun _ => Eq.symm
      obtain ⟨texts, rfl⟩ := himage
      exact ⟨texts, rfl⟩
  | optionalMap =>
    refine (exists_orNull_iff SaysAttributes).trans (or_congr_right ?_)
    unfold SaysAttributes
    rw [exists_comm]
    simp only [exists_and_left, exists_eq, and_true]

end SlotType

/-! ## Reading one slot -/

/-- What is read of a value is what it means in a slot of this type. -/
def SlotType.ReadBy (type : SlotType) (read : Value → Option type.Content) : Prop :=
  ∀ v c, read v = some c ↔ type.Holds v c

namespace Slot

theorem text_readBy : SlotType.text.ReadBy text? := by
  intro v s
  cases v <;> simp [text?, SlotType.Holds, SlotType.SaysText]

theorem optionalText_readBy : SlotType.optionalText.ReadBy optionalText? := by
  intro v s
  cases v <;> cases s <;> simp [optionalText?, SlotType.Holds, SlotType.OrNull, SlotType.SaysText]

theorem unsigned_readBy : SlotType.unsigned.ReadBy unsigned? := by
  intro v w
  cases v with
  | integer n => simp [unsigned?, SlotType.Holds, Width.uint64?_eq_some_iff, @eq_comm _ n.val]
  | _ => simp [unsigned?, SlotType.Holds]

theorem signed_readBy : SlotType.signed.ReadBy signed? := by
  intro v w
  cases v with
  | integer n => simp [signed?, SlotType.Holds, Width.int64?_eq_some_iff, @eq_comm _ n.val]
  | _ => simp [signed?, SlotType.Holds]

theorem optionalNumber_readBy : SlotType.optionalNumber.ReadBy optionalNumber? := by
  intro v x
  cases v <;> cases x <;>
    simp [optionalNumber?, SlotType.Holds, SlotType.OrNull, SlotType.SaysNumber, eq_comm]

theorem optionalMap_readBy : SlotType.optionalMap.ReadBy optionalAttributes? := by
  intro v m
  cases v <;> cases m <;>
    simp [optionalAttributes?, SlotType.Holds, SlotType.OrNull, SlotType.SaysAttributes, eq_comm]

theorem eq_map_text_of_mapM {items : List Value} {texts : List String}
    (h : items.mapM text? = some texts) : items = texts.map .text := by
  induction items generalizing texts with
  | nil =>
    cases h
    rfl
  | cons item rest ih =>
    rw [List.mapM_cons] at h
    obtain ⟨s, hs, h⟩ := Option.bind_eq_some_iff.mp h
    obtain ⟨more, hmore, h⟩ := Option.bind_eq_some_iff.mp h
    cases h
    rw [List.map_cons, ← ih hmore, (text_readBy item s).mp hs]

theorem textList_readBy : SlotType.textList.ReadBy textList? := by
  intro v texts
  constructor
  · intro h
    cases v with
    | array items => exact congrArg Value.array (eq_map_text_of_mapM h)
    | _ => cases h
  · rintro rfl
    exact Cbor.mapM_map_eq_some fun _ _ => rfl

end Slot

namespace SlotType

theorem ReadBy.unique {type : SlotType} {read : Value → Option type.Content} (h : type.ReadBy read)
    {v : Value} {c c' : type.Content} (hc : type.Holds v c) (hc' : type.Holds v c') : c = c' :=
  Option.some.inj (((h v c).mpr hc).symm.trans ((h v c').mpr hc'))

/-- **A value means one thing** in a slot. -/
theorem Holds.unique {type : SlotType} {v : Value} {c c' : type.Content} (h : type.Holds v c)
    (h' : type.Holds v c') : c = c' := by
  cases type with
  | text => exact Slot.text_readBy.unique h h'
  | optionalText => exact Slot.optionalText_readBy.unique h h'
  | unsigned => exact Slot.unsigned_readBy.unique h h'
  | signed => exact Slot.signed_readBy.unique h h'
  | optionalNumber => exact Slot.optionalNumber_readBy.unique h h'
  | textList => exact Slot.textList_readBy.unique h h'
  | optionalMap => exact Slot.optionalMap_readBy.unique h h'

end SlotType

/-! ## Reading slots from the left -/

section Scans

variable {α : Type} {args : List Value} {index : Nat} {type : SlotType} {types : List SlotType}

/-- There is an argument, and it is of this type. -/
def AcceptsAt (args : List Value) (index : Nat) (type : SlotType) : Prop :=
  ∃ v, args[index]? = some v ∧ type.Accepts v

/-- There is an argument, and in a slot of this type it means this. -/
def HoldsAt (args : List Value) (index : Nat) (type : SlotType) (c : type.Content) : Prop :=
  ∃ v, args[index]? = some v ∧ type.Holds v c

/-- This slot is the first whose argument is missing or of another type. -/
structure FirstFault (types : List SlotType) (args : List Value) (index : Nat) (type : SlotType) : Prop where
  slot : types[index]? = some type
  fault : ¬ AcceptsAt args index type
  before : ∀ i < index, ∀ t, types[i]? = some t → AcceptsAt args i t

theorem AcceptsAt.lt_length (h : AcceptsAt args index type) : index < args.length := by
  obtain ⟨v, hget, -⟩ := h
  exact (List.getElem?_eq_some_iff.mp hget).1

/-- Where not every argument is of its type there is a first that is not. -/
theorem exists_firstFault (h : ¬ ∀ k t, types[k]? = some t → AcceptsAt args k t) :
    ∃ k t, FirstFault types args k t := by
  classical
  push Not at h
  obtain ⟨t, ht, hfault⟩ := Nat.find_spec h
  refine ⟨Nat.find h, t, ht, hfault, fun i hi t' ht' => ?_⟩
  by_contra hi'
  exact Nat.find_min h hi ⟨t', ht', hi'⟩

/-- Nothing is looked at behind the first argument that is missing. -/
theorem FirstFault.le_length (h : FirstFault types args index type) : index ≤ args.length := by
  by_contra hlt
  have hindex : index < types.length := (List.getElem?_eq_some_iff.mp h.slot).1
  have hmissing := h.before args.length (by omega) _ (List.getElem?_eq_getElem (by omega))
  exact Nat.lt_irrefl _ hmissing.lt_length

theorem slot_eq_ok_iff {read : Value → Option type.Content} (hread : type.ReadBy read)
    {c : type.Content} : slot args index type read = .ok c ↔ HoldsAt args index type c := by
  unfold slot HoldsAt
  cases args[index]? with
  | none => simp
  | some v =>
    simp only [Option.bind_some, Option.some.injEq, exists_eq_left', ← hread v c]
    cases read v <;> simp

theorem slot_eq_error {read : Value → Option type.Content} (hread : type.ReadBy read)
    (h : ¬ AcceptsAt args index type) : slot args index type read = .error (.wrongType index type) := by
  unfold slot
  cases hv : args[index]?.bind read with
  | none => rfl
  | some c =>
    obtain ⟨v, hget, hc⟩ := Option.bind_eq_some_iff.mp hv
    exact absurd ⟨v, hget, SlotType.exists_holds_iff.mp ⟨c, (hread v c).mp hc⟩⟩ h

/-- **What reading slots of these types from an index on comes to**: something of which `Means` holds, if
there is an argument of its type for each of them; and else the first fault. -/
structure Scans (args : List Value) (index : Nat) (types : List SlotType) (Means : α → Prop)
    (result : Except ArgumentFault α) : Prop where
  reads : (∀ k t, types[k]? = some t → AcceptsAt args (index + k) t) → ∃ a, result = .ok a ∧ Means a
  reports : ∀ k t, types[k]? = some t → ¬ AcceptsAt args (index + k) t →
    (∀ i < k, ∀ t', types[i]? = some t' → AcceptsAt args (index + i) t') →
    result = .error (.wrongType (index + k) t)

/-- Behind the last slot there is nothing to read. -/
theorem Scans.done {Means : α → Prop} {a : α} (h : Means a) : Scans args index [] Means (.ok a) where
  reads _ := ⟨a, rfl, h⟩
  reports k t ht := by simp at ht

/-- A slot is read, and then those to the right of it. -/
theorem Scans.slot {Means : α → Prop} {read : Value → Option type.Content}
    {rest : type.Content → Except ArgumentFault α} (hread : type.ReadBy read)
    (hrest : ∀ c, HoldsAt args index type c → Scans args (index + 1) types Means (rest c)) :
    Scans args index (type :: types) Means (slot args index type read >>= rest) := by
  by_cases haccepts : AcceptsAt args index type
  · obtain ⟨v, hget, hv⟩ := haccepts
    obtain ⟨c, hc⟩ := SlotType.exists_holds_iff.mpr hv
    have hscans := hrest c ⟨v, hget, hc⟩
    rw [(slot_eq_ok_iff hread).mpr ⟨v, hget, hc⟩]
    refine ⟨fun hall => hscans.reads fun k t ht => ?_, fun k t ht hfault hbefore => ?_⟩
    · rw [Nat.add_assoc, Nat.add_comm 1 k]
      exact hall (k + 1) t ht
    · cases k with
      | zero =>
        cases ht
        exact absurd ⟨v, hget, hv⟩ hfault
      | succ k =>
        rw [Nat.add_comm k 1, ← Nat.add_assoc] at hfault ⊢
        refine hscans.reports k t ht hfault fun i hi t' ht' => ?_
        rw [Nat.add_assoc, Nat.add_comm 1 i]
        exact hbefore (i + 1) (Nat.succ_lt_succ hi) t' ht'
  · rw [slot_eq_error hread haccepts]
    refine ⟨fun hall => absurd (hall 0 type rfl) haccepts, fun k t ht hfault hbefore => ?_⟩
    cases k with
    | zero =>
      cases ht
      rfl
    | succ k => exact absurd (hbefore 0 (Nat.succ_pos k) type rfl) haccepts

end Scans

/-! ## Layouts -/

namespace Layout

variable {α : Type} {l : Layout α} {codes : List UInt8} {types : List SlotType}
  {Means : List Value → α → Prop}

/-- **What is made of a request** whose operation should have one of these codes and whose arguments should be
of these types. -/
inductive Outcome (codes : List UInt8) (types : List SlotType) (Means : List Value → α → Prop) (rpc : Rpc) :
    Except ArgumentFault α → Prop where
  | opCode (hop : rpc.opcode ∉ codes) :
    Outcome codes types Means rpc (.error (.opCodeMismatch codes rpc.opcode))
  | count (hop : rpc.opcode ∈ codes) (hcount : rpc.args.length ≠ types.length) :
    Outcome codes types Means rpc (.error (.wrongCount types.length rpc.args.length))
  | slot (hop : rpc.opcode ∈ codes) (hcount : rpc.args.length = types.length) {index type}
      (hfirst : FirstFault types rpc.args index type) :
    Outcome codes types Means rpc (.error (.wrongType index type))
  | reads (hop : rpc.opcode ∈ codes) (hcount : rpc.args.length = types.length)
      (hall : ∀ k t, types[k]? = some t → AcceptsAt rpc.args k t) {a} (hmeans : Means rpc.args a) :
    Outcome codes types Means rpc (.ok a)

namespace Outcome

variable {rpc : Rpc} {result : Except ArgumentFault α}

theorem reads_iff (h : Outcome codes types Means rpc result) : (∃ a, result = .ok a) ↔
    rpc.opcode ∈ codes ∧ rpc.args.length = types.length ∧
      ∀ k t, types[k]? = some t → AcceptsAt rpc.args k t := by
  cases h with
  | opCode hop => exact iff_of_false (by simp) fun h => hop h.1
  | count hop hcount => exact iff_of_false (by simp) fun h => hcount h.2.1
  | slot hop hcount hfirst => exact iff_of_false (by simp) fun h => hfirst.fault (h.2.2 _ _ hfirst.slot)
  | reads hop hcount hall hmeans => exact iff_of_true ⟨_, rfl⟩ ⟨hop, hcount, hall⟩

/-- With as many arguments as slots, a slot that is reported has one. -/
theorem inside {k : Nat} {t : SlotType} (h : Outcome codes types Means rpc (.error (.wrongType k t))) :
    ∃ v, rpc.args[k]? = some v ∧ ¬ t.Accepts v := by
  cases h with
  | slot hop hcount hfirst =>
    have hlt : k < rpc.args.length := hcount ▸ (List.getElem?_eq_some_iff.mp hfirst.slot).1
    have hget := List.getElem?_eq_getElem hlt
    exact ⟨_, hget, fun haccepts => hfirst.fault ⟨_, hget, haccepts⟩⟩

end Outcome

/-- **A layout reads exactly these requests**, in this way, and says of any other what its first fault is. -/
structure Exact (l : Layout α) (codes : List UInt8) (types : List SlotType)
    (Means : List Value → α → Prop) : Prop where
  outcome : ∀ rpc, Outcome codes types Means rpc (l.ofRpc rpc)
  reads_iff : ∀ rpc, (∃ a, l.ofRpc rpc = .ok a) ↔ rpc.opcode ∈ codes ∧ rpc.args.length = types.length ∧
    ∀ k t, types[k]? = some t → AcceptsAt rpc.args k t
  /-- A slot that is reported is one of the request's. -/
  inside : ∀ rpc k t, l.ofRpc rpc = .error (.wrongType k t) → ∃ v, rpc.args[k]? = some v ∧ ¬ t.Accepts v
  /-- Arguments that nobody has counted are read if there is one of its type for every slot, -/
  reads_arguments : ∀ args, (∀ k t, types[k]? = some t → AcceptsAt args k t) →
    ∃ a, l.ofArguments args = .ok a ∧ Means args a
  /-- and else the first fault is reported. Nothing is looked at behind the first argument that is missing. -/
  arguments : ∀ args k t, FirstFault types args k t →
    l.ofArguments args = .error (.wrongType k t) ∧ k ≤ args.length

section Scans

variable (hscans : ∀ args, Scans args 0 types (Means args) (l.read args))
include hscans

theorem read_eq_ok {args : List Value} (hall : ∀ k t, types[k]? = some t → AcceptsAt args k t) :
    ∃ a, l.read args = .ok a ∧ Means args a := by
  have hreads := (hscans args).reads
  simp only [Nat.zero_add] at hreads
  exact hreads hall

theorem read_eq_error {args : List Value} {k : Nat} {t : SlotType} (hfirst : FirstFault types args k t) :
    l.read args = .error (.wrongType k t) := by
  have hreports := (hscans args).reports k t hfirst.slot
  simp only [Nat.zero_add] at hreports
  exact hreports hfirst.fault hfirst.before

/-- The checks are made in their order: operation, number of arguments, slots from the left. -/
theorem outcome_ofRpc (hcodes : l.opCodes.map OpCode.byte = codes) (htypes : l.slots = types) (rpc : Rpc) :
    Outcome codes types Means rpc (l.ofRpc rpc) := by
  rw [ofRpc, hcodes, htypes]
  by_cases hop : rpc.opcode ∈ codes
  · rw [if_pos (List.contains_iff_mem.mpr hop)]
    by_cases hcount : rpc.args.length = types.length
    · rw [if_pos hcount]
      by_cases hall : ∀ k t, types[k]? = some t → AcceptsAt rpc.args k t
      · obtain ⟨a, ha, hmeans⟩ := read_eq_ok hscans hall
        rw [ha]
        exact .reads hop hcount hall hmeans
      · obtain ⟨k, t, hfirst⟩ := exists_firstFault hall
        rw [read_eq_error hscans hfirst]
        exact .slot hop hcount hfirst
    · rw [if_neg hcount]
      exact .count hop hcount
  · rw [if_neg (mt List.contains_iff_mem.mp hop)]
    exact .opCode hop

/-- **A layout that reads its slots from the left is exact.** -/
theorem exact_of_scans (hcodes : l.opCodes.map OpCode.byte = codes) (htypes : l.slots = types) :
    l.Exact codes types Means where
  outcome := outcome_ofRpc hscans hcodes htypes
  reads_iff rpc := (outcome_ofRpc hscans hcodes htypes rpc).reads_iff
  inside rpc _ _ hfault :=
    (hfault ▸ outcome_ofRpc hscans hcodes htypes rpc : Outcome codes types Means rpc _).inside
  reads_arguments _ := read_eq_ok hscans
  arguments _ _ _ hfirst := ⟨read_eq_error hscans hfirst, hfirst.le_length⟩

end Scans

/-! ## What each layout means -/

def RegisterMeans (args : List Value) (i : Identity) : Prop :=
  HoldsAt args 0 .text i.id ∧ HoldsAt args 1 .text i.sdkVersion ∧ HoldsAt args 2 .unsigned i.flags.bits

/-- The evaluation of one feature or of several, by the type of their slot. -/
def EvaluationMeans (type : SlotType) (args : List Value) (a : EvaluationArguments type.Content) : Prop :=
  HoldsAt args 0 .text a.key ∧ HoldsAt args 1 .optionalText a.bucketingKey ∧
    HoldsAt args 2 type a.features ∧ HoldsAt args 3 .optionalMap a.attributes

def TrackMeans (args : List Value) (a : TrackArguments) : Prop :=
  HoldsAt args 0 .text a.key ∧ HoldsAt args 1 .text a.trafficType ∧ HoldsAt args 2 .text a.eventType ∧
    HoldsAt args 3 .optionalNumber a.value ∧ HoldsAt args 4 .optionalMap a.properties ∧
    HoldsAt args 5 .signed a.timestamp

theorem register_exact : register.Exact [0x00] [.text, .text, .unsigned] RegisterMeans := by
  refine exact_of_scans (fun args => ?_) rfl rfl
  refine .slot Slot.text_readBy fun id hid => ?_
  refine .slot Slot.text_readBy fun sdkVersion hversion => ?_
  refine .slot Slot.unsigned_readBy fun flags hflags => ?_
  exact .done ⟨hid, hversion, hflags⟩

/-- The layouts of evaluations differ in one slot. -/
theorem scans_evaluation {type : SlotType} {read : Value → Option type.Content}
    (hread : type.ReadBy read) (args : List Value) :
    Scans args 0 [.text, .optionalText, type, .optionalMap] (EvaluationMeans type args) (do
      let key ← slot args 0 .text Slot.text?
      let bucketingKey ← slot args 1 .optionalText Slot.optionalText?
      let features ← slot args 2 type read
      let attributes ← slot args 3 .optionalMap Slot.optionalAttributes?
      return ⟨key, bucketingKey, features, attributes⟩) := by
  refine .slot Slot.text_readBy fun key hkey => ?_
  refine .slot Slot.optionalText_readBy fun bucketingKey hbucketing => ?_
  refine .slot hread fun features hfeatures => ?_
  refine .slot Slot.optionalMap_readBy fun attributes hattributes => ?_
  exact .done ⟨hkey, hbucketing, hfeatures, hattributes⟩

theorem treatment_exact : treatment.Exact [0x11, 0x13] [.text, .optionalText, .text, .optionalMap]
    (EvaluationMeans .text) :=
  exact_of_scans (scans_evaluation Slot.text_readBy) rfl rfl

theorem treatments_exact : treatments.Exact [0x12, 0x14] [.text, .optionalText, .textList, .optionalMap]
    (EvaluationMeans .textList) :=
  exact_of_scans (scans_evaluation Slot.textList_readBy) rfl rfl

theorem track_exact : track.Exact [0x80] [.text, .text, .text, .optionalNumber, .optionalMap, .signed]
    TrackMeans := by
  refine exact_of_scans (fun args => ?_) rfl rfl
  refine .slot Slot.text_readBy fun key hkey => ?_
  refine .slot Slot.text_readBy fun trafficType htraffic => ?_
  refine .slot Slot.text_readBy fun eventType hevent => ?_
  refine .slot Slot.optionalNumber_readBy fun value hvalue => ?_
  refine .slot Slot.optionalMap_readBy fun properties hproperties => ?_
  refine .slot Slot.signed_readBy fun timestamp htimestamp => ?_
  exact .done ⟨hkey, htraffic, hevent, hvalue, hproperties, htimestamp⟩

theorem nothing_exact : nothing.Exact [0xa0, 0xa2] [] fun _ _ => True :=
  exact_of_scans (fun _ => .done trivial) rfl rfl

theorem flag_exact : flag.Exact [0xa1] [.text] fun args name => HoldsAt args 0 .text name := by
  refine exact_of_scans (fun args => ?_) rfl rfl
  -- the one slot is read, and its content is what the layout reads
  rw [← bind_pure (flag.read args)]
  exact .slot Slot.text_readBy fun name hname => .done hname

/-- **Arguments are read exactly as they are laid out.** Of each layout: a request with any operation, any
number of arguments and any values is read if the operation is one of these, there are as many arguments as
slots and each is of its type; then each field is what its slot holds. Of any other request the first fault is
reported: the operation, else the number of arguments with both counts, else the leftmost slot whose argument
is not of its type. And a value means one thing in a slot, so null is neither the empty text nor the empty
map. -/
theorem reads_exactly :
    register.Exact [0x00] [.text, .text, .unsigned] RegisterMeans ∧
    treatment.Exact [0x11, 0x13] [.text, .optionalText, .text, .optionalMap] (EvaluationMeans .text) ∧
    treatments.Exact [0x12, 0x14] [.text, .optionalText, .textList, .optionalMap]
      (EvaluationMeans .textList) ∧
    track.Exact [0x80] [.text, .text, .text, .optionalNumber, .optionalMap, .signed] TrackMeans ∧
    (nothing.Exact [0xa0, 0xa2] [] fun _ _ => True) ∧
    (flag.Exact [0xa1] [.text] fun args name => HoldsAt args 0 .text name) ∧
    ∀ (type : SlotType) (v : Value) (c c' : type.Content), type.Holds v c → type.Holds v c' → c = c' :=
  ⟨register_exact, treatment_exact, treatments_exact, track_exact, nothing_exact, flag_exact,
    fun _ _ _ _ => SlotType.Holds.unique⟩

/-- Of two arguments that are not of their types the one on the left is reported. -/
example : treatments.ofRpc (.request .treatments
    [.text "user", .null, .array [.text "banner", .bytes []], .bool true]) =
      .error (.wrongType 2 .textList) := rfl

end Layout

end FlagSidecar
