import FlagSidecar.Proofs.Protocol.Envelope
import FlagSidecar.Protocol.Request

/-!
# FlagSidecar.Proofs.Protocol.Request: what a client asks is what is understood

A client writes its arguments as positional values; the other side reads them slot by slot, and makes
attributes safe on the way. For everything a client can ask the two agree: null stays apart from empty
text and from an empty map, integers keep their whole range, floats every bit, and no attribute that
a client can have is changed by being made safe.

Main statements: `Attributes.ofCbor_toCbor`, `Request.ofRpc_toRpc`, and `Request.read?_write` (no
request nests too deep for an envelope).
-/

namespace FlagSidecar

open Cbor (Value)

/-! ## Attributes -/

namespace Attribute

theorem leadingTexts_map_text (items : List String) : leadingTexts (items.map .text) = items := by
  induction items with
  | nil => rfl
  | cons s rest ih => rw [List.map_cons, leadingTexts, ih]

/-- **Every attribute is safe**: what a client sends for it stands for it. -/
theorem ofCbor?_toCbor (a : Attribute) : ofCbor? a.toCbor = some a := by
  cases a with
  | int n =>
    obtain ⟨i, hi, hval⟩ := Value.ofInt_toInt_eq n
    rw [toCbor, hi, ofCbor?, hval, Width.int64?_toInt]
  | list items => rw [toCbor, ofCbor?, leadingTexts_map_text]
  | _ => rfl

theorem shallow_toCbor (a : Attribute) : a.toCbor.Shallow 1 := by
  cases a with
  | null => exact Value.shallow_null 1
  | bool b => exact Value.shallow_bool 1 b
  | int n => exact Value.shallow_ofInt 1 n.toInt
  | float x => exact Value.shallow_float 1 x
  | str s => exact Value.shallow_text 1 s
  | list items => exact Value.shallow_array_map (Value.shallow_text 0) items

end Attribute

namespace Attributes

theorem filterMap_entryOfCbor? (l : List (String × Attribute)) :
    (l.map fun e => (Value.text e.1, e.2.toCbor)).filterMap entryOfCbor? = l := by
  induction l with
  | nil => rfl
  | cons e rest ih =>
    have he : entryOfCbor? (Value.text e.1, e.2.toCbor) = some e := by
      rw [entryOfCbor?, Attribute.ofCbor?_toCbor, Option.map_some]
    rw [List.map_cons, List.filterMap_cons_some he, ih]

/-- **Making attributes safe changes none of them.** -/
theorem ofCbor_toCbor (attributes : Attributes) :
    ofCbor (attributes.entries.map fun e => (Value.text e.1, e.2.toCbor)) = attributes := by
  rw [ofCbor, filterMap_entryOfCbor?, NameMap.ofList_entries]

theorem shallow_toCbor (attributes : Attributes) : (toCbor attributes).Shallow 2 := by
  refine Value.shallow_map fun e he => ?_
  obtain ⟨a, -, rfl⟩ := List.mem_map.mp he
  exact ⟨Value.shallow_text 1 a.1, a.2.shallow_toCbor⟩

end Attributes

/-! ## Slots -/

namespace Slot

@[simp] theorem text?_text (s : String) : text? (.text s) = some s := rfl

@[simp] theorem optionalText?_orNull (s : Option String) :
    optionalText? (Request.orNull .text s) = some s := by
  cases s <;> rfl

@[simp] theorem unsigned?_ofUInt64 (n : UInt64) : unsigned? (.integer (.ofUInt64 n)) = some n :=
  Width.uint64?_toNat n

@[simp] theorem signed?_ofInt (n : Int64) : signed? (.ofInt n.toInt) = some n := by
  obtain ⟨i, hi, hval⟩ := Value.ofInt_toInt_eq n
  rw [hi, signed?, hval, Width.int64?_toInt]

@[simp] theorem optionalNumber?_orNull (x : Option Binary64) :
    optionalNumber? (Request.orNull .float x) = some x := by
  cases x <;> rfl

@[simp] theorem textList?_textsToCbor (texts : List String) :
    textList? (textsToCbor texts) = some texts :=
  Cbor.mapM_map_eq_some fun _ _ => rfl

@[simp] theorem optionalAttributes?_orNull (attributes : Option Attributes) :
    optionalAttributes? (Request.orNull Attributes.toCbor attributes) = some attributes := by
  cases attributes with
  | none => rfl
  | some m =>
    show some (some (Attributes.ofCbor _)) = _
    rw [Attributes.ofCbor_toCbor]

end Slot

/-- A slot that holds what it should gives its content. -/
theorem slot_eq_ok {α : Type} {args : List Value} {index : Nat} {v : Value} {a : α}
    {read : Value → Option α} (hv : args[index]? = some v) (ha : read v = some a) (type : SlotType) :
    slot args index type read = .ok a := by
  rw [slot, hv, Option.bind_some, ha]

/-! ## Requests -/

/-- A layout understands a request for one of its operations whose arguments it can read. -/
theorem Layout.ofRpc_request {α : Type} {l : Layout α} {op : OpCode} {args : List Value} {a : α}
    (hop : op ∈ l.opCodes) (hlength : args.length = l.slots.length) (hread : l.read args = .ok a) :
    l.ofRpc (.request op args) = .ok a := by
  have hcontains : (l.opCodes.map OpCode.byte).contains op.byte = true :=
    List.contains_iff_mem.mpr (List.mem_map_of_mem hop)
  -- the checks in their order: operation, number of arguments, slots
  show (if (l.opCodes.map OpCode.byte).contains op.byte = true then
    if args.length = l.slots.length then l.read args else _ else _) = _
  rw [if_pos hcontains, if_pos hlength, hread]

namespace Request

theorem read_register (i : Identity) : Layout.register.read (register i).args = .ok i := by
  have hid : slot (register i).args 0 .text Slot.text? = .ok i.id := rfl
  have hversion : slot (register i).args 1 .text Slot.text? = .ok i.sdkVersion := rfl
  have hflags : slot (register i).args 2 .unsigned Slot.unsigned? = .ok i.flags.bits :=
    slot_eq_ok rfl (Slot.unsigned?_ofUInt64 _) _
  rw [Layout.register]
  simp only
  rw [hid, hversion, hflags]
  rfl

/-- The slots that the evaluation of one feature and of several have in common. -/
theorem slots_evaluation {φ : Type} (f : φ → Value) (a : EvaluationArguments φ) :
    slot (evaluationToCbor f a) 0 .text Slot.text? = .ok a.key ∧
    slot (evaluationToCbor f a) 1 .optionalText Slot.optionalText? = .ok a.bucketingKey ∧
    slot (evaluationToCbor f a) 3 .optionalMap Slot.optionalAttributes? = .ok a.attributes :=
  ⟨rfl, slot_eq_ok rfl (Slot.optionalText?_orNull _) _,
    slot_eq_ok rfl (Slot.optionalAttributes?_orNull _) _⟩

theorem read_treatment (a : EvaluationArguments String) :
    Layout.treatment.read (evaluationToCbor .text a) = .ok a := by
  obtain ⟨hkey, hbucketing, hattributes⟩ := slots_evaluation .text a
  -- the slots are rewritten one by one: unfolding them all would unfold the words they hold
  have hfeature : slot (evaluationToCbor .text a) 2 .text Slot.text? = .ok a.features := rfl
  rw [Layout.treatment]
  simp only
  rw [hkey, hbucketing, hfeature, hattributes]
  rfl

theorem read_treatments (a : EvaluationArguments (List String)) :
    Layout.treatments.read (evaluationToCbor textsToCbor a) = .ok a := by
  obtain ⟨hkey, hbucketing, hattributes⟩ := slots_evaluation textsToCbor a
  have hfeatures : slot (evaluationToCbor textsToCbor a) 2 .textList Slot.textList? =
      .ok a.features := slot_eq_ok rfl (Slot.textList?_textsToCbor _) _
  rw [Layout.treatments]
  simp only
  rw [hkey, hbucketing, hfeatures, hattributes]
  rfl

theorem read_track (a : TrackArguments) : Layout.track.read (track a).args = .ok a := by
  have hkey : slot (track a).args 0 .text Slot.text? = .ok a.key := rfl
  have htraffic : slot (track a).args 1 .text Slot.text? = .ok a.trafficType := rfl
  have hevent : slot (track a).args 2 .text Slot.text? = .ok a.eventType := rfl
  have hvalue : slot (track a).args 3 .optionalNumber Slot.optionalNumber? = .ok a.value :=
    slot_eq_ok rfl (Slot.optionalNumber?_orNull _) _
  have hproperties : slot (track a).args 4 .optionalMap Slot.optionalAttributes? =
      .ok a.properties := slot_eq_ok rfl (Slot.optionalAttributes?_orNull _) _
  have htimestamp : slot (track a).args 5 .signed Slot.signed? = .ok a.timestamp :=
    slot_eq_ok rfl (Slot.signed?_ofInt _) _
  rw [Layout.track]
  simp only
  rw [hkey, htraffic, hevent, hvalue, hproperties, htimestamp]
  rfl

/-- **What a client asks is what is understood**, for every operation and whatever it is asked with. -/
theorem ofRpc_toRpc (r : Request) : ofRpc r.opCode r.toRpc = .ok r := by
  cases r with
  | register i =>
    rw [toRpc, opCode, ofRpc, Layout.ofRpc_request (by decide) rfl (read_register i), Except.map]
  | treatment a withConfig =>
    have h (op : OpCode) (hop : op ∈ Layout.treatment.opCodes) :
        Layout.treatment.ofRpc (.request op (treatment a withConfig).args) = .ok a :=
      Layout.ofRpc_request hop rfl (read_treatment a)
    cases withConfig with
    | false => rw [toRpc, opCode, ofRpc, h .treatment (by decide), Except.map]
    | true => rw [toRpc, opCode, ofRpc, h .treatmentWithConfig (by decide), Except.map]
  | treatments a withConfig =>
    have h (op : OpCode) (hop : op ∈ Layout.treatments.opCodes) :
        Layout.treatments.ofRpc (.request op (treatments a withConfig).args) = .ok a :=
      Layout.ofRpc_request hop rfl (read_treatments a)
    cases withConfig with
    | false => rw [toRpc, opCode, ofRpc, h .treatments (by decide), Except.map]
    | true => rw [toRpc, opCode, ofRpc, h .treatmentsWithConfig (by decide), Except.map]
  | track a =>
    rw [toRpc, opCode, ofRpc, Layout.ofRpc_request (by decide) rfl (read_track a), Except.map]
  | flag name => rfl
  | flagNames => rfl
  | flags => rfl

/-! ## Nesting of requests -/

theorem shallow_orNull {α : Type} {f : α → Value} {n : Nat} (h : ∀ a, (f a).Shallow n)
    (a : Option α) : (orNull f a).Shallow n := by
  cases a with
  | none => exact Value.shallow_null n
  | some a => exact h a

theorem shallow_evaluation {φ : Type} {f : φ → Value} (hf : ∀ x, (f x).Shallow 2)
    (a : EvaluationArguments φ) : ∀ v ∈ evaluationToCbor f a, v.Shallow 2 := by
  simp only [evaluationToCbor, List.forall_mem_cons]
  exact ⟨Value.shallow_text 2 _, shallow_orNull (Value.shallow_text 2) _, hf _,
    shallow_orNull Attributes.shallow_toCbor _, fun _ h => absurd h List.not_mem_nil⟩

/-- Attributes nest deepest of all arguments: a map of lists. -/
theorem shallow_args (r : Request) : ∀ v ∈ r.args, v.Shallow 2 := by
  cases r with
  | register i =>
    simp only [args, List.forall_mem_cons]
    exact ⟨Value.shallow_text 2 _, Value.shallow_text 2 _, Value.shallow_integer 2 _,
      fun _ h => absurd h List.not_mem_nil⟩
  | treatment a withConfig => exact shallow_evaluation (Value.shallow_text 2) a
  | treatments a withConfig =>
    exact shallow_evaluation (Value.shallow_array_map (Value.shallow_text 1)) a
  | track a =>
    simp only [args, List.forall_mem_cons]
    exact ⟨Value.shallow_text 2 _, Value.shallow_text 2 _, Value.shallow_text 2 _,
      shallow_orNull (Value.shallow_float 2) _, shallow_orNull Attributes.shallow_toCbor _,
      Value.shallow_ofInt 2 _, fun _ h => absurd h List.not_mem_nil⟩
  | flag name =>
    simp only [args, List.forall_mem_cons]
    exact ⟨Value.shallow_text 2 name, fun _ h => absurd h List.not_mem_nil⟩
  | flagNames => exact fun _ h => absurd h List.not_mem_nil
  | flags => exact fun _ h => absurd h List.not_mem_nil

/-- A request is read back from its octets, whatever follows. -/
theorem read?_write {r : Request} (hlt : r.toRpc.write.length < 2 ^ 64) (rest : Bytes) :
    Rpc.read? (r.toRpc.write ++ rest) = some r.toRpc :=
  Rpc.read?_write (Rpc.announceable_args hlt) (fun v hv => (r.shallow_args v hv).mono (by decide)) rest

/-- A request is read back from its octets, and nothing else. -/
theorem read?_write_nil {r : Request} (hlt : r.toRpc.write.length < 2 ^ 64) :
    Rpc.read? r.toRpc.write = some r.toRpc := by
  rw [← List.append_nil r.toRpc.write]
  exact read?_write hlt []

end Request

end FlagSidecar
