import FlagSidecar.Proofs.Protocol.Request
import FlagSidecar.Protocol.Payload

/-!
# FlagSidecar.Proofs.Protocol.Payload: what is answered is what the client sees

A payload is written as a record with one-letter names in which absent fields are left out, and read by
name from the generic value that the client makes of it. Every kind of payload comes back as it was,
read as its own kind.

Main statements: `Payload.ofSource?_toCbor` and `Response.read?_write_payload` (no payload nests too deep
for an envelope).
-/

namespace FlagSidecar

open Cbor (Value Source)

/-- The kind of a payload. -/
def Payload.kind : Payload → PayloadKind
  | treatment _ => .treatment
  | treatments _ => .treatments
  | track _ => .track
  | flagNames _ => .flagNames
  | flag _ => .flag
  | flags _ => .flags

/-! ## Reading back -/

theorem texts?_textsToCbor (texts : List String) : texts? (textsToCbor texts) = some texts :=
  Value.source_list?_array fun _ _ => rfl

theorem ListenerData.ofSource?_toCbor (d : ListenerData) : ofSource? d.toCbor = some d := by
  rw [ofSource?, toCbor, Value.fields?_record (by simp) (by simp)]
  simp [Source.required, List.lookup_cons]

theorem ListenerData.isNull_toCbor (d : ListenerData) : Source.isNull d.toCbor = false := rfl

/-- A treatment is read back, whichever of its two optional fields were left out. -/
theorem TreatmentPayload.ofSource?_toCbor (t : TreatmentPayload) : ofSource? t.toCbor = some t := by
  obtain ⟨treatment, config, listener⟩ := t
  cases config <;> cases listener <;>
    rw [ofSource?, toCbor, Value.fields?_record (by simp [fieldIfSome]) (by simp [fieldIfSome])] <;>
    simp [Source.required, Source.optional, List.lookup_cons, fieldIfSome,
      ListenerData.ofSource?_toCbor, ListenerData.isNull_toCbor]

theorem FlagView.ofSource?_toCbor (v : FlagView) : ofSource? v.toCbor = some v := by
  rw [ofSource?, toCbor, Value.fields?_record (by simp) (by simp)]
  simp [Source.required, List.lookup_cons, texts?_textsToCbor]

theorem FlagView.isNull_toCbor (v : FlagView) : Source.isNull v.toCbor = false := rfl

/-- **Every payload is read back as its own kind.** -/
theorem Payload.ofSource?_toCbor (p : Payload) : ofSource? p.kind p.toCbor = some p := by
  cases p with
  | treatment t =>
    rw [kind, ofSource?, toCbor, TreatmentPayload.ofSource?_toCbor]
    rfl
  | treatments results =>
    have h : Source.list? TreatmentPayload.ofSource?
        (Value.array (results.map TreatmentPayload.toCbor)) = some results :=
      Value.source_list?_array fun t _ => t.ofSource?_toCbor
    rw [kind, ofSource?, toCbor, Value.fields?_record (by simp) (by simp)]
    simp [Source.required, h]
  | track success =>
    rw [kind, ofSource?, toCbor, Value.fields?_record (by simp) (by simp)]
    simp [Source.required]
  | flagNames names =>
    rw [kind, ofSource?, toCbor, Value.fields?_record (by simp) (by simp)]
    simp [Source.required, texts?_textsToCbor]
  | flag view =>
    rw [kind, ofSource?, toCbor, Value.fields?_record (by simp) (by simp)]
    cases view with
    | none => rfl
    | some v =>
      simp [Source.optional, FlagView.isNull_toCbor, FlagView.ofSource?_toCbor]
  | flags views =>
    have h : Source.list? FlagView.ofSource? (Value.array (views.map FlagView.toCbor)) = some views :=
      Value.source_list?_array fun v _ => v.ofSource?_toCbor
    rw [kind, ofSource?, toCbor, Value.fields?_record (by simp) (by simp)]
    simp [Source.required, h]

/-! ## Nesting of payloads -/

theorem ListenerData.shallow_toCbor (d : ListenerData) : d.toCbor.Shallow 1 := by
  refine Value.shallow_record ?_
  simp only [List.forall_mem_cons]
  exact ⟨Value.shallow_text 0 _, Value.shallow_ofInt 0 _, Value.shallow_ofInt 0 _,
    fun _ h => absurd h List.not_mem_nil⟩

/-- An optional field is as shallow as its values. -/
theorem shallow_fieldIfSome {α : Type} {f : α → Value} {n : Nat} (h : ∀ a, (f a).Shallow n)
    (name : String) (a : Option α) : ∀ e ∈ fieldIfSome name f a, e.2.Shallow n := by
  cases a with
  | none => exact fun e he => absurd he List.not_mem_nil
  | some a =>
    intro e he
    rw [List.mem_singleton.mp he]
    exact h a

theorem TreatmentPayload.shallow_toCbor (t : TreatmentPayload) : t.toCbor.Shallow 2 := by
  refine Value.shallow_record ?_
  simp only [List.forall_mem_append, List.forall_mem_singleton]
  exact ⟨⟨Value.shallow_text 1 _, shallow_fieldIfSome (Value.shallow_text 1) "c" _⟩,
    shallow_fieldIfSome ListenerData.shallow_toCbor "l" _⟩

theorem FlagView.shallow_toCbor (v : FlagView) : v.toCbor.Shallow 2 := by
  have htexts (texts : List String) : (textsToCbor texts).Shallow 1 :=
    Value.shallow_array_map (Value.shallow_text 0) texts
  have hconfigs : (Value.record (v.configs.entries.map fun e => (e.1, .text e.2))).Shallow 1 := by
    refine Value.shallow_record fun f hf => ?_
    obtain ⟨e, -, rfl⟩ := List.mem_map.mp hf
    exact Value.shallow_text 0 e.2
  refine Value.shallow_record ?_
  simp only [List.forall_mem_cons]
  exact ⟨Value.shallow_text 1 _, Value.shallow_text 1 _, Value.shallow_bool 1 _, htexts _,
    Value.shallow_ofInt 1 _, hconfigs, Value.shallow_text 1 _, htexts _,
    fun _ h => absurd h List.not_mem_nil⟩

namespace Payload

/-- The flags in a list of views nest deepest of all payloads. -/
theorem shallow_toCbor (p : Payload) : p.toCbor.Shallow 4 := by
  have hrecord {name : String} {v : Value} {n : Nat} (hv : v.Shallow n) (hn : n + 1 ≤ 4) :
      (Value.record [(name, v)]).Shallow 4 :=
    (Value.shallow_record (List.forall_mem_singleton.mpr hv)).mono hn
  cases p with
  | treatment t => exact t.shallow_toCbor.mono (by decide)
  | treatments results =>
    exact hrecord (Value.shallow_array_map TreatmentPayload.shallow_toCbor results) (by decide)
  | track success => exact hrecord (Value.shallow_bool 0 success) (by decide)
  | flagNames names => exact hrecord (Value.shallow_array_map (Value.shallow_text 0) names) (by decide)
  | flag view => exact hrecord (Request.shallow_orNull FlagView.shallow_toCbor view) (by decide)
  | flags views => exact hrecord (Value.shallow_array_map FlagView.shallow_toCbor views) (by decide)

/-- A payload is always a record, also where it stands for nothing. -/
theorem toCbor_ne_null (p : Payload) : p.toCbor ≠ .null := by
  cases p <;> exact fun h => by cases h

end Payload

/-- **An answer is read back from its octets**, with its payload as a generic value. -/
theorem Response.read?_write_payload {r : Response Payload}
    (hlt : (r.write Payload.toCbor).length < 2 ^ 64) (rest : Bytes) :
    read? Cbor.Written.value? (r.write Payload.toCbor ++ rest) = some (r.map Payload.toCbor) :=
  read?_write hlt (fun p _ => ⟨p.toCbor_ne_null, p.shallow_toCbor.mono (by decide)⟩) rest

end FlagSidecar
