import FlagSidecar.Flag.Basic
import FlagSidecar.Protocol.Envelope

/-!
# FlagSidecar.Protocol.Payload: what answers carry

Each operation has a payload of its own, a record with one-letter names. Fields without a value are
left out of treatments. Payloads are read from any `Source`: the client reads them from generic values.
-/

namespace FlagSidecar

open Cbor (Value Source)

/-- What a client that asked for it learns about an impression. -/
structure ListenerData where
  label : String
  timeMs : Int64
  changeNumber : Int64
deriving DecidableEq

/-- What one evaluation answers to a client. -/
structure TreatmentPayload where
  treatment : String
  config : Option String
  listener : Option ListenerData
deriving DecidableEq

/-- What any answer carries. -/
inductive Payload where
  | treatment (t : TreatmentPayload)
  | treatments (results : List TreatmentPayload)
  | track (success : Bool)
  | flagNames (names : List String)
  | flag (view : Option FlagView)
  | flags (views : List FlagView)
deriving DecidableEq

/-- The field of a record, if there is a value for it. -/
def fieldIfSome {α : Type} (name : String) (f : α → Value) : Option α → List (String × Value)
  | none => []
  | some a => [(name, f a)]

/-! ## Writing -/

def textsToCbor (texts : List String) : Value := .array (texts.map .text)

def ListenerData.toCbor (d : ListenerData) : Value :=
  .record [("l", .text d.label), ("m", .ofInt d.timeMs.toInt), ("c", .ofInt d.changeNumber.toInt)]

def TreatmentPayload.toCbor (t : TreatmentPayload) : Value :=
  .record ([("t", .text t.treatment)] ++ fieldIfSome "c" .text t.config ++
    fieldIfSome "l" ListenerData.toCbor t.listener)

def FlagView.toCbor (v : FlagView) : Value :=
  .record [("n", .text v.name), ("t", .text v.trafficType), ("k", .bool v.killed),
    ("s", textsToCbor v.treatments), ("c", .ofInt v.changeNumber.toInt),
    ("f", .record (v.configs.entries.map fun e => (e.1, .text e.2))),
    ("d", .text v.defaultTreatment), ("e", textsToCbor v.sets)]

def Payload.toCbor : Payload → Value
  | treatment t => t.toCbor
  | treatments results => .record [("r", .array (results.map TreatmentPayload.toCbor))]
  | track success => .record [("s", .bool success)]
  | flagNames names => .record [("n", textsToCbor names)]
  | flag view => .record [("s", (view.map FlagView.toCbor).getD .null)]
  | flags views => .record [("s", .array (views.map FlagView.toCbor))]

/-! ## Reading -/

section

variable {σ : Type} [Source σ]

def texts? (x : σ) : Option (List String) := Source.list? Source.text? x

def ListenerData.ofSource? (x : σ) : Option ListenerData := do
  let fields ← Source.fields? ["l", "m", "c"] x
  let label ← Source.required fields "l" Source.text?
  let time ← Source.required fields "m" Source.int64?
  let changeNumber ← Source.required fields "c" Source.int64?
  some ⟨label, time, changeNumber⟩

def TreatmentPayload.ofSource? (x : σ) : Option TreatmentPayload := do
  let fields ← Source.fields? ["t", "c", "l"] x
  let treatment ← Source.required fields "t" Source.text?
  let config ← Source.optional fields "c" Source.text?
  let listener ← Source.optional fields "l" ListenerData.ofSource?
  some ⟨treatment, config, listener⟩

def FlagView.ofSource? (x : σ) : Option FlagView := do
  let fields ← Source.fields? ["n", "t", "k", "s", "c", "f", "d", "e"] x
  let name ← Source.required fields "n" Source.text?
  let trafficType ← Source.required fields "t" Source.text?
  let killed ← Source.required fields "k" Source.bool?
  let treatments ← Source.required fields "s" texts?
  let changeNumber ← Source.required fields "c" Source.int64?
  let configs ← Source.required fields "f" Source.textMap?
  let defaultTreatment ← Source.required fields "d" Source.text?
  let sets ← Source.required fields "e" texts?
  some ⟨name, trafficType, killed, treatments, changeNumber, configs, defaultTreatment, sets⟩

/-- The kinds of payload. -/
inductive PayloadKind where
  | treatment
  | treatments
  | track
  | flagNames
  | flag
  | flags
deriving DecidableEq

/-- The kind of payload that answers an operation; a registration has no payload. -/
def OpCode.payloadKind? : OpCode → Option PayloadKind
  | register => none
  | treatment | treatmentWithConfig => some .treatment
  | treatments | treatmentsWithConfig => some .treatments
  | track => some .track
  | flagNames => some .flagNames
  | flag => some .flag
  | flags => some .flags

/-- Reads a payload of the kind that is expected. -/
def Payload.ofSource? (kind : PayloadKind) (x : σ) : Option Payload :=
  match kind with
  | .treatment => (TreatmentPayload.ofSource? x).map .treatment
  | .treatments => do
    let fields ← Source.fields? ["r"] x
    (Source.required fields "r" (Source.list? TreatmentPayload.ofSource?)).map .treatments
  | .track => do
    let fields ← Source.fields? ["s"] x
    (Source.required fields "s" Source.bool?).map .track
  | .flagNames => do
    let fields ← Source.fields? ["n"] x
    (Source.required fields "n" texts?).map .flagNames
  | .flag => do
    let fields ← Source.fields? ["s"] x
    (Source.optional fields "s" FlagView.ofSource?).map .flag
  | .flags => do
    let fields ← Source.fields? ["s"] x
    (Source.required fields "s" (Source.list? FlagView.ofSource?)).map .flags

end

end FlagSidecar
