import FlagSidecar.Proofs.Cbor.Record
import FlagSidecar.Protocol.Envelope
import Mathlib.Logic.Function.Iterate

/-!
# FlagSidecar.Proofs.Protocol.Envelope: requests and answers are read back from their octets

An envelope is a record of two or three fields. It takes the first level of nesting, and the list of
arguments the second, so an argument may nest 254 levels deep and a payload 255.

Main statements: `Rpc.envelope_comes_back` and `Response.read?_write`. Octets behind the envelope make no
difference to either.
-/

namespace FlagSidecar

open Cbor (Value Written Source nestingLimit)

namespace Rpc

/-- The fields of a written request. -/
theorem fields?_toCbor (rpc : Rpc) :
    Source.fields? ["v", "o", "a"] (⟨nestingLimit, rpc.toCbor.toItem⟩ : Written) =
      some [("v", ⟨255, (Value.integer (.ofUInt8 rpc.version)).toItem⟩),
        ("o", ⟨255, (Value.integer (.ofUInt8 rpc.opcode)).toItem⟩),
        ("a", ⟨255, (Value.array rpc.args).toItem⟩)] := by
  refine Written.fields?_record 255 (by decide) ?_ ?_
  · intro f hf
    simp only [List.mem_cons, List.not_mem_nil, or_false] at hf
    rcases hf with rfl | rfl | rfl <;> simp
  · simp only [List.map_cons, List.map_nil]
    decide

theorem write_ne_nil (rpc : Rpc) : rpc.write ≠ [] :=
  List.length_pos_iff.mp (Value.length_write_pos rpc.toCbor)

theorem announceable_toCbor {rpc : Rpc} (h : (Value.array rpc.args).Announceable) :
    rpc.toCbor.Announceable := by
  have hname : (Bytes.utf8 "v").length < 2 ^ 64 ∧ (Bytes.utf8 "o").length < 2 ^ 64 ∧
      (Bytes.utf8 "a").length < 2 ^ 64 := by decide
  exact ⟨show 3 < 2 ^ 64 by decide, hname.1, trivial, hname.2.1, trivial, hname.2.2, h, trivial⟩

/-- A request that is written in fewer than `2^64` octets has no longer argument. -/
theorem announceable_args {rpc : Rpc} (h : rpc.write.length < 2 ^ 64) :
    (Value.array rpc.args).Announceable := by
  have hrecord : rpc.toCbor.Announceable := Value.announceable_of_length_write rpc.toCbor h
  obtain ⟨-, -, -, -, -, -, hargs, -⟩ := hrecord
  exact hargs

/-- What is read of a written request comes down to its list of arguments. -/
theorem read?_write_eq {rpc : Rpc} (hlengths : (Value.array rpc.args).Announceable) (rest : Bytes) :
    read? (rpc.write ++ rest) =
      (Source.list? Written.value? (⟨255, (Value.array rpc.args).toItem⟩ : Written)).map
        fun args => ⟨rpc.version, rpc.opcode, args⟩ := by
  have hread : Written.read? (rpc.write ++ rest) = some ⟨nestingLimit, rpc.toCbor.toItem⟩ :=
    Written.read?_write (announceable_toCbor hlengths) rest
  rw [read?, hread, Option.bind_eq_bind, Option.bind_some, ofWritten?, fields?_toCbor]
  simp only [Option.bind_eq_bind, Option.bind_some, Source.required, List.lookup_cons,
    beq_self_eq_true, Written.uint8?_ofUInt8, show (("o" : String) == "v") = false from rfl,
    show (("a" : String) == "v") = false from rfl, show (("a" : String) == "o") = false from rfl]
  cases Source.list? Written.value? (⟨255, (Value.array rpc.args).toItem⟩ : Written) <;> rfl

/-- **A request is read back**: version, operation and arguments, whatever follows. -/
theorem read?_write {rpc : Rpc} (hlengths : (Value.array rpc.args).Announceable)
    (hargs : ∀ v ∈ rpc.args, v.Shallow 254) (rest : Bytes) : read? (rpc.write ++ rest) = some rpc := by
  rw [read?_write_eq hlengths, Written.list?_value?_array hargs, Option.map_some]

/-- **An envelope comes back as it was**, whatever follows it: the version, any operation code, and every
argument in its place, to the order of entries, repeated keys and the bits of floats. The arguments may
nest 254 levels deep, and exactly that: an envelope with a deeper one is not read at all. -/
theorem envelope_comes_back {rpc : Rpc} (hlengths : (Value.array rpc.args).Announceable)
    (hplain : ∀ v ∈ rpc.args, v.Plain) (rest : Bytes) :
    ((∀ v ∈ rpc.args, v.depth ≤ 254) → read? (rpc.write ++ rest) = some rpc) ∧
      ((∃ v ∈ rpc.args, 254 < v.depth) → read? (rpc.write ++ rest) = none) := by
  constructor
  · intro hdepth
    exact read?_write hlengths (fun v hv => ⟨hdepth v hv, hplain v hv⟩) rest
  · rintro ⟨v, hv, hdeep⟩
    rw [read?_write_eq hlengths, Written.list?_value?_array_of_deep hv hdeep (hplain v hv),
      Option.map_none]

/-- An operation that no one knows, in another version: the least integer, a signalling NaN, a map with a
repeated key, an octet string under a tag, and a list that nests as deep as an argument may; a stop
follows. -/
theorem envelope_comes_back_unknown_operation :
    let deepest : Value := (fun v => Value.array [v])^[254] .null
    let rpc : Rpc := ⟨7, 0x42, [.integer ⟨-2 ^ 64, by decide, by decide⟩, .float ⟨0x7ff0000000000001⟩,
      .map [(.text "k", .bool true), (.text "k", .null)], .tag 4 (.bytes [0, 1]), deepest]⟩
    read? (rpc.write ++ [0xff]) = some rpc := by
  intro deepest rpc
  have hdeepest : ∀ n, ((fun v => Value.array [v])^[n] Value.null).depth = n ∧
      ((fun v => Value.array [v])^[n] Value.null).Plain ∧
      ((fun v => Value.array [v])^[n] Value.null).Announceable := by
    intro n
    induction n with
    | zero => exact ⟨rfl, trivial, trivial⟩
    | succ n ih =>
      obtain ⟨hdepth, hplain, hlengths⟩ := ih
      rw [Function.iterate_succ_apply']
      refine ⟨?_, ⟨hplain, trivial⟩, show 1 < 2 ^ 64 by decide, hlengths, trivial⟩
      simp only [Value.depth, Value.depthItems, hdepth, Nat.max_zero]
  obtain ⟨hdepth, hplain, hlengths⟩ := hdeepest 254
  have hkey : (Value.text "k").Announceable := show (Bytes.utf8 "k").length < 2 ^ 64 by decide
  have htag : (Value.tag 4 (.bytes [0, 1])).Announceable := show 2 < 2 ^ 64 by decide
  have htagged : (Value.tag 4 (.bytes [0, 1])).Plain := show 4 ≠ 2 ∧ 4 ≠ 3 by decide
  refine (envelope_comes_back ?_ ?_ [0xff]).1 ?_
  · exact ⟨show 5 < 2 ^ 64 by decide, trivial, trivial,
      ⟨show 2 < 2 ^ 64 by decide, hkey, trivial, hkey, trivial, trivial⟩, htag, hlengths, trivial⟩
  · simp only [rpc, List.forall_mem_cons]
    exact ⟨trivial, trivial, ⟨trivial, trivial, trivial, trivial, trivial⟩, htagged, hplain,
      fun _ h => nomatch h⟩
  · simp only [rpc, List.forall_mem_cons]
    exact ⟨by decide, by decide, by decide, by decide, Nat.le_of_eq hdepth, fun _ h => nomatch h⟩

end Rpc

namespace Response

variable {π : Type} {payload : π → Value}

/-- The fields of a written answer. -/
theorem fields?_toCbor (r : Response π) :
    Source.fields? ["s", "p"] (⟨nestingLimit, (r.toCbor payload).toItem⟩ : Written) =
      some [("s", ⟨255, (Value.integer (.ofUInt8 r.status)).toItem⟩),
        ("p", ⟨255, ((r.payload.map payload).getD .null).toItem⟩)] := by
  refine Written.fields?_record 255 (by decide) ?_ ?_
  · intro f hf
    simp only [List.mem_cons, List.not_mem_nil, or_false] at hf
    rcases hf with rfl | rfl <;> simp
  · simp only [List.map_cons, List.map_nil]
    decide

theorem write_ne_nil (r : Response π) : r.write payload ≠ [] :=
  List.length_pos_iff.mp (Value.length_write_pos (r.toCbor payload))

/-- **An answer is read back** with its payload as a generic value. A payload is never written as null,
which would be taken for none. -/
theorem read?_write {r : Response π} (hlt : (r.write payload).length < 2 ^ 64)
    (hpayload : ∀ p, r.payload = some p → payload p ≠ .null ∧ (payload p).Shallow 255)
    (rest : Bytes) : read? Written.value? (r.write payload ++ rest) = some (r.map payload) := by
  have hread : Written.read? (r.write payload ++ rest) =
      some ⟨nestingLimit, (r.toCbor payload).toItem⟩ :=
    Written.read?_write (Value.announceable_of_length_write _ hlt) rest
  have hoptional : Source.optional
      [("s", (⟨255, (Value.integer (.ofUInt8 r.status)).toItem⟩ : Written)),
        ("p", ⟨255, ((r.payload.map payload).getD .null).toItem⟩)] "p" Written.value? =
      some (r.payload.map payload) := by
    cases hp : r.payload with
    | none => rfl
    | some p =>
      obtain ⟨hnull, hshallow⟩ := hpayload p hp
      simp only [Source.optional, List.lookup_cons, show (("p" : String) == "s") = false from rfl,
        beq_self_eq_true, Option.map_some, Option.getD_some, Written.isNull_toItem hnull]
      -- the payload is not null, so it is read as a value
      show (if false = true then some none else
        (Value.ofItem? 255 (payload p).toItem).map some) = _
      rw [if_neg Bool.false_ne_true, Value.ofItem?_toItem_of_shallow hshallow, Option.map_some]
  rw [read?, hread, Option.bind_eq_bind, Option.bind_some, ofWritten?, fields?_toCbor]
  simp only [Option.bind_eq_bind, Option.bind_some, hoptional, Source.required, List.lookup_cons,
    beq_self_eq_true, Written.uint8?_ofUInt8]
  rfl

end Response

end FlagSidecar
