import FlagSidecar.Json.Fields
import FlagSidecar.Proofs.Cbor.Record
import FlagSidecar.Proofs.Json.Value

/-!
# FlagSidecar.Proofs.Json.Fields: fields of a record are found again

What a typed reader makes of the value that was made for it: one small law for each kind of value, and
`Value.fields?_object` for records, whose fields are all found as long as each has a name of its own that
is asked for. Beside it stands for each kind of value that its text can be read back (`Value.Legible`).
-/

namespace FlagSidecar.Json

namespace Value

variable {α : Type} {f : α → Value} {read : Value → Option α}

/-! ## Single values -/

@[simp] theorem text?_text (s : String) : text? (.text s) = some s := rfl

@[simp] theorem int64?_ofInt64 (n : Int64) : int64? (ofInt64 n) = some n := Width.int64?_toInt n

theorem legible_ofInt64 (n : Int64) : (ofInt64 n).Legible := by
  have hlow := n.le_toInt
  have hhigh := n.toInt_lt
  exact ⟨hlow, by omega⟩

/-! ## Lists and maps -/

theorem list?_array {l : List α} (h : ∀ a ∈ l, read (f a) = some a) :
    list? read (.array (l.map f)) = some l :=
  Cbor.mapM_map_eq_some h

theorem legible_array {l : List α} (h : ∀ a ∈ l, (f a).Legible) :
    (array (l.map f)).Legible := by
  refine (legibleItems_iff _).mpr fun v hv => ?_
  obtain ⟨a, ha, rfl⟩ := List.mem_map.mp hv
  exact h a ha

theorem map?_ofMap {m : NameMap α} (h : ∀ e ∈ m.entries, read (f e.2) = some e.2) :
    map? read (ofMap f m) = some m := by
  have hentries : (m.entries.map fun e => (e.1, f e.2)).mapM
      (fun e => (read e.2).map (e.1, ·)) = some m.entries :=
    Cbor.mapM_map_eq_some fun e he => by rw [h e he, Option.map_some]
  show Option.map _ (List.mapM _ _) = _
  rw [hentries, Option.map_some, NameMap.ofList_entries]

theorem legible_ofMap {m : NameMap α} (h : ∀ e ∈ m.entries, (f e.2).Legible) :
    (ofMap f m).Legible := by
  refine (legibleEntries_iff _).mpr fun v hv => ?_
  obtain ⟨e, he, rfl⟩ := List.mem_map.mp hv
  exact h e he

/-! ## Records -/

/-- **Fields with names of their own that are asked for are all found**, in their order. -/
theorem fields?_object {names : List String} {entries : List (String × Value)}
    (hmem : ∀ e ∈ entries, e.1 ∈ names) (hnodup : (entries.map Prod.fst).Nodup) :
    fields? names (.object entries) = some ⟨entries, true⟩ := by
  have hknown : entries.filter (fun e => names.contains e.1) = entries :=
    List.filter_eq_self.mpr fun e he => List.contains_iff_mem.mpr (hmem e he)
  simp only [fields?, hknown, if_pos hnodup]

end Value

end FlagSidecar.Json
