import FlagSidecar.Proofs.Cbor.Value

/-!
# FlagSidecar.Proofs.Cbor.Nesting: values that an envelope can carry

An envelope brings a value across if the value does not nest too deep and nowhere has a tag for a number
directly over octets. The values that requests and payloads are made of are shallow: each of the
constructions below takes one level.

Main statement: `Value.ofItem?_toItem_of_shallow`.
-/

namespace FlagSidecar.Cbor.Value

/-- **Shallow.** The value nests so many levels at most, and is plain. -/
structure Shallow (n : Nat) (v : Value) : Prop where
  depth_le : v.depth ≤ n
  plain : v.Plain

/-- A shallow value is read back by a reader that allows as many levels. -/
theorem ofItem?_toItem_of_shallow {n : Nat} {v : Value} (h : v.Shallow n) :
    ofItem? n v.toItem = some v :=
  ofItem?_toItem v n h.depth_le h.plain

theorem Shallow.mono {n m : Nat} {v : Value} (h : v.Shallow n) (hnm : n ≤ m) : v.Shallow m :=
  ⟨Nat.le_trans h.depth_le hnm, h.plain⟩

/-! ## Values that do not nest -/

theorem shallow_null (n : Nat) : null.Shallow n := ⟨Nat.zero_le n, trivial⟩

theorem shallow_bool (n : Nat) (b : Bool) : (bool b).Shallow n := ⟨Nat.zero_le n, trivial⟩

theorem shallow_text (n : Nat) (s : String) : (text s).Shallow n := ⟨Nat.zero_le n, trivial⟩

theorem shallow_float (n : Nat) (x : Binary64) : (float x).Shallow n := ⟨Nat.zero_le n, trivial⟩

theorem shallow_integer (n : Nat) (i : Integer) : (integer i).Shallow n := ⟨Nat.zero_le n, trivial⟩

theorem shallow_ofInt (n : Nat) (k : Int) : (ofInt k).Shallow n := by
  unfold ofInt
  split
  · exact ⟨Nat.zero_le n, trivial⟩
  · exact ⟨Nat.zero_le n, trivial⟩

/-! ## Values that take one level -/

variable {n : Nat}

theorem shallow_array {items : List Value} (h : ∀ v ∈ items, v.Shallow n) :
    (array items).Shallow (n + 1) where
  depth_le := Nat.succ_le_succ ((depthItems_le_iff items n).mpr fun v hv => (h v hv).depth_le)
  plain := (plainItems_iff items).mpr fun v hv => (h v hv).plain

theorem shallow_map {entries : List (Value × Value)}
    (h : ∀ e ∈ entries, e.1.Shallow n ∧ e.2.Shallow n) : (map entries).Shallow (n + 1) where
  depth_le := Nat.succ_le_succ
    ((depthEntries_le_iff entries n).mpr fun e he => ⟨(h e he).1.depth_le, (h e he).2.depth_le⟩)
  plain := (plainEntries_iff entries).mpr fun e he => ⟨(h e he).1.plain, (h e he).2.plain⟩

theorem shallow_record {fields : List (String × Value)} (h : ∀ f ∈ fields, f.2.Shallow n) :
    (record fields).Shallow (n + 1) := by
  refine shallow_map fun e he => ?_
  obtain ⟨f, hf, rfl⟩ := List.mem_map.mp he
  exact ⟨shallow_text n f.1, h f hf⟩

theorem shallow_array_map {α : Type} {f : α → Value} (h : ∀ a, (f a).Shallow n) (l : List α) :
    (array (l.map f)).Shallow (n + 1) := by
  refine shallow_array fun v hv => ?_
  obtain ⟨a, -, rfl⟩ := List.mem_map.mp hv
  exact h a

end FlagSidecar.Cbor.Value
