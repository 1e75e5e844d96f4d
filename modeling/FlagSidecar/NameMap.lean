/-!
# FlagSidecar.NameMap: values under names, in the order of the names

A `NameMap` holds at most one value per name and lists its entries by name, in the order of the code
points, which is also the order of the UTF-8 bytes. The order is part of the type, so two maps with
the same entries are equal, and whatever is written from a map is written in name order.

Main statements: `get?_insert` (the last write wins, other names keep their value), `mem_entries_iff`
(an entry is listed exactly when it is what a look-up finds) and `ext_get?` (a map is its look-ups).
-/

namespace FlagSidecar

/-- At most one value per name, entries in strictly increasing order of name. -/
@[ext] structure NameMap (α : Type) where
  entries : List (String × α)
  sorted : entries.Pairwise fun a b => a.1 < b.1
deriving DecidableEq

namespace NameMap

variable {α : Type}

def empty : NameMap α := ⟨[], .nil⟩

instance : Inhabited (NameMap α) := ⟨empty⟩

/-- The value under a name, from a list in which the first entry of a name counts. -/
def lookup (name : String) : List (String × α) → Option α
  | [] => none
  | (n, v) :: rest => if n = name then some v else lookup name rest

def get? (m : NameMap α) (name : String) : Option α := lookup name m.entries

def contains (m : NameMap α) (name : String) : Bool := (m.get? name).isSome

def names (m : NameMap α) : List String := m.entries.map Prod.fst

def values (m : NameMap α) : List α := m.entries.map Prod.snd

def size (m : NameMap α) : Nat := m.entries.length

/-- Puts an entry at its place among sorted entries; an entry of the same name is replaced. -/
def place (name : String) (value : α) : List (String × α) → List (String × α)
  | [] => [(name, value)]
  | (n, v) :: rest =>
    if name < n then (name, value) :: (n, v) :: rest
    else if n < name then (n, v) :: place name value rest
    else (name, value) :: rest

theorem mem_place {name : String} {value : α} {e : String × α} {l : List (String × α)}
    (h : e ∈ place name value l) : e = (name, value) ∨ e ∈ l := by
  induction l with
  | nil => simpa [place] using h
  | cons hd tl ih =>
    obtain ⟨n, v⟩ := hd
    simp only [place] at h
    split at h
    · simpa using h
    · split at h
      · rcases List.mem_cons.1 h with rfl | h
        · simp
        · rcases ih h with h | h <;> simp [h]
      · rcases List.mem_cons.1 h with rfl | h <;> simp [*]

theorem eq_of_not_lt {a b : String} (h₁ : ¬ a < b) (h₂ : ¬ b < a) : a = b :=
  String.le_antisymm (String.not_lt.1 h₂) (String.not_lt.1 h₁)

theorem sorted_place (name : String) (value : α) {l : List (String × α)}
    (h : l.Pairwise fun a b => a.1 < b.1) :
    (place name value l).Pairwise fun a b => a.1 < b.1 := by
  induction l with
  | nil => simp [place]
  | cons hd tl ih =>
    obtain ⟨n, v⟩ := hd
    rw [List.pairwise_cons] at h
    simp only [place]
    split
    · next hlt =>
      refine List.pairwise_cons.2 ⟨fun e he => ?_, List.pairwise_cons.2 h⟩
      rcases List.mem_cons.1 he with rfl | he
      · exact hlt
      · exact String.lt_trans hlt (h.1 e he)
    · next hnlt =>
      split
      · next hlt =>
        refine List.pairwise_cons.2 ⟨fun e he => ?_, ih h.2⟩
        rcases mem_place he with rfl | he
        · exact hlt
        · exact h.1 e he
      · next hnlt' =>
        have hn : name = n := eq_of_not_lt hnlt hnlt'
        subst hn
        exact List.pairwise_cons.2 ⟨h.1, h.2⟩

/-- The map with the value under the name; a value already there is replaced. -/
def insert (m : NameMap α) (name : String) (value : α) : NameMap α :=
  ⟨place name value m.entries, sorted_place name value m.sorted⟩

/-- The entries of a list put in one after the other, so that a later entry of a name wins. -/
def ofList (l : List (String × α)) : NameMap α :=
  l.foldl (fun m e => m.insert e.1 e.2) empty

/-! ## Look-ups -/

theorem lookup_place (name other : String) (value : α) (l : List (String × α)) :
    lookup other (place name value l) = if name = other then some value else lookup other l := by
  induction l with
  | nil => simp [place, lookup]
  | cons hd tl ih =>
    obtain ⟨n, v⟩ := hd
    simp only [place]
    split
    · simp [lookup]
    · next hnlt =>
      split
      · next hlt =>
        have hne : n ≠ name := fun h => String.lt_irrefl _ (h ▸ hlt)
        simp only [lookup, ih]
        by_cases h₁ : n = other
        · subst h₁; simp [Ne.symm hne]
        · simp [h₁]
      · next hnlt' =>
        have hn : name = n := eq_of_not_lt hnlt hnlt'
        subst hn
        by_cases h : name = other <;> simp [lookup, h]

/-- The last write under a name wins, and no other name changes. -/
@[simp] theorem get?_insert (m : NameMap α) (name other : String) (value : α) :
    (m.insert name value).get? other = if name = other then some value else m.get? other :=
  lookup_place name other value m.entries

@[simp] theorem get?_empty (name : String) : (empty : NameMap α).get? name = none := rfl

theorem lookup_eq_some_iff {name : String} {value : α} {l : List (String × α)}
    (h : l.Pairwise fun a b => a.1 < b.1) :
    lookup name l = some value ↔ (name, value) ∈ l := by
  induction l with
  | nil => simp [lookup]
  | cons hd tl ih =>
    obtain ⟨n, v⟩ := hd
    rw [List.pairwise_cons] at h
    simp only [lookup, List.mem_cons, Prod.mk.injEq]
    by_cases hn : n = name
    · subst hn
      simp only [if_true, Option.some.injEq, true_and]
      refine ⟨fun hv => .inl hv.symm, fun hv => ?_⟩
      rcases hv with hv | hv
      · exact hv.symm
      · exact absurd (h.1 _ hv) (String.lt_irrefl _)
    · simp [hn, Ne.symm hn, ih h.2]

/-- An entry is listed exactly when a look-up of its name finds it. -/
theorem mem_entries_iff {m : NameMap α} {name : String} {value : α} :
    (name, value) ∈ m.entries ↔ m.get? name = some value :=
  (lookup_eq_some_iff m.sorted).symm

theorem mem_names_iff {m : NameMap α} {name : String} :
    name ∈ m.names ↔ (m.get? name).isSome = true := by
  simp only [names, List.mem_map, Option.isSome_iff_exists, ← mem_entries_iff]
  exact ⟨fun ⟨e, he, hn⟩ => ⟨e.2, hn ▸ he⟩, fun ⟨v, hv⟩ => ⟨(name, v), hv, rfl⟩⟩

theorem sorted_names (m : NameMap α) : m.names.Pairwise (· < ·) := by
  simp only [names, List.pairwise_map]; exact m.sorted

/-- Sorted entries are determined by what can be looked up in them. -/
theorem entries_ext {l l' : List (String × α)}
    (h : l.Pairwise fun a b => a.1 < b.1) (h' : l'.Pairwise fun a b => a.1 < b.1)
    (hl : ∀ e, e ∈ l ↔ e ∈ l') : l = l' := by
  induction l generalizing l' with
  | nil =>
    cases l' with
    | nil => rfl
    | cons e t => exact absurd ((hl e).2 List.mem_cons_self) List.not_mem_nil
  | cons a t ih =>
    cases l' with
    | nil => exact absurd ((hl a).1 List.mem_cons_self) List.not_mem_nil
    | cons b t' =>
      rw [List.pairwise_cons] at h h'
      have hab : a = b := by
        rcases List.mem_cons.1 ((hl a).1 List.mem_cons_self) with hab | ha
        · exact hab
        rcases List.mem_cons.1 ((hl b).2 List.mem_cons_self) with hba | hb
        · exact hba.symm
        exact absurd (h.1 b hb) (String.lt_asymm (h'.1 a ha))
      subst hab
      congr 1
      refine ih h.2 h'.2 fun e => ⟨fun he => ?_, fun he => ?_⟩
      · rcases List.mem_cons.1 ((hl e).1 (List.mem_cons_of_mem _ he)) with rfl | he'
        · exact absurd (h.1 e he) (String.lt_irrefl _)
        · exact he'
      · rcases List.mem_cons.1 ((hl e).2 (List.mem_cons_of_mem _ he)) with rfl | he'
        · exact absurd (h'.1 e he) (String.lt_irrefl _)
        · exact he'

/-- A map is determined by its look-ups. -/
theorem ext_get? {m m' : NameMap α} (h : ∀ name, m.get? name = m'.get? name) : m = m' := by
  refine NameMap.ext (entries_ext m.sorted m'.sorted fun e => ?_)
  obtain ⟨n, v⟩ := e
  rw [mem_entries_iff, mem_entries_iff, h]

theorem lookup_append (name : String) (l l' : List (String × α)) :
    lookup name (l ++ l') = (lookup name l).or (lookup name l') := by
  induction l with
  | nil => simp [lookup]
  | cons e rest ih =>
    obtain ⟨n, v⟩ := e
    rw [List.cons_append, lookup, lookup, ih]
    split <;> simp

/-- Entries put into a map hide what it held under their names; of a name that comes more than once the
last entry is found. -/
theorem get?_foldl_insert (l : List (String × α)) (m : NameMap α) (name : String) :
    (l.foldl (fun m e => m.insert e.1 e.2) m).get? name =
      (lookup name l.reverse).or (m.get? name) := by
  induction l generalizing m with
  | nil => simp [lookup]
  | cons e rest ih =>
    obtain ⟨n, v⟩ := e
    rw [List.foldl_cons, ih, get?_insert, List.reverse_cons, lookup_append, Option.or_assoc]
    simp only [lookup]
    split <;> simp

/-- Of the entries of a name the last one counts. -/
theorem get?_ofList (l : List (String × α)) (name : String) :
    (ofList l).get? name = lookup name l.reverse := by
  rw [ofList, get?_foldl_insert, get?_empty, Option.or_none]

theorem lookup_eq_none_iff_forall {name : String} {l : List (String × α)} :
    lookup name l = none ↔ ∀ value, (name, value) ∉ l := by
  induction l with
  | nil => simp [lookup]
  | cons e rest ih =>
    obtain ⟨n, v⟩ := e
    rw [lookup]
    split
    next hn =>
      subst hn
      exact iff_of_false (by simp) fun h => h v List.mem_cons_self
    next hn => simp [ih, Ne.symm hn]

/-- Nothing is found under the names that do not come. -/
theorem get?_ofList_eq_none_iff {l : List (String × α)} {name : String} :
    (ofList l).get? name = none ↔ ∀ value, (name, value) ∉ l := by
  rw [get?_ofList, lookup_eq_none_iff_forall]
  simp

/-- What is found under a name is what comes under it last. -/
theorem get?_ofList_eq_some_iff {l : List (String × α)} {name : String} {value : α} :
    (ofList l).get? name = some value ↔
      ∃ before after, l = before ++ (name, value) :: after ∧ ∀ other, (name, other) ∉ after := by
  constructor
  · induction l with
    | nil => simp [ofList]
    | cons e rest ih =>
      intro h
      rw [get?_ofList, List.reverse_cons, lookup_append, ← get?_ofList, Option.or_eq_some_iff] at h
      rcases h with h | ⟨hnone, hown⟩
      · obtain ⟨before, after, rfl, hafter⟩ := ih h
        exact ⟨e :: before, after, rfl, hafter⟩
      · obtain ⟨n, v⟩ := e
        obtain ⟨rfl, hv⟩ := Option.ite_none_right_eq_some.mp hown
        cases hv
        exact ⟨[], rest, rfl, get?_ofList_eq_none_iff.mp hnone⟩
  · rintro ⟨before, after, rfl, hafter⟩
    have hnone : lookup name after.reverse = none := by
      rw [lookup_eq_none_iff_forall]
      simpa using hafter
    rw [get?_ofList, List.reverse_append, List.reverse_cons, lookup_append, lookup_append, hnone]
    simp [lookup]

theorem lookup_map (value : String → α) (names : List String) (name : String) :
    lookup name (names.map fun n => (n, value n)) =
      if name ∈ names then some (value name) else none := by
  induction names with
  | nil => rfl
  | cons n rest ih =>
    rw [List.map_cons, lookup, ih]
    by_cases hn : n = name
    · rw [if_pos hn, if_pos (hn ▸ List.mem_cons_self), hn]
    · simp [hn, Ne.symm hn]

/-- Where each name has a value of its own, it is found with it, however often it comes. -/
theorem get?_ofList_map (value : String → α) (names : List String) (name : String) :
    (ofList (names.map fun n => (n, value n))).get? name =
      if name ∈ names then some (value name) else none := by
  rw [get?_ofList, ← List.map_reverse, lookup_map]
  simp only [List.mem_reverse]

/-- The entries are the names, each with its value. -/
theorem entries_ofList_map (value : String → α) (names : List String) :
    (ofList (names.map fun n => (n, value n))).entries =
      (ofList (names.map fun n => (n, value n))).names.map fun n => (n, value n) := by
  have hentry : ∀ e ∈ (ofList (names.map fun n => (n, value n))).entries, (e.1, value e.1) = e := by
    intro e he
    have hget := mem_entries_iff.mp (show (e.1, e.2) ∈ _ from he)
    rw [get?_ofList_map] at hget
    split at hget
    · rw [Option.some.inj hget]
    · cases hget
  rw [NameMap.names, List.map_map]
  exact (List.map_id _).symm.trans (List.map_congr_left fun e he => (hentry e he).symm)

/-- In sorted entries no name comes twice, so the last one of a name is the first. -/
theorem lookup_reverse {l : List (String × α)} (h : l.Pairwise fun a b => a.1 < b.1)
    (name : String) : lookup name l.reverse = lookup name l := by
  induction l with
  | nil => rfl
  | cons e rest ih =>
    obtain ⟨n, v⟩ := e
    rw [List.pairwise_cons] at h
    rw [List.reverse_cons, lookup_append, ih h.2, lookup, lookup, lookup]
    by_cases hn : n = name
    · have hrest : lookup name rest = none := by
        rw [Option.eq_none_iff_forall_ne_some]
        intro w hw
        have := h.1 _ ((lookup_eq_some_iff h.2).1 hw)
        exact String.lt_irrefl _ (hn ▸ this)
      simp [hn, hrest]
    · simp [hn]

/-- A map is the list of its entries. -/
theorem ofList_entries (m : NameMap α) : ofList m.entries = m := by
  refine ext_get? fun name => ?_
  rw [get?_ofList, lookup_reverse m.sorted]
  rfl

end NameMap

end FlagSidecar
