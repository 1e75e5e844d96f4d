import FlagSidecar.Proofs.Queue.Capacity

/-!
# FlagSidecar.Proofs.Queue.Ring: a ring holds a list of items

A ring holds a list of items when they lie in its slots from `tail` on, around the end, and `head` is the
slot after the last of them. Seen in this way a push appends the longest prefix of a batch that fits, and
a pop takes items from the front. The number of slots is a power of two, so that a mask is a remainder:
once that is said (`Sound.toNat_mask`), words are left behind and slots are counted.

Main statements: `Ring.holds_withSlots`, `Ring.Holds.push`, `Ring.Holds.popFrom`, `Ring.Holds.toList_eq`.
-/

namespace FlagSidecar

namespace Ring

/-! ## The slot of an item -/

/-- The slot of the item that has so many before it. -/
def place (capacity tail before : Nat) : Nat := (tail + before) % capacity

variable {capacity tail before other : Nat}

theorem place_lt (h : 0 < capacity) : place capacity tail before < capacity := Nat.mod_lt _ h

/-- Whoever goes around the end does so once. -/
theorem place_eq (htail : tail < capacity) (hbefore : before ≤ capacity) :
    place capacity tail before =
      if tail + before < capacity then tail + before else tail + before - capacity := by
  unfold place
  split
  next hlt => exact Nat.mod_eq_of_lt hlt
  next hge =>
    rw [Nat.mod_eq_sub_mod (by omega)]
    exact Nat.mod_eq_of_lt (by omega)

/-- Different items have different slots. -/
theorem place_inj (htail : tail < capacity) (hbefore : before < capacity) (hother : other < capacity)
    (h : place capacity tail before = place capacity tail other) : before = other := by
  rw [place_eq htail (by omega), place_eq htail (by omega)] at h
  split at h <;> split at h <;> omega

/-- Once the first item is gone, every other has one less before it. -/
theorem place_place (capacity tail before : Nat) :
    place capacity (place capacity tail 1) before = place capacity tail (before + 1) := by
  unfold place
  rw [Nat.mod_add_mod]
  congr 1
  omega

variable {α : Type} {r : Ring α} {items batch : List α} {item : α}

/-! ## Rings and the lists they hold -/

/-- The slots of a ring are a power of two, the mask takes the remainder by their number, and `tail` is
one of them. -/
structure Sound (r : Ring α) : Prop where
  capacity_eq : ∃ k, 1 ≤ k ∧ k ≤ 63 ∧ r.capacity = 2 ^ k
  mask_eq : r.mask.toNat = r.capacity - 1
  tail_lt : r.tail.toNat < r.capacity

theorem Sound.two_le (h : r.Sound) : 2 ≤ r.capacity := by
  obtain ⟨k, hk, -, hcapacity⟩ := h.capacity_eq
  have := Nat.pow_le_pow_right (show 0 < 2 by omega) hk
  omega

/-- A word counts the slots without a remainder. -/
theorem Sound.dvd (h : r.Sound) : r.capacity ∣ 2 ^ 64 := by
  obtain ⟨k, -, hk, hcapacity⟩ := h.capacity_eq
  rw [hcapacity]
  exact Nat.pow_dvd_pow 2 (by omega)

/-- **A mask is a remainder.** -/
theorem Sound.toNat_mask (h : r.Sound) (w : UInt64) : (w &&& r.mask).toNat = w.toNat % r.capacity := by
  obtain ⟨k, -, -, hcapacity⟩ := h.capacity_eq
  rw [UInt64.toNat_and, h.mask_eq, hcapacity]
  exact Nat.and_two_pow_sub_one_eq_mod _ _

/-- The slot after one of the slots. -/
theorem Sound.toNat_next (h : r.Sound) (w : UInt64) :
    ((w + 1) &&& r.mask).toNat = place r.capacity w.toNat 1 := by
  rw [h.toNat_mask, UInt64.toNat_add]
  exact Nat.mod_mod_of_dvd _ h.dvd

/-- **The ring holds these items**, the oldest first. -/
structure Holds (r : Ring α) (items : List α) : Prop extends Sound r where
  head_eq : r.head.toNat = place r.capacity r.tail.toNat items.length
  length_lt : items.length < r.capacity
  slot_eq : ∀ j (hj : j < items.length),
    r.slots[place r.capacity r.tail.toNat j]? = some (some items[j])

/-- A new ring holds nothing. -/
theorem holds_withSlots (slots : UInt64) : (withSlots slots : Ring α).Holds [] := by
  obtain ⟨k, hlow, hhigh, hk⟩ := Capacity.toNat_forSlots slots
  have hcapacity : (withSlots slots : Ring α).capacity = 2 ^ k := by
    rw [capacity, withSlots, Array.size_replicate, hk]
  have hpos := Nat.two_pow_pos k
  refine ⟨⟨⟨k, hlow, hhigh, hcapacity⟩, ?_, ?_⟩, ?_, ?_, ?_⟩
  · rw [hcapacity]
    show (Capacity.forSlots slots - 1).toNat = _
    have hone : (1 : UInt64) ≤ Capacity.forSlots slots := by
      rw [UInt64.le_iff_toNat_le, hk]
      exact hpos
    rw [UInt64.toNat_sub_of_le _ _ hone, hk]
    rfl
  · rw [hcapacity]
    exact hpos
  · show 0 = (0 + 0) % _
    exact (Nat.zero_mod _).symm
  · rw [hcapacity]
    exact hpos
  · intro j hj
    cases hj

namespace Holds

/-- How many more items fit. -/
theorem isFull_iff (h : r.Holds items) : r.isFull = true ↔ items.length = r.usable := by
  have htwo := h.two_le
  have hlength := h.length_lt
  have htail := h.tail_lt
  have hnext : ((r.head + 1) &&& r.mask).toNat =
      place r.capacity r.tail.toNat (items.length + 1) := by
    rw [h.toNat_next, h.head_eq]
    unfold place
    rw [Nat.mod_add_mod, Nat.add_assoc]
  unfold isFull usable
  rw [beq_iff_eq, ← UInt64.toNat_inj, hnext, place_eq htail (by omega)]
  split <;> omega

theorem isEmpty_iff (h : r.Holds items) : r.isEmpty = true ↔ items = [] := by
  have hlength := h.length_lt
  have htail := h.tail_lt
  unfold isEmpty
  rw [beq_iff_eq, ← UInt64.toNat_inj, h.head_eq, place_eq htail (by omega), ← List.length_eq_zero_iff]
  split <;> omega

/-- A ring knows how many items it holds. -/
theorem length_eq (h : r.Holds items) : r.length = items.length := by
  have hlength := h.length_lt
  have htail := h.tail_lt
  obtain ⟨q, hq⟩ := h.dvd
  have hqpos : 0 < q := Nat.pos_of_ne_zero (by rintro rfl; omega)
  unfold length
  rw [h.toNat_mask, UInt64.toNat_sub, Nat.mod_mod_of_dvd _ h.dvd, h.head_eq,
    place_eq htail (by omega)]
  -- the difference of the two words is the number of items, up to whole turns around the ring
  obtain ⟨turns, hturns⟩ : ∃ turns, 2 ^ 64 - r.tail.toNat +
      (if r.tail.toNat + items.length < r.capacity then r.tail.toNat + items.length
        else r.tail.toNat + items.length - r.capacity) = r.capacity * turns + items.length := by
    have hcapacity : r.capacity ≤ 2 ^ 64 := Nat.le_of_dvd (by omega) h.dvd
    split
    next => exact ⟨q, by omega⟩
    next =>
      refine ⟨q - 1, ?_⟩
      rw [Nat.mul_sub_one]
      omega
  rw [hturns, Nat.mul_add_mod]
  exact Nat.mod_eq_of_lt hlength

/-! ## One item -/

/-- **An item goes behind the others** in a ring that is not full. -/
theorem pushOne? (h : r.Holds items) (hroom : items.length < r.usable) (item : α) :
    ∃ r', r.pushOne? item = some r' ∧ r'.Holds (items ++ [item]) ∧ r'.usable = r.usable := by
  have htail := h.tail_lt
  have hhead : r.head.toNat < r.slots.size := by
    rw [h.head_eq]
    exact place_lt (by omega)
  have hnotFull : ¬ r.isFull = true := by
    rw [h.isFull_iff]
    omega
  have hlength : items.length + 1 < r.capacity := by
    unfold usable at hroom
    omega
  obtain ⟨r', hr'⟩ : ∃ r' : Ring α, r' = { r with
      slots := r.slots.setIfInBounds r.head.toNat (some item)
      head := (r.head + 1) &&& r.mask } := ⟨_, rfl⟩
  have hcapacity : r'.capacity = r.capacity := by
    rw [hr']
    exact Array.size_setIfInBounds
  refine ⟨r', ?_, ⟨⟨?_, ?_, ?_⟩, ?_, ?_, ?_⟩, ?_⟩
  · unfold Ring.pushOne?
    rw [if_neg hnotFull, if_pos hhead, hr']
  · rw [hcapacity]
    exact h.capacity_eq
  · rw [hcapacity, hr']
    exact h.mask_eq
  · rw [hcapacity, hr']
    exact htail
  · rw [hcapacity, hr', List.length_append, List.length_singleton]
    show ((r.head + 1) &&& r.mask).toNat = _
    rw [h.toNat_next, h.head_eq]
    unfold place
    rw [Nat.mod_add_mod, Nat.add_assoc]
  · rw [hcapacity, List.length_append, List.length_singleton]
    exact hlength
  · intro j hj
    rw [List.length_append, List.length_singleton] at hj
    rw [hcapacity, hr']
    show (r.slots.setIfInBounds r.head.toNat (some item))[place r.capacity r.tail.toNat j]? = _
    rw [Array.getElem?_setIfInBounds, h.head_eq]
    by_cases hlast : j = items.length
    · -- the new item is in the slot that `head` was
      subst hlast
      rw [if_pos rfl, if_pos (by rw [← h.head_eq]; exact hhead)]
      simp
    · have hold : j < items.length := by omega
      have hne : place r.capacity r.tail.toNat items.length ≠ place r.capacity r.tail.toNat j := by
        intro heq
        have := place_inj htail (by omega) (by omega) heq
        omega
      rw [if_neg hne, h.slot_eq j hold, List.getElem_append_left hold]
  · unfold usable
    rw [hcapacity]

theorem pushOne?_of_full (h : r.Holds items) (hfull : items.length = r.usable) (item : α) :
    r.pushOne? item = none := by
  unfold Ring.pushOne?
  rw [if_pos (h.isFull_iff.mpr hfull)]

/-- **The oldest item leaves first.** -/
theorem popOne (h : r.Holds (item :: items)) :
    ∃ r', r.popOne = (some item, r') ∧ r'.Holds items ∧ r'.usable = r.usable := by
  have htail := h.tail_lt
  have hlength := h.length_lt
  rw [List.length_cons] at hlength
  have hnotEmpty : ¬ r.isEmpty = true := by
    rw [h.isEmpty_iff]
    exact List.cons_ne_nil item items
  obtain ⟨r', hr'⟩ : ∃ r' : Ring α, r' = { r with
      slots := r.slots.setIfInBounds r.tail.toNat none
      tail := (r.tail + 1) &&& r.mask } := ⟨_, rfl⟩
  have hcapacity : r'.capacity = r.capacity := by
    rw [hr']
    exact Array.size_setIfInBounds
  have hnext : r'.tail.toNat = place r.capacity r.tail.toNat 1 := by
    rw [hr']
    exact h.toNat_next r.tail
  have hplace : place r.capacity r.tail.toNat 0 = r.tail.toNat := by
    rw [place_eq htail (by omega), if_pos (by omega)]
    rfl
  have hfirst : r.slots[r.tail.toNat]? = some (some item) := by
    have := h.slot_eq 0 (Nat.zero_lt_succ _)
    rw [hplace] at this
    exact this
  refine ⟨r', ?_, ⟨⟨?_, ?_, ?_⟩, ?_, ?_, ?_⟩, ?_⟩
  · unfold Ring.popOne
    rw [if_neg hnotEmpty, hfirst, hr']
    rfl
  · rw [hcapacity]
    exact h.capacity_eq
  · rw [hcapacity, hr']
    exact h.mask_eq
  · rw [hcapacity, hnext]
    exact place_lt (by omega)
  · rw [hcapacity, hnext, place_place, hr']
    exact h.head_eq
  · rw [hcapacity]
    omega
  · intro j hj
    rw [hcapacity, hnext, place_place, hr']
    show (r.slots.setIfInBounds r.tail.toNat none)[_]? = _
    have hne : r.tail.toNat ≠ place r.capacity r.tail.toNat (j + 1) := by
      intro heq
      have := place_inj htail (by omega) (by omega) (hplace.trans heq)
      omega
    rw [Array.getElem?_setIfInBounds_ne hne]
    exact h.slot_eq (j + 1) (by rw [List.length_cons]; omega)
  · unfold usable
    rw [hcapacity]

theorem popOne_of_nil (h : r.Holds []) : r.popOne = (none, r) := by
  unfold Ring.popOne
  rw [if_pos (h.isEmpty_iff.mpr rfl)]

/-! ## Batches -/

/-- Pushing one by one, with so much room. The induction is on the batch; every item that goes in takes
one of the room. -/
theorem pushFrom {room : Nat} (h : r.Holds items) (hroom : items.length + room = r.usable)
    (pushed : Nat) (batch : List α) :
    ∃ r', r.pushFrom pushed batch =
        (if batch.length ≤ room then .ok (pushed + batch.length)
          else .error (.full (pushed + room)), r') ∧
      r'.Holds (items ++ batch.take room) ∧ r'.usable = r.usable := by
  induction batch generalizing r items pushed room with
  | nil =>
    refine ⟨r, ?_, ?_, rfl⟩
    · rw [Ring.pushFrom, List.length_nil, if_pos (Nat.zero_le room)]
      rfl
    · rw [List.take_nil, List.append_nil]
      exact h
  | cons item rest ih =>
    unfold Ring.pushFrom
    cases room with
    | zero =>
      refine ⟨r, ?_, ?_, rfl⟩
      · rw [h.pushOne?_of_full hroom, if_neg (by simp)]
        rfl
      · rw [List.take_zero, List.append_nil]
        exact h
    | succ room =>
      obtain ⟨r₁, hpush, hholds₁, husable₁⟩ := h.pushOne? (by omega) item
      have hroom₁ : (items ++ [item]).length + room = r₁.usable := by
        rw [List.length_append, List.length_singleton, husable₁]
        omega
      obtain ⟨r₂, hrest, hholds₂, husable₂⟩ := ih hholds₁ hroom₁ (pushed + 1)
      refine ⟨r₂, ?_, ?_, husable₂.trans husable₁⟩
      · simp only [hpush, hrest, List.length_cons, Nat.add_le_add_iff_right]
        rw [Nat.add_assoc, Nat.add_comm 1, Nat.add_assoc, Nat.add_comm 1]
      · rw [List.take_succ_cons]
        rw [List.append_assoc] at hholds₂
        exact hholds₂

/-- **A push takes the longest prefix that fits**, and says how long it is. -/
theorem push (h : r.Holds items) (batch : List α) :
    ∃ r', r.push batch =
        (if batch.length ≤ r.usable - items.length then .ok batch.length
          else .error (.full (r.usable - items.length)), r') ∧
      r'.Holds (items ++ batch.take (r.usable - items.length)) ∧ r'.usable = r.usable := by
  have hroom : items.length + (r.usable - items.length) = r.usable := by
    have := h.length_lt
    unfold usable
    omega
  have hpush := h.pushFrom hroom 0 batch
  rw [Nat.zero_add, Nat.zero_add] at hpush
  exact hpush

/-- A ring holds afterwards what a push says it moved. -/
theorem push_moved (h : r.Holds items) (batch : List α) :
    (r.push batch).2.Holds (items ++ batch.take (r.push batch).1.moved) := by
  obtain ⟨r', hpush, hholds, -⟩ := h.push batch
  rw [hpush]
  split
  next hfits =>
    rw [List.take_of_length_le hfits] at hholds
    show r'.Holds (items ++ batch.take batch.length)
    rw [List.take_length]
    exact hholds
  next => exact hholds

/-- **A pop takes items from the front**, as many as there are, and says how many. -/
theorem popFrom (h : r.Holds items) (popped n : Nat) :
    ∃ r', r.popFrom popped n =
        (if n ≤ items.length then .ok (popped + n) else .error (.empty (popped + items.length)),
          items.take n, r') ∧
      r'.Holds (items.drop n) ∧ r'.usable = r.usable := by
  induction n generalizing r items popped with
  | zero =>
    refine ⟨r, ?_, h, rfl⟩
    rw [Ring.popFrom, if_pos (Nat.zero_le _), List.take_zero]
    rfl
  | succ n ih =>
    unfold Ring.popFrom
    cases items with
    | nil =>
      refine ⟨r, ?_, h, rfl⟩
      rw [h.popOne_of_nil, if_neg (by simp)]
      rfl
    | cons item rest =>
      obtain ⟨r₁, hpop, hholds₁, husable₁⟩ := h.popOne
      obtain ⟨r₂, hrest, hholds₂, husable₂⟩ := ih hholds₁ (popped + 1)
      refine ⟨r₂, ?_, hholds₂, husable₂.trans husable₁⟩
      simp only [hpop, hrest, List.length_cons, Nat.add_le_add_iff_right, List.take_succ_cons]
      rw [Nat.add_assoc, Nat.add_comm 1, Nat.add_assoc, Nat.add_comm 1]

/-- **What is in a ring is what it holds.** -/
theorem toList_eq (h : r.Holds items) : r.toList = items := by
  obtain ⟨r', hpop, -, -⟩ := h.popFrom 0 items.length
  unfold toList drain pop
  rw [h.length_eq, hpop, List.take_length]

end Holds

end Ring

end FlagSidecar
