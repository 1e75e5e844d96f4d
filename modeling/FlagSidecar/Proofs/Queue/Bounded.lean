import FlagSidecar.Proofs.Queue.Ring
import FlagSidecar.Queue.Calls

/-!
# FlagSidecar.Proofs.Queue.Bounded: a ring is a list with a limit

Whatever calls are made to a new ring, it answers what a list with a limit answers, the limit being one
less than the slots. The relation that every call preserves is that the ring holds the items of the list
(`Ring.Holds`). Beside it stands what is known of the slots that hold nothing: in every state that calls
lead to, the occupied slots are those from `tail` on, around the end, up to `head` (`Ring.Shape`), so that
the two ends alone tell a full ring and an empty one.

Main statement: `Ring.runs_as_bounded_list`.
-/

namespace FlagSidecar

section

variable {σ τ χ ω : Type} {call : σ → χ → ω × σ} {call' : τ → χ → ω × τ}

/-- If each call has the same answer in related states and leaves related states, so does a run. -/
theorem runCalls_simulates {R : σ → τ → Prop}
    (hcall : ∀ s t c, R s t → (call s c).1 = (call' t c).1 ∧ R (call s c).2 (call' t c).2)
    (calls : List χ) {s : σ} {t : τ} (h : R s t) :
    (runCalls call calls s).1 = (runCalls call' calls t).1 ∧
      R (runCalls call calls s).2 (runCalls call' calls t).2 := by
  induction calls generalizing s t with
  | nil => exact ⟨rfl, h⟩
  | cons c rest ih =>
    obtain ⟨hanswer, hnext⟩ := hcall s t c h
    obtain ⟨hanswers, hlast⟩ := ih hnext
    refine ⟨?_, hlast⟩
    rw [runCalls_cons, runCalls_cons, hanswer, hanswers]

end

namespace Ring

/-! ## Indices between two ends -/

section

variable {capacity tail head i : Nat}

/-- `head` goes on by one, and does not run into `tail`: one more index is between them. -/
theorem between_head_next (htail : tail < capacity) (hhead : head < capacity) (hi : i < capacity)
    (hne : place capacity head 1 ≠ tail) :
    Between tail (place capacity head 1) i ↔ i = head ∨ Between tail head i := by
  have hnext := place_eq hhead (show 1 ≤ capacity by omega)
  generalize place capacity head 1 = next at hnext hne ⊢
  unfold Between
  split at hnext <;> split <;> split <;> omega

/-- `tail` goes on by one, and was not at `head`: it is not between them any more. -/
theorem between_tail_next (htail : tail < capacity) (hhead : head < capacity) (hi : i < capacity)
    (hne : head ≠ tail) :
    Between (place capacity tail 1) head i ↔ i ≠ tail ∧ Between tail head i := by
  have hnext := place_eq htail (show 1 ≤ capacity by omega)
  generalize place capacity tail 1 = next at hnext ⊢
  unfold Between
  split at hnext <;> split <;> split <;> omega

end

variable {α : Type} {r r' : Ring α} {items : List α} {item : α}

/-! ## The slots that are occupied -/

/-- **The shape of a ring**: the ends are slots, and the occupied slots are those between them. -/
structure Shape (r : Ring α) : Prop extends Sound r where
  head_lt : r.head.toNat < r.capacity
  occupied_iff : ∀ i < r.capacity,
    (∃ item, r.slots[i]? = some (some item)) ↔ Between r.tail.toNat r.head.toNat i

theorem shape_withSlots (slots : UInt64) : (withSlots slots : Ring α).Shape := by
  have hholds : (withSlots slots : Ring α).Holds [] := holds_withSlots slots
  refine ⟨hholds.toSound, ?_, ?_⟩
  · have htwo := hholds.two_le
    show 0 < _
    omega
  · intro i hi
    have hnone : (withSlots slots : Ring α).slots[i]? = some none := by
      unfold withSlots capacity at hi
      rw [Array.size_replicate] at hi
      unfold withSlots
      rw [Array.getElem?_replicate, if_pos hi]
    have hbetween : ¬ Between 0 0 i := by
      unfold Between
      rw [if_pos (Nat.le_refl 0)]
      omega
    rw [hnone]
    constructor
    · rintro ⟨item, hitem⟩
      cases hitem
    · intro hin
      exact absurd hin hbetween

namespace Shape

theorem isFull_iff (h : r.Shape) :
    r.isFull = true ↔ place r.capacity r.head.toNat 1 = r.tail.toNat := by
  unfold isFull
  rw [beq_iff_eq, ← UInt64.toNat_inj, h.toNat_next]

/-- Setting a slot leaves the number of slots as it is. -/
theorem capacity_set (r : Ring α) (i : Nat) (x : Option α) (head tail : UInt64) :
    capacity ⟨r.slots.setIfInBounds i x, head, tail, r.mask⟩ = r.capacity :=
  Array.size_setIfInBounds

/-- A ring that is not full takes an item, into the slot that `head` is. -/
theorem pushOne?_eq (h : r.Shape) (hroom : r.isFull = false) (item : α) :
    r.pushOne? item = some ⟨r.slots.setIfInBounds r.head.toNat (some item),
      (r.head + 1) &&& r.mask, r.tail, r.mask⟩ := by
  have hhead : r.head.toNat < r.slots.size := h.head_lt
  unfold Ring.pushOne?
  rw [hroom, if_neg Bool.false_ne_true, if_pos hhead]

/-- **A push occupies one slot more.** -/
theorem pushOne? (h : r.Shape) (hpush : r.pushOne? item = some r') : r'.Shape := by
  have hroom : r.isFull = false := by
    rw [Bool.eq_false_iff]
    intro hfull
    unfold Ring.pushOne? at hpush
    rw [if_pos hfull] at hpush
    cases hpush
  rw [h.pushOne?_eq hroom] at hpush
  cases hpush
  have hpos : 0 < r.capacity := Nat.zero_lt_of_lt h.tail_lt
  have hne : place r.capacity r.head.toNat 1 ≠ r.tail.toNat := by
    rw [Ne, ← h.isFull_iff, hroom]
    exact Bool.false_ne_true
  refine ⟨⟨?_, ?_, ?_⟩, ?_, ?_⟩
  · rw [capacity_set]
    exact h.capacity_eq
  · rw [capacity_set]
    exact h.mask_eq
  · rw [capacity_set]
    exact h.tail_lt
  · rw [capacity_set, h.toNat_next]
    exact place_lt hpos
  · intro i hi
    rw [capacity_set] at hi
    rw [h.toNat_next, between_head_next h.tail_lt h.head_lt hi hne, ← h.occupied_iff i hi,
      Array.getElem?_setIfInBounds]
    split
    next heq =>
      subst heq
      have hslot : r.head.toNat < r.slots.size := h.head_lt
      rw [if_pos hslot]
      exact iff_of_true ⟨item, rfl⟩ (.inl rfl)
    next hne =>
      constructor
      · exact .inr
      · rintro (heq | hold)
        · exact absurd heq.symm hne
        · exact hold

/-- **A pop frees one slot**, and leaves an empty ring as it is. -/
theorem popOne (h : r.Shape) : r.popOne.2.Shape := by
  unfold Ring.popOne
  split
  next => exact h
  next hitems =>
    have hpos : 0 < r.capacity := Nat.zero_lt_of_lt h.tail_lt
    have hne : r.head.toNat ≠ r.tail.toNat := by
      unfold isEmpty at hitems
      rw [beq_iff_eq, ← UInt64.toNat_inj] at hitems
      exact hitems
    refine ⟨⟨?_, ?_, ?_⟩, ?_, ?_⟩
    · rw [capacity_set]
      exact h.capacity_eq
    · rw [capacity_set]
      exact h.mask_eq
    · rw [capacity_set, h.toNat_next]
      exact place_lt hpos
    · rw [capacity_set]
      exact h.head_lt
    · intro i hi
      rw [capacity_set] at hi
      rw [h.toNat_next, between_tail_next h.tail_lt h.head_lt hi hne, ← h.occupied_iff i hi,
        Array.getElem?_setIfInBounds]
      split
      next heq =>
        subst heq
        have hslot : r.tail.toNat < r.slots.size := h.tail_lt
        rw [if_pos hslot]
        constructor
        · rintro ⟨item, hitem⟩
          cases hitem
        · rintro ⟨hself, -⟩
          exact absurd rfl hself
      next hne =>
        exact ⟨fun hold => ⟨fun heq => hne heq.symm, hold⟩, fun hold => hold.2⟩

theorem pushFrom (h : r.Shape) (pushed : Nat) (batch : List α) : (r.pushFrom pushed batch).2.Shape := by
  induction batch generalizing r pushed with
  | nil => exact h
  | cons item rest ih =>
    unfold Ring.pushFrom
    split
    next hpush => exact ih (h.pushOne? hpush) (pushed + 1)
    next => exact h

theorem popFrom (h : r.Shape) (popped n : Nat) : (r.popFrom popped n).2.2.Shape := by
  induction n generalizing r popped with
  | zero => exact h
  | succ n ih =>
    have hnext := h.popOne
    unfold Ring.popFrom
    split
    next hpop =>
      rw [hpop] at hnext
      exact ih hnext (popped + 1)
    next hpop =>
      rw [hpop] at hnext
      exact hnext

end Shape

/-! ## Calls -/

/-- Popping into a buffer is popping, with the items behind what the buffer held. -/
theorem popInto_eq (popped n : Nat) (out : List α) (r : Ring α) :
    r.popInto popped n out =
      ((r.popFrom popped n).1, out ++ (r.popFrom popped n).2.1, (r.popFrom popped n).2.2) := by
  induction n generalizing popped out r with
  | zero =>
    rw [popFrom, popInto, List.append_nil]
  | succ n ih =>
    rcases hpop : r.popOne with ⟨_ | item, r₁⟩
    · simp only [popInto, popFrom, hpop, List.append_nil]
    · simp only [popInto, popFrom, hpop, ih, List.append_assoc, List.singleton_append]

/-- Popping goes on until nothing comes. The induction is on the items that the ring holds. -/
theorem Holds.drains (h : r.Holds items) (popped : Nat) :
    r.Drains items (r.popFrom popped items.length).2.2 := by
  induction items generalizing r popped with
  | nil => exact .stop h.popOne_of_nil
  | cons item rest ih =>
    obtain ⟨r₁, hpop, hholds, -⟩ := h.popOne
    have hrest : (r.popFrom popped (item :: rest).length).2.2 =
        (r₁.popFrom (popped + 1) rest.length).2.2 := by
      rw [List.length_cons]
      simp only [Ring.popFrom, hpop]
    rw [hrest]
    exact .next hpop (ih hholds (popped + 1))

/-- **A ring of so many slots agrees with a list** when it holds the items of the list, and the limit of
the list is one less than the slots. -/
structure Agrees (capacity : Nat) (r : Ring α) (b : BoundedList α) : Prop extends Shape r where
  holds : r.Holds b.items
  usable_eq : r.usable = capacity - 1
  limit_eq : b.limit = capacity - 1

/-- **Each call is answered as the list answers it**, and ring and list agree afterwards. -/
theorem Agrees.call {capacity : Nat} {b : BoundedList α} (h : r.Agrees capacity b)
    (c : QueueCall α) :
    (r.call c).1 = (b.call c).1 ∧ (r.call c).2.Agrees capacity (b.call c).2 := by
  cases c with
  | push batch =>
    obtain ⟨r', hpush, hholds, husable⟩ := h.holds.push batch
    have hshape : (r.push batch).2.Shape := h.toShape.pushFrom 0 batch
    rw [h.usable_eq, ← h.limit_eq] at hpush hholds
    rw [hpush] at hshape
    simp only [Ring.call, BoundedList.call, hpush]
    exact ⟨rfl, hshape, hholds, husable.trans h.usable_eq, h.limit_eq⟩
  | pop count out =>
    obtain ⟨r', hpop, hholds, husable⟩ := h.holds.popFrom 0 count
    have hshape := h.toShape.popFrom 0 count
    rw [Nat.zero_add, Nat.zero_add] at hpop
    rw [hpop] at hshape
    simp only [Ring.call, BoundedList.call, popInto_eq, hpop]
    exact ⟨trivial, hshape, hholds, husable.trans h.usable_eq, h.limit_eq⟩
  | drain =>
    obtain ⟨r', hpop, hholds, husable⟩ := h.holds.popFrom 0 b.items.length
    have hshape := h.toShape.popFrom 0 b.items.length
    rw [List.take_length] at hpop
    rw [List.drop_length] at hholds
    rw [hpop] at hshape
    simp only [Ring.call, BoundedList.call, drain, pop, h.holds.length_eq, hpop]
    exact ⟨trivial, hshape, hholds, husable.trans h.usable_eq, h.limit_eq⟩
  | length => exact ⟨congrArg QueueAnswer.length h.holds.length_eq, h⟩
  | isEmpty =>
    refine ⟨congrArg QueueAnswer.isEmpty ?_, h⟩
    rw [Bool.eq_iff_iff, h.holds.isEmpty_iff, List.isEmpty_iff]

/-- What is known of a ring in whatever state calls have left it: its shape, what it holds, and that the
operations on single items fail only where they must. -/
structure Regular (capacity : Nat) (items : List α) (r : Ring α) : Prop extends Shape r where
  capacity_fixed : r.capacity = capacity
  toList_eq : r.toList = items
  isFull_iff : r.isFull = true ↔ r.length = capacity - 1
  takes : r.isFull = false → ∀ item, ∃ r', r.pushOne? item = some r'
  gives : r.isEmpty = false → ∃ item r', r.popOne = (some item, r')
  drains : r.Drains r.drain.1 r.drain.2

theorem Agrees.regular {capacity : Nat} {b : BoundedList α} (h : r.Agrees capacity b)
    (hcapacity : 2 ≤ capacity) : r.Regular capacity b.items where
  toShape := h.toShape
  capacity_fixed := by
    have htwo := h.two_le
    have husable := h.usable_eq
    unfold usable at husable
    omega
  toList_eq := h.holds.toList_eq
  isFull_iff := by
    rw [h.holds.isFull_iff, h.holds.length_eq, h.usable_eq]
  takes := fun hroom item => ⟨_, h.toShape.pushOne?_eq hroom item⟩
  gives := by
    intro hitems
    cases hb : b.items with
    | nil =>
      have hempty := h.holds.isEmpty_iff.mpr hb
      rw [hitems] at hempty
      cases hempty
    | cons item rest =>
      obtain ⟨r', hpop, -⟩ := (hb ▸ h.holds).popOne
      exact ⟨item, r', hpop⟩
  drains := by
    show r.Drains r.toList (r.popFrom 0 r.length).2.2
    rw [h.holds.toList_eq, h.holds.length_eq]
    exact h.holds.drains 0

/-- **A ring runs as a list with a limit**: whatever the calls, the answers are those of the list, and the
ring holds the items of the list afterwards. -/
structure RunsAsBoundedList (fresh : Ring α) : Prop where
  answers : ∀ calls, (runCalls call calls fresh).1 =
    (runCalls BoundedList.call calls (.empty (fresh.capacity - 1))).1
  regular : ∀ calls, (runCalls call calls fresh).2.Regular fresh.capacity
    (runCalls BoundedList.call calls (.empty (fresh.capacity - 1))).2.items

theorem runsAsBoundedList_withSlots (slots : UInt64) :
    (withSlots slots : Ring α).RunsAsBoundedList := by
  obtain ⟨fresh, hfresh⟩ : ∃ fresh : Ring α, fresh = withSlots slots := ⟨_, rfl⟩
  have hholds : fresh.Holds [] := hfresh ▸ holds_withSlots slots
  have hagrees : fresh.Agrees fresh.capacity (.empty (fresh.capacity - 1)) :=
    ⟨hfresh ▸ shape_withSlots slots, hholds, rfl, rfl⟩
  have hruns := fun calls => runCalls_simulates (fun _ _ c h => Agrees.call h c) calls hagrees
  rw [← hfresh]
  constructor
  · intro calls
    exact (hruns calls).1
  · intro calls
    exact (hruns calls).2.regular hholds.two_le

/-- **New rings run as lists with a limit**, whether they are made for a number of items or with a number
of slots. -/
theorem runs_as_bounded_list :
    (∀ size, (forSize size : Ring α).RunsAsBoundedList) ∧
      ∀ slots, (withSlots slots : Ring α).RunsAsBoundedList :=
  ⟨fun size => runsAsBoundedList_withSlots (Capacity.forSize size), runsAsBoundedList_withSlots⟩

/-- Three slots of four can be used, and the ends go around: the batch does not fit as a whole, and the
buffer keeps what it held. -/
example :
    (runCalls call [.push [1, 2], .pop 1 [0], .push [3, 4, 5], .pop 9 [0], .isEmpty]
        (withSlots 4 : Ring Nat)).1 =
      [.pushed (.ok 2), .popped (.ok 1) [0, 1], .pushed (.error (.full 2)),
        .popped (.error (.empty 3)) [0, 2, 3, 4], .isEmpty true] :=
  rfl

end Ring

end FlagSidecar
