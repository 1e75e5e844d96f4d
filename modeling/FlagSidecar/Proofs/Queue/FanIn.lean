import FlagSidecar.Proofs.Queue.Ring
import FlagSidecar.Queue.FanIn

/-!
# FlagSidecar.Proofs.Queue.FanIn: what a fan-in holds under a tag

A fan-in is well formed when no tag has two queues and every queue is a ring that holds some items. Then
what it holds is one list for each tag: a push makes the list of its tag longer by what was accepted and
leaves the others alone, and a detachment hands out every list that is not empty, each once.

Main statements: `FanIn.WellFormed.held_push`, `FanIn.held_push_of_ne`, `FanIn.WellFormed.mem_drainAll`,
`FanIn.WellFormed.nodup_drainAll`.
-/

namespace FlagSidecar

namespace FanIn

/-! ## Where a push goes -/

section

variable {κ α : Type} [DecidableEq κ]

/-- The ring that takes what is pushed under a tag: the tag's own, or a fresh one. -/
def target (fresh : Ring α) (tag : κ) (queues : List (κ × Ring α)) : Ring α :=
  ((queues.find? (·.1 = tag)).map (·.2)).getD fresh

variable (fresh : Ring α) (items : List α) (queues : List (κ × Ring α))

/-- A push answers what its ring answers, and its ring is found under its tag afterwards. -/
theorem pushTo_self (tag : κ) :
    (pushTo fresh tag items queues).1 = ((target fresh tag queues).push items).1 ∧
      (pushTo fresh tag items queues).2.find? (·.1 = tag) =
        some (tag, ((target fresh tag queues).push items).2) := by
  induction queues with
  | nil => simp [pushTo, target]
  | cons q rest ih =>
    obtain ⟨t, ring⟩ := q
    by_cases ht : t = tag
    · simp [pushTo, target, ht]
    · have htarget : target fresh tag ((t, ring) :: rest) = target fresh tag rest := by
        simp [target, ht]
      unfold pushTo
      rw [if_neg ht, htarget]
      refine ⟨ih.1, ?_⟩
      simp only [ht, decide_false, List.find?_cons]
      exact ih.2

theorem find?_pushTo_of_ne {tag other : κ} (hne : tag ≠ other) :
    (pushTo fresh tag items queues).2.find? (·.1 = other) = queues.find? (·.1 = other) := by
  induction queues with
  | nil => simp [pushTo, hne]
  | cons q rest ih =>
    obtain ⟨t, ring⟩ := q
    by_cases ht : t = tag
    · simp [pushTo, ht, hne]
    · -- the search for the tag goes on behind the first queue, whosever that is
      unfold pushTo
      rw [if_neg ht]
      by_cases hother : t = other
      · simp [hother]
      · simp [hother, ih]

/-- Only the queue of the tag is new after a push. -/
theorem mem_of_mem_pushTo {tag : κ} {q : κ × Ring α}
    (hq : q ∈ (pushTo fresh tag items queues).2) :
    q ∈ queues ∨ q = (tag, ((target fresh tag queues).push items).2) := by
  induction queues with
  | nil => exact .inr (List.mem_singleton.mp hq)
  | cons p rest ih =>
    obtain ⟨t, ring⟩ := p
    unfold pushTo at hq
    by_cases ht : t = tag
    · rw [if_pos ht] at hq
      rcases List.mem_cons.mp hq with rfl | hrest
      · right
        simp [target, ht]
      · exact .inl (List.mem_cons_of_mem _ hrest)
    · rw [if_neg ht] at hq
      have htarget : target fresh tag ((t, ring) :: rest) = target fresh tag rest := by
        simp [target, ht]
      rw [htarget]
      rcases List.mem_cons.mp hq with rfl | hrest
      · exact .inl List.mem_cons_self
      · rcases ih hrest with hold | hnew
        · exact .inl (List.mem_cons_of_mem _ hold)
        · exact .inr hnew

/-- A push adds its tag at the end if it is new. -/
theorem map_fst_pushTo (tag : κ) :
    (pushTo fresh tag items queues).2.map Prod.fst =
      if tag ∈ queues.map Prod.fst then queues.map Prod.fst else queues.map Prod.fst ++ [tag] := by
  induction queues with
  | nil => rfl
  | cons q rest ih =>
    obtain ⟨t, ring⟩ := q
    unfold pushTo
    by_cases ht : t = tag
    · simp [ht]
    · have hother : ¬ tag = t := fun h => ht h.symm
      simp only [if_neg ht, List.map_cons, ih, List.mem_cons, hother, false_or]
      split <;> rfl

end

/-! ## Well-formed fan-ins -/

section

variable {κ α : Type} {f : FanIn κ α}

/-- Every tag has one queue at most, and every queue holds a list of items. -/
structure WellFormed (f : FanIn κ α) : Prop where
  nodup : (f.queues.map Prod.fst).Nodup
  holds : ∀ q ∈ f.queues, ∃ items, q.2.Holds items

theorem wellFormed_of_queues_eq_nil (h : f.queues = []) : f.WellFormed where
  nodup := by
    rw [h]
    exact List.nodup_nil
  holds := by
    rw [h]
    intro q hq
    cases hq

/-- A detachment hands out the queues with their items, but for those that have none. -/
theorem mem_contents {queues : List (κ × Ring α)} {tag : κ} {items : List α} :
    (tag, items) ∈ contents queues ↔
      ∃ ring, (tag, ring) ∈ queues ∧ ring.toList = items ∧ items ≠ [] := by
  unfold contents
  rw [List.mem_filterMap]
  constructor
  · rintro ⟨⟨t, ring⟩, hq, hsome⟩
    by_cases hempty : ring.toList = []
    · simp [hempty] at hsome
    · simp only [List.isEmpty_iff, hempty, if_false, Option.some.injEq, Prod.mk.injEq] at hsome
      obtain ⟨rfl, rfl⟩ := hsome
      exact ⟨ring, hq, rfl, hempty⟩
  · rintro ⟨ring, hq, rfl, hne⟩
    exact ⟨(tag, ring), hq, by simp [hne]⟩

theorem map_fst_contents_sublist (queues : List (κ × Ring α)) :
    ((contents queues).map Prod.fst).Sublist (queues.map Prod.fst) := by
  induction queues with
  | nil => exact List.Sublist.slnil
  | cons q rest ih =>
    obtain ⟨t, ring⟩ := q
    unfold contents at ih ⊢
    rw [List.filterMap_cons]
    split
    next => exact ih.cons t
    next hsome =>
      -- a queue that is handed out keeps its tag
      simp only [Option.ite_none_left_eq_some] at hsome
      obtain ⟨-, hsome⟩ := hsome
      cases hsome
      exact ih.cons_cons t

/-- **No tag is handed out twice.** -/
theorem WellFormed.nodup_drainAll (h : f.WellFormed) : (f.drainAll.1.map Prod.fst).Nodup :=
  h.nodup.sublist (map_fst_contents_sublist f.queues)

end

variable {κ α : Type} [DecidableEq κ] {f : FanIn κ α} {tag other : κ}

theorem held_new (queueSize : UInt64) (tag : κ) : (new queueSize : FanIn κ α).held tag = [] := rfl

/-- Where no tag has two queues, a queue is found by its tag. -/
theorem find?_eq_of_mem {queues : List (κ × Ring α)} (hnodup : (queues.map Prod.fst).Nodup)
    {ring : Ring α} (hmem : (tag, ring) ∈ queues) :
    queues.find? (·.1 = tag) = some (tag, ring) := by
  induction queues with
  | nil => cases hmem
  | cons q rest ih =>
    obtain ⟨t, ring'⟩ := q
    rw [List.map_cons, List.nodup_cons] at hnodup
    rcases List.mem_cons.mp hmem with heq | hrest
    · cases heq
      simp
    · have hne : t ≠ tag := by
        rintro rfl
        exact hnodup.1 (List.mem_map.mpr ⟨_, hrest, rfl⟩)
      rw [List.find?_cons_of_neg (by simpa using hne)]
      exact ih hnodup.2 hrest

/-- What is pushed under a tag goes to a ring that holds what is held under the tag. -/
theorem WellFormed.holds_target (h : f.WellFormed) (tag : κ) :
    (target (.forSize f.queueSize) tag f.queues).Holds (f.held tag) := by
  unfold target held
  cases hfind : f.queues.find? (·.1 = tag) with
  | none => exact Ring.holds_withSlots _
  | some q =>
    obtain ⟨items, hholds⟩ := h.holds q (List.mem_of_find?_eq_some hfind)
    show q.2.Holds q.2.toList
    rw [hholds.toList_eq]
    exact hholds

/-! ## Pushes -/

/-- A push leaves the queues of other tags as they are. -/
theorem find?_push_of_ne (hne : tag ≠ other) (f : FanIn κ α) (items : List α) :
    (f.push tag items).2.queues.find? (·.1 = other) = f.queues.find? (·.1 = other) :=
  find?_pushTo_of_ne _ items f.queues hne

theorem held_push_of_ne (hne : tag ≠ other) (f : FanIn κ α) (items : List α) :
    (f.push tag items).2.held other = f.held other := by
  unfold held
  rw [find?_push_of_ne hne]

namespace WellFormed

theorem push (h : f.WellFormed) (tag : κ) (items : List α) : (f.push tag items).2.WellFormed where
  nodup := by
    show ((pushTo _ tag items f.queues).2.map Prod.fst).Nodup
    rw [map_fst_pushTo]
    split
    next => exact h.nodup
    next hnew =>
      apply List.nodup_append.mpr
      refine ⟨h.nodup, List.pairwise_singleton _ tag, ?_⟩
      intro t ht t' ht' heq
      rw [List.mem_singleton.mp ht'] at heq
      exact hnew (heq ▸ ht)
  holds := by
    intro q hq
    rcases mem_of_mem_pushTo _ items f.queues hq with hold | rfl
    · exact h.holds q hold
    · exact ⟨_, (h.holds_target tag).push_moved items⟩

/-- **A push makes the list of its tag longer by what it says it accepted.** -/
theorem held_push (h : f.WellFormed) (tag : κ) (items : List α) :
    (f.push tag items).2.held tag = f.held tag ++ items.take (f.push tag items).1.moved := by
  obtain ⟨hresult, hfind⟩ := pushTo_self (.forSize f.queueSize) items f.queues tag
  have hholds := (h.holds_target tag).push_moved items
  rw [← hresult] at hholds
  replace hfind : (f.push tag items).2.queues.find? (·.1 = tag) = _ := hfind
  unfold held at hholds ⊢
  rw [hfind]
  exact hholds.toList_eq

/-! ## Detachments -/

/-- A queue under its tag is what is held under the tag. -/
theorem held_of_mem (h : f.WellFormed) {ring : Ring α} (hq : (tag, ring) ∈ f.queues) :
    f.held tag = ring.toList := by
  unfold held
  rw [find?_eq_of_mem h.nodup hq]

/-- **A detachment hands out every list that is not empty**, and nothing else. -/
theorem mem_drainAll (h : f.WellFormed) {items : List α} :
    (tag, items) ∈ f.drainAll.1 ↔ items = f.held tag ∧ items ≠ [] := by
  show (tag, items) ∈ contents f.queues ↔ _
  rw [mem_contents]
  constructor
  · rintro ⟨ring, hq, rfl, hne⟩
    exact ⟨(h.held_of_mem hq).symm, hne⟩
  · rintro ⟨rfl, hne⟩
    -- what is held under a tag is not empty, so the tag has a queue
    unfold held at hne ⊢
    cases hfind : f.queues.find? (·.1 = tag) with
    | none =>
      rw [hfind] at hne
      exact absurd rfl hne
    | some q =>
      obtain ⟨t, ring⟩ := q
      have ht : t = tag := by simpa using List.find?_some hfind
      subst ht
      rw [hfind] at hne
      exact ⟨ring, List.mem_of_find?_eq_some hfind, rfl, hne⟩

end WellFormed

end FanIn

end FlagSidecar
