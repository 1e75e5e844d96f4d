import FlagSidecar.Proofs.Queue.FanIn
import FlagSidecar.Queue.Offers

/-!
# FlagSidecar.Proofs.Queue.Offers: a fan-in keeps a log of what it is offered

Whatever calls are made to a new fan-in, it holds under each tag the first items that were offered since
the last drain, as many as a ring can hold, and it answers accordingly. The overflow is dropped batch by
batch, and yet it is the end of everything offered that is missing: once the ring of a tag is full,
nothing more goes in until the next drain. The counters, which are changed apart from the queues, count
what was held and handed out and what was offered.

Main statement: `FanIn.refines_offer_log`.
-/

namespace FlagSidecar

/-! ## Rings -/

namespace Ring.Holds

variable {α : Type} {r : Ring α} {items : List α}

/-- A ring can hold afterwards what it could hold before. -/
theorem usable_push (h : r.Holds items) (batch : List α) : (r.push batch).2.usable = r.usable := by
  obtain ⟨r', hpush, -, husable⟩ := h.push batch
  rw [hpush]
  exact husable

/-- A ring is longer after a push by what the push moved. -/
theorem length_push (h : r.Holds items) (batch : List α) :
    (r.push batch).2.length = r.length + (r.push batch).1.moved := by
  have hlength := (h.push_moved batch).length_eq
  obtain ⟨r', hpush, -⟩ := h.push batch
  have hmoved : (r.push batch).1.moved ≤ batch.length := by
    rw [hpush]
    split
    · exact Nat.le_refl _
    next hfull => exact Nat.le_of_lt (Nat.not_le.mp hfull)
  rw [hlength, h.length_eq, List.length_append, List.length_take, Nat.min_eq_left hmoved]

end Ring.Holds

/-! ## Logs -/

namespace OfferLog

variable {κ α : Type} [DecidableEq κ] {log : OfferLog κ α}

theorem mem_foldl_addTag {tag : κ} {start more : List κ} :
    tag ∈ more.foldl addTag start ↔ tag ∈ start ∨ tag ∈ more := by
  induction more generalizing start with
  | nil => simp
  | cons t rest ih =>
    rw [List.foldl_cons, ih, addTag]
    split <;> grind

/-- The tags of a log are those of its batches. -/
theorem mem_tags {tag : κ} : tag ∈ log.tags ↔ tag ∈ log.offers.map Prod.fst := by
  unfold tags
  rw [mem_foldl_addTag]
  simp

theorem tags_push (log : OfferLog κ α) (tag : κ) (items : List α) :
    (log.after (.push tag items)).tags = addTag log.tags tag := by
  unfold tags after
  rw [List.map_append, List.foldl_append]
  rfl

theorem offered_push (log : OfferLog κ α) (tag other : κ) (items : List α) :
    (log.after (.push tag items)).offered other =
      if tag = other then log.offered other ++ items else log.offered other := by
  unfold offered after
  rw [List.filter_append, List.flatMap_append]
  split
  next htag => simp [htag]
  next htag => simp [htag]

/-- **What is held under the tag of a batch** is longer by as much of the batch as there is room for. -/
theorem held_push_self (log : OfferLog κ α) (tag : κ) (items : List α) :
    (log.after (.push tag items)).held tag = log.held tag ++ items.take (log.room tag) := by
  have hroom : log.room tag = log.limit - (log.offered tag).length := by
    unfold room held
    rw [List.length_take]
    omega
  rw [hroom]
  unfold held
  rw [offered_push, if_pos rfl]
  exact List.take_append

theorem held_push_of_ne {tag other : κ} (hne : tag ≠ other) (log : OfferLog κ α) (items : List α) :
    (log.after (.push tag items)).held other = log.held other := by
  unfold held
  rw [offered_push, if_neg hne]
  rfl

end OfferLog

namespace FanIn

/-! ## How many items there are -/

section

variable {κ α : Type} {queues : List (κ × Ring α)}

/-- Queues are handed out with all their items. -/
theorem total_contents (hholds : ∀ q ∈ queues, ∃ items, q.2.Holds items) :
    total (·.2.length) (contents queues) = total (·.2.length) queues := by
  induction queues with
  | nil => rfl
  | cons q rest ih =>
    obtain ⟨tag, ring⟩ := q
    obtain ⟨items, hitems⟩ := hholds _ List.mem_cons_self
    have hrest := ih fun p hp => hholds p (List.mem_cons_of_mem _ hp)
    have hlength : ring.toList.length = ring.length := by
      rw [hitems.toList_eq, hitems.length_eq]
    unfold contents at hrest ⊢
    rw [List.filterMap_cons, total, ← hrest, ← hlength]
    by_cases hnil : ring.toList = []
    · simp [hnil]
    · simp [hnil, total]

/-- A push adds as many items as it says. -/
theorem total_pushTo [DecidableEq κ] {fresh : Ring α} (hfresh : fresh.Holds [])
    (hholds : ∀ q ∈ queues, ∃ items, q.2.Holds items) (tag : κ) (batch : List α) :
    total (·.2.length) (pushTo fresh tag batch queues).2 =
      total (·.2.length) queues + (pushTo fresh tag batch queues).1.moved := by
  induction queues with
  | nil =>
    have hlength := hfresh.length_push batch
    rw [hfresh.length_eq] at hlength
    exact hlength
  | cons q rest ih =>
    obtain ⟨t, ring⟩ := q
    unfold pushTo
    split
    next =>
      obtain ⟨items, hitems⟩ := hholds _ List.mem_cons_self
      have hlength : (ring.push batch).2.length = _ := hitems.length_push batch
      simp only [total, hlength]
      omega
    next =>
      have hrest := ih fun p hp => hholds p (List.mem_cons_of_mem _ hp)
      simp only [total, hrest]
      omega

end

variable {κ α : Type} [DecidableEq κ] {f : FanIn κ α} {log : OfferLog κ α} {tag : κ}

/-- A push leaves the queues of other tags as they are, in their order. -/
theorem filter_pushTo (fresh : Ring α) (tag : κ) (items : List α) (queues : List (κ × Ring α)) :
    (pushTo fresh tag items queues).2.filter (·.1 ≠ tag) = queues.filter (·.1 ≠ tag) := by
  induction queues with
  | nil => simp [pushTo]
  | cons q rest ih =>
    obtain ⟨t, ring⟩ := q
    unfold pushTo
    split
    next ht => simp [ht]
    next ht => simp only [List.filter_cons, ih]

/-- The items of a fan-in are those under its tags. -/
theorem WellFormed.length_eq (h : f.WellFormed) :
    f.length = total (fun tag => (f.held tag).length) (f.queues.map Prod.fst) := by
  rw [total_map]
  refine total_congr ?_
  rintro ⟨tag, ring⟩ hq
  obtain ⟨items, hitems⟩ := h.holds _ hq
  replace hitems : ring.Holds items := hitems
  show ring.length = (f.held tag).length
  rw [h.held_of_mem hq, hitems.toList_eq, hitems.length_eq]

/-! ## A fan-in and its log -/

/-- **A fan-in follows a log**: it has queues for the tags of the log, and they hold what the log says. -/
structure Follows (f : FanIn κ α) (log : OfferLog κ α) : Prop where
  wellFormed : f.WellFormed
  fresh_eq : (Ring.forSize f.queueSize : Ring α).usable = log.limit
  usable_eq : ∀ q ∈ f.queues, q.2.usable = log.limit
  tags_eq : f.queues.map Prod.fst = log.tags
  held_eq : ∀ tag, f.held tag = log.held tag

namespace Follows

theorem new (size : UInt64) :
    (new size : FanIn κ α).Follows ⟨(Ring.forSize size : Ring α).usable, []⟩ where
  wellFormed := wellFormed_of_queues_eq_nil rfl
  fresh_eq := rfl
  usable_eq := by
    intro q hq
    cases hq
  tags_eq := rfl
  held_eq := by
    intro tag
    show [] = List.take _ []
    rw [List.take_nil]

/-- The ring that takes a batch can hold as much as any other. -/
theorem usable_target (h : f.Follows log) (tag : κ) :
    (target (.forSize f.queueSize) tag f.queues).usable = log.limit := by
  unfold target
  cases hfind : f.queues.find? (·.1 = tag) with
  | none => exact h.fresh_eq
  | some q => exact h.usable_eq q (List.mem_of_find?_eq_some hfind)

/-- **A push says how much of the batch there was room for.** -/
theorem push_result (h : f.Follows log) (tag : κ) (items : List α) :
    (f.push tag items).1 =
      if items.length ≤ log.room tag then .ok items.length else .error (.full (log.room tag)) := by
  obtain ⟨hresult, -⟩ := pushTo_self (.forSize f.queueSize) items f.queues tag
  obtain ⟨r', hpush, -⟩ := (h.wellFormed.holds_target tag).push items
  rw [h.usable_target, h.held_eq] at hpush
  show (pushTo _ tag items f.queues).1 = _
  rw [hresult, hpush]
  rfl

theorem take_moved (h : f.Follows log) (tag : κ) (items : List α) :
    items.take (f.push tag items).1.moved = items.take (log.room tag) := by
  rw [h.push_result]
  split
  next hfits =>
    rw [List.take_of_length_le hfits]
    exact List.take_length
  next => rfl

theorem push (h : f.Follows log) (tag : κ) (items : List α) :
    (f.push tag items).2.Follows (log.after (.push tag items)) where
  wellFormed := h.wellFormed.push tag items
  fresh_eq := h.fresh_eq
  usable_eq := by
    intro q hq
    rcases mem_of_mem_pushTo _ items f.queues hq with hold | rfl
    · exact h.usable_eq q hold
    · exact ((h.wellFormed.holds_target tag).usable_push items).trans (h.usable_target tag)
  tags_eq := by
    show (pushTo _ tag items f.queues).2.map Prod.fst = _
    rw [map_fst_pushTo, OfferLog.tags_push, h.tags_eq]
    rfl
  held_eq := by
    intro other
    by_cases htag : tag = other
    · subst htag
      rw [h.wellFormed.held_push, h.take_moved, OfferLog.held_push_self, h.held_eq]
    · rw [held_push_of_ne htag, OfferLog.held_push_of_ne htag, h.held_eq]

theorem clear (h : f.Follows log) :
    ({ f with queues := [] } : FanIn κ α).Follows { log with offers := [] } where
  wellFormed := wellFormed_of_queues_eq_nil rfl
  fresh_eq := h.fresh_eq
  usable_eq := by
    intro q hq
    cases hq
  tags_eq := rfl
  held_eq := by
    intro tag
    show [] = List.take _ []
    rw [List.take_nil]

/-- **After each call the fan-in follows the log after that call.** -/
theorem call (h : f.Follows log) (c : Call κ α) : (f.call c).2.Follows (log.after c) := by
  cases c with
  | push tag items => exact h.push tag items
  | drainAll => exact h.clear
  | detach => exact h.clear
  | length => exact h
  | isEmpty => exact h
  | tagCount => exact h
  | stats => exact h

theorem length_eq (h : f.Follows log) : f.length = log.length := by
  rw [h.wellFormed.length_eq, h.tags_eq]
  exact total_congr fun tag _ => congrArg List.length (h.held_eq tag)

theorem length_push (h : f.Follows log) (tag : κ) (items : List α) :
    (f.push tag items).2.length = f.length + (f.push tag items).1.moved :=
  total_pushTo (Ring.holds_withSlots _) h.wellFormed.holds tag items

end Follows

/-! ## Counters -/

/-- **The counters are right** when so many items have been offered and handed out. -/
structure Counts (f : FanIn κ α) (offered handed : Nat) : Prop where
  queued_eq : f.stats.queued = (f.length + handed).toUInt64
  offered_eq : f.stats.queued + f.stats.dropped = offered.toUInt64

/-- What is not counted as queued is counted as dropped. -/
theorem Follows.stats_push (h : f.Follows log) (tag : κ) (items : List α) :
    (f.push tag items).2.stats.queued = f.stats.queued + (f.push tag items).1.moved.toUInt64 ∧
      (f.push tag items).2.stats.queued + (f.push tag items).2.stats.dropped =
        f.stats.queued + f.stats.dropped + items.length.toUInt64 := by
  have hstats : (f.push tag items).2.stats = count f.stats items.length (f.push tag items).1 := rfl
  rw [hstats, h.push_result]
  split
  next hfits =>
    refine ⟨rfl, ?_⟩
    show f.stats.queued + items.length.toUInt64 + f.stats.dropped = _
    rw [UInt64.add_assoc, UInt64.add_comm items.length.toUInt64, ← UInt64.add_assoc]
  next hfull =>
    refine ⟨rfl, ?_⟩
    have hsum : items.length = log.room tag + (items.length - log.room tag) := by omega
    calc
      f.stats.queued + (log.room tag).toUInt64 +
          (f.stats.dropped + (items.length - log.room tag).toUInt64)
        = f.stats.queued + f.stats.dropped +
            ((log.room tag).toUInt64 + (items.length - log.room tag).toUInt64) := by
          ac_rfl
      _ = f.stats.queued + f.stats.dropped + items.length.toUInt64 := by
          rw [← UInt64.ofNat_add, ← hsum]

namespace Counts

variable {offered handed : Nat}

/-- **After each call the counters are right**, with what it offered and what it was handed. -/
theorem call (hf : f.Follows log) (h : f.Counts offered handed) (c : Call κ α) :
    (f.call c).2.Counts (offered + c.offered) (handed + (f.call c).1.handed) := by
  have hdrained : f.stats.queued = (0 + (handed + f.length)).toUInt64 := by
    rw [h.queued_eq, Nat.zero_add, Nat.add_comm]
  cases c with
  | push tag items =>
    obtain ⟨hqueued, hoffered⟩ := hf.stats_push tag items
    refine ⟨?_, ?_⟩
    · show (f.push tag items).2.stats.queued = ((f.push tag items).2.length + handed).toUInt64
      rw [hqueued, h.queued_eq, ← UInt64.ofNat_add, hf.length_push]
      congr 1
      omega
    · show (f.push tag items).2.stats.queued + (f.push tag items).2.stats.dropped =
        (offered + items.length).toUInt64
      rw [hoffered, h.offered_eq, ← UInt64.ofNat_add]
  | drainAll =>
    have htotal : total (·.2.length) (contents f.queues) = f.length :=
      total_contents hf.wellFormed.holds
    refine ⟨?_, h.offered_eq⟩
    show f.stats.queued = (0 + (handed + total (·.2.length) (contents f.queues))).toUInt64
    rw [htotal, hdrained]
  | detach =>
    have htotal : total (·.2.toList.length) f.queues = f.length := by
      refine total_congr fun q hq => ?_
      obtain ⟨items, hitems⟩ := hf.wellFormed.holds q hq
      rw [hitems.toList_eq, hitems.length_eq]
    refine ⟨?_, h.offered_eq⟩
    show f.stats.queued = (0 + (handed + total (·.2.toList.length) f.queues)).toUInt64
    rw [htotal, hdrained]
  | length => exact h
  | isEmpty => exact h
  | tagCount => exact h
  | stats => exact h

end Counts

/-! ## Whole runs -/

theorem runCalls_follows {offered handed : Nat} (hf : f.Follows log) (hc : f.Counts offered handed)
    (calls : List (Call κ α)) :
    (runCalls call calls f).2.Follows (calls.foldl OfferLog.after log) ∧
      (runCalls call calls f).2.Counts (offered + total Call.offered calls)
        (handed + total Answer.handed (runCalls call calls f).1) := by
  induction calls generalizing f log offered handed with
  | nil => exact ⟨hf, hc⟩
  | cons c rest ih =>
    obtain ⟨hfollows, hcounts⟩ := ih (hf.call c) (hc.call hf c)
    refine ⟨hfollows, ?_⟩
    rw [Nat.add_assoc, Nat.add_assoc] at hcounts
    exact hcounts

/-- **A fan-in keeps a log**: it holds what the log says, and answers each call by it. -/
structure Keeps (f : FanIn κ α) (log : OfferLog κ α) : Prop where
  held : ∀ tag, f.held tag = log.held tag
  push : ∀ tag items, (f.call (.push tag items)).1 =
    .pushed (if items.length ≤ log.room tag then .ok items.length else .error (.full (log.room tag)))
  /-- A push changes nothing under other tags. -/
  others : ∀ tag items, (f.call (.push tag items)).2.queues.filter (·.1 ≠ tag) =
    f.queues.filter (·.1 ≠ tag)
  /-- A drain hands out each tag that holds something, once, with all of it, and leaves no tags. -/
  drainAll : ∃ contents, f.call .drainAll = (.drained contents, { f with queues := [] }) ∧
    (contents.map Prod.fst).Nodup ∧
    ∀ tag items, (tag, items) ∈ contents ↔ items = log.held tag ∧ items ≠ []
  /-- A detachment hands out the queue of each tag that was offered something, even an empty batch. -/
  detach : ∃ queues, f.call .detach = (.detached queues, { f with queues := [] }) ∧
    (queues.map Prod.fst).Nodup ∧
    (∀ tag, tag ∈ queues.map Prod.fst ↔ tag ∈ log.offers.map Prod.fst) ∧
    ∀ tag ring, (tag, ring) ∈ queues → ring.drain.1 = log.held tag
  length : f.call .length = (.length log.length, f)
  isEmpty : f.call .isEmpty = (.isEmpty (log.length == 0), f)
  tagCount : f.call .tagCount = (.tagCount log.tags.length, f)

theorem Follows.keeps (h : f.Follows log) : f.Keeps log where
  held := h.held_eq
  push := fun tag items => congrArg Answer.pushed (h.push_result tag items)
  others := fun tag items => filter_pushTo _ tag items f.queues
  drainAll := by
    refine ⟨f.drainAll.1, rfl, h.wellFormed.nodup_drainAll, ?_⟩
    intro tag items
    rw [h.wellFormed.mem_drainAll, h.held_eq]
  detach := by
    refine ⟨f.queues, rfl, h.wellFormed.nodup, ?_, ?_⟩
    · intro tag
      rw [h.tags_eq, OfferLog.mem_tags]
    · intro tag ring hq
      rw [← h.held_eq]
      exact (h.wellFormed.held_of_mem hq).symm
  length := congrArg (fun n => (Answer.length n, f)) h.length_eq
  isEmpty := by
    show (Answer.isEmpty (f.length == 0), f) = _
    rw [h.length_eq]
  tagCount := by
    show (Answer.tagCount f.queues.length, f) = _
    rw [← h.tags_eq, List.length_map]

/-- **A fan-in refines a log of offers.** After any calls to a new fan-in it keeps the log of what it was
offered; and its counters say how much it holds and has handed out, and how much it was offered. -/
theorem refines_offer_log (size : UInt64) (calls : List (Call κ α)) :
    let (answers, f) := runCalls call calls (new size)
    let log := calls.foldl OfferLog.after ⟨(Ring.forSize size : Ring α).usable, []⟩
    f.Keeps log ∧ ∃ stats, f.call .stats = (.stats stats, f) ∧
      stats.queued = (log.length + total Answer.handed answers).toUInt64 ∧
      stats.queued + stats.dropped = (total Call.offered calls).toUInt64 := by
  have hcounts : (new size : FanIn κ α).Counts 0 0 := ⟨rfl, rfl⟩
  obtain ⟨hfollows, hqueued, hoffered⟩ := runCalls_follows (.new size) hcounts calls
  rw [Nat.zero_add, hfollows.length_eq] at hqueued
  rw [Nat.zero_add] at hoffered
  exact ⟨hfollows.keeps, _, rfl, hqueued, hoffered⟩

/-- Two batches of one tag overflow its three slots together, and an empty batch makes a queue. -/
example :
    (runCalls call [.push 'a' [1, 2], .push 'a' [3, 4], .push 'b' [], .tagCount, .drainAll, .tagCount,
        .stats] (new 3 : FanIn Char Nat)).1 =
      [.pushed (.ok 2), .pushed (.error (.full 1)), .pushed (.ok 0), .tagCount 2,
        .drained [('a', [1, 2, 3])], .tagCount 0, .stats ⟨3, 1⟩] :=
  rfl

end FanIn

end FlagSidecar
