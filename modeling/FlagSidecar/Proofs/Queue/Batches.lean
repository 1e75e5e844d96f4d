import FlagSidecar.Proofs.Queue.FanIn

/-!
# FlagSidecar.Proofs.Queue.Batches: a batch is its items one after the other

A push stops at the first item that does not fit, and a ring that has refused one item refuses every item
until something is taken out of it. So it makes no difference into which batches the items are cut: the
rings are the same afterwards, and so are the counters, where a batch that was cut short counts at once
what single items count one by one. Only the empty batch is not the same as no batch, because it creates a
queue.

Nothing is assumed of the rings and the counters: full rings and counters about to wrap are included.

Main statements: `FanIn.push_append`, `FanIn.push_eq_foldl` and `FanIn.push_result` (a push that was cut
short has moved fewer items than it was given).
-/

namespace FlagSidecar

/-! ## Rings -/

namespace Ring

variable {α : Type}

/-- A ring that refuses one item refuses every item. -/
theorem pushOne?_eq_none {r : Ring α} {item : α} (h : r.pushOne? item = none) (other : α) :
    r.pushOne? other = none := by
  unfold pushOne? at h ⊢
  split at h
  next hfull => rw [if_pos hfull]
  next hroom =>
    split at h
    next => cases h
    next hout => rw [if_neg hroom, if_neg hout]

/-- Nothing more goes into a ring that refuses. -/
theorem push_of_refusing {r : Ring α} (h : ∀ item, r.pushOne? item = none) (items : List α) :
    (r.push items).1.moved = 0 ∧ (r.push items).2 = r := by
  cases items with
  | nil => exact ⟨rfl, rfl⟩
  | cons item rest => simp [push, pushFrom, h item, QueueResult.moved]

/-- What was pushed before is only counted. -/
theorem pushFrom_eq (r : Ring α) (pushed : Nat) (items : List α) :
    (r.pushFrom pushed items).1.moved = pushed + (r.push items).1.moved ∧
      (r.pushFrom pushed items).2 = (r.push items).2 := by
  induction items generalizing r pushed with
  | nil => exact ⟨rfl, rfl⟩
  | cons item rest ih =>
    rw [push, pushFrom, pushFrom]
    cases r.pushOne? item with
    | none => exact ⟨rfl, rfl⟩
    | some next =>
      obtain ⟨hmoved, hring⟩ := ih next (pushed + 1)
      obtain ⟨hmoved', hring'⟩ := ih next (0 + 1)
      simp only
      rw [hmoved, hmoved', hring, hring']
      exact ⟨by omega, rfl⟩

/-- A push moves the whole batch, or it stops before the end at a ring that refuses every item. -/
theorem pushFrom_cases (r : Ring α) (pushed : Nat) (items : List α) :
    (r.pushFrom pushed items).1 = .ok (pushed + items.length) ∨
      ∃ moved, moved < items.length ∧ (r.pushFrom pushed items).1 = .error (.full (pushed + moved)) ∧
        ∀ item, (r.pushFrom pushed items).2.pushOne? item = none := by
  induction items generalizing r pushed with
  | nil => exact .inl rfl
  | cons item rest ih =>
    rw [pushFrom]
    cases hpush : r.pushOne? item with
    | none => exact .inr ⟨0, Nat.succ_pos _, rfl, pushOne?_eq_none hpush⟩
    | some next =>
      rcases ih next (pushed + 1) with hwhole | ⟨moved, hlt, hstopped, hrefuses⟩
      · exact .inl (hwhole.trans (by rw [List.length_cons, Nat.add_assoc, Nat.add_comm 1]))
      · refine .inr ⟨moved + 1, Nat.succ_lt_succ hlt, hstopped.trans ?_, hrefuses⟩
        rw [Nat.add_assoc, Nat.add_comm 1]

/-- Of two batches in one, the second goes on where the first ended, unless the first was stopped. -/
theorem pushFrom_append (r : Ring α) (pushed : Nat) (first second : List α) :
    r.pushFrom pushed (first ++ second) =
      match r.pushFrom pushed first with
      | (.ok n, r') => r'.pushFrom n second
      | (.error e, r') => (.error e, r') := by
  induction first generalizing r pushed with
  | nil => rfl
  | cons item rest ih =>
    rw [List.cons_append, pushFrom, pushFrom]
    cases r.pushOne? item with
    | none => rfl
    | some next => exact ih next (pushed + 1)

/-- **Two batches in one are the two batches one after the other.** -/
theorem push_append (r : Ring α) (first second : List α) :
    (r.push (first ++ second)).1.moved = (r.push first).1.moved + ((r.push first).2.push second).1.moved ∧
      (r.push (first ++ second)).2 = ((r.push first).2.push second).2 := by
  have happend := r.pushFrom_append 0 first second
  change r.push (first ++ second) = _ at happend
  rcases r.pushFrom_cases 0 first with hwhole | ⟨moved, -, hstopped, hrefuses⟩
  · -- the first batch went in whole, and its items are what was pushed before the second
    have hfirst : r.push first = (.ok (0 + first.length), (r.push first).2) := Prod.ext hwhole rfl
    rw [show r.pushFrom 0 first = _ from hfirst] at happend
    rw [happend, show (r.push first).1 = _ from hwhole]
    exact (r.push first).2.pushFrom_eq (0 + first.length) second
  · have hfirst : r.push first = (.error (.full (0 + moved)), (r.push first).2) := Prod.ext hstopped rfl
    rw [show r.pushFrom 0 first = _ from hfirst] at happend
    obtain ⟨hnone, hsame⟩ := push_of_refusing (r := (r.push first).2) hrefuses second
    rw [happend, hnone, hsame, Nat.add_zero, show (r.push first).1 = _ from hstopped]
    exact ⟨rfl, rfl⟩

end Ring

/-! ## Fan-ins -/

namespace FanIn

variable {κ α : Type} [DecidableEq κ]

/-- The ring that takes what is pushed under a tag. -/
def ring (f : FanIn κ α) (tag : κ) : Ring α := target (.forSize f.queueSize) tag f.queues

theorem fst_push (f : FanIn κ α) (tag : κ) (items : List α) :
    (f.push tag items).1 = ((f.ring tag).push items).1 :=
  (pushTo_self _ items f.queues tag).1

/-- The next push under the tag goes to what a push has left. -/
theorem ring_push (f : FanIn κ α) (tag : κ) (items : List α) :
    (f.push tag items).2.ring tag = ((f.ring tag).push items).2 := by
  have hfind : (f.push tag items).2.queues.find? (·.1 = tag) = some (tag, ((f.ring tag).push items).2) :=
    (pushTo_self _ items f.queues tag).2
  unfold ring at hfind ⊢
  conv_lhs => unfold target
  rw [hfind]
  rfl

/-- **A push moves the whole batch, or fewer items than it was given.** -/
theorem push_result (f : FanIn κ α) (tag : κ) (items : List α) :
    (f.push tag items).1 = .ok items.length ∨
      ∃ moved, moved < items.length ∧ (f.push tag items).1 = .error (.full moved) := by
  rw [fst_push]
  rcases (f.ring tag).pushFrom_cases 0 items with hwhole | ⟨moved, hlt, hstopped, -⟩
  · rw [Nat.zero_add] at hwhole
    exact .inl hwhole
  · rw [Nat.zero_add] at hstopped
    exact .inr ⟨moved, hlt, hstopped⟩

/-- A push counts what it moved as queued and the rest as dropped. -/
theorem stats_push (f : FanIn κ α) (tag : κ) (items : List α) :
    (f.push tag items).1.moved ≤ items.length ∧
      (f.push tag items).2.stats =
        ⟨f.stats.queued + (f.push tag items).1.moved.toUInt64,
          f.stats.dropped + (items.length - (f.push tag items).1.moved).toUInt64⟩ := by
  have hstats : (f.push tag items).2.stats = count f.stats items.length (f.push tag items).1 := rfl
  rw [hstats]
  rcases f.push_result tag items with hwhole | ⟨moved, hlt, hstopped⟩
  · rw [hwhole]
    refine ⟨Nat.le_refl _, ?_⟩
    simp [count, QueueResult.moved, QueueStats.recordQueued]
  · rw [hstopped]
    exact ⟨Nat.le_of_lt hlt, rfl⟩

theorem pushTo_append (fresh : Ring α) (tag : κ) (first second : List α) (queues : List (κ × Ring α)) :
    (pushTo fresh tag (first ++ second) queues).2 =
      (pushTo fresh tag second (pushTo fresh tag first queues).2).2 := by
  induction queues with
  | nil => simp only [pushTo, if_true, (fresh.push_append first second).2]
  | cons q rest ih =>
    obtain ⟨t, ring⟩ := q
    by_cases ht : t = tag
    · simp only [pushTo, if_pos ht, (ring.push_append first second).2]
    · simp only [pushTo, if_neg ht, ih]

/-- **Two batches in one are the two batches one after the other**, to the queues and the counters. -/
theorem push_append (f : FanIn κ α) (tag : κ) (first second : List α) :
    (f.push tag (first ++ second)).2 = ((f.push tag first).2.push tag second).2 := by
  have hmoved : (f.push tag (first ++ second)).1.moved =
      (f.push tag first).1.moved + ((f.push tag first).2.push tag second).1.moved := by
    rw [fst_push, fst_push, fst_push, ring_push]
    exact ((f.ring tag).push_append first second).1
  obtain ⟨hle, hfirst⟩ := f.stats_push tag first
  obtain ⟨hle', hsecond⟩ := (f.push tag first).2.stats_push tag second
  have hstats : (f.push tag (first ++ second)).2.stats = ((f.push tag first).2.push tag second).2.stats := by
    have hdropped : (first ++ second).length - (f.push tag (first ++ second)).1.moved =
        first.length - (f.push tag first).1.moved +
          (second.length - ((f.push tag first).2.push tag second).1.moved) := by
      rw [hmoved, List.length_append]
      omega
    rw [(f.stats_push tag (first ++ second)).2, hdropped, hmoved, hsecond, hfirst]
    simp only [QueueStats.mk.injEq, UInt64.add_assoc]
    exact ⟨congrArg _ (UInt64.ofNat_add _ _), congrArg _ (UInt64.ofNat_add _ _)⟩
  show FanIn.mk f.queueSize _ _ = FanIn.mk f.queueSize _ _
  exact congr (congrArg (FanIn.mk f.queueSize) (pushTo_append _ tag first second f.queues)) hstats

/-- **A batch is its items one after the other**, unless it is empty. -/
theorem push_eq_foldl (f : FanIn κ α) (tag : κ) {items : List α} (hne : items ≠ []) :
    (f.push tag items).2 = items.foldl (fun f item => (f.push tag [item]).2) f := by
  obtain ⟨item, rest, rfl⟩ := List.exists_cons_of_ne_nil hne
  clear hne
  -- what has been pushed already is one item at least
  induction rest generalizing f item with
  | nil => rfl
  | cons next rest ih =>
    rw [List.foldl_cons, ← ih]
    exact f.push_append tag [item] (next :: rest)

end FanIn

end FlagSidecar
