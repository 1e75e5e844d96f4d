import FlagSidecar.Proofs.Queue.History
import FlagSidecar.Queue.Threads
import Mathlib.Algebra.BigOperators.Group.Finset.Basic
import Mathlib.Data.Fintype.Basic

/-!
# FlagSidecar.Proofs.Queue.Threads: threads that share a fan-in lose and repeat nothing

However the steps of threads are interleaved, they come to what the calls come to when each is made at
once, in the order in which the batches were appended and the queues detached. A push that misses its queue
may find, once it has the lock again, that another thread has made the queue, or has detached it; it then
appends as a push does that is made at that moment, and nothing that it saw before matters.

The queues are at every moment those of the sequential run. The counters lag behind by what some threads
have still to count. Of what drains have taken, some queues are not emptied yet, and what is in them counts
for the answer that the drain will give (`Thread.promised`).

Main statements: `FanIn.Threads.run_mirrors`, `FanIn.Threads.run_settled`, `FanIn.Threads.exists_finished`.
-/

namespace FlagSidecar

/-! ## Counters add up -/

namespace QueueStats

instance : Add QueueStats := ⟨fun a b => ⟨a.queued + b.queued, a.dropped + b.dropped⟩⟩

instance : Zero QueueStats := ⟨{}⟩

instance : AddCommMonoid QueueStats where
  add_assoc a b c := congrArg₂ mk (UInt64.add_assoc ..) (UInt64.add_assoc ..)
  zero_add a := congrArg₂ mk (UInt64.zero_add _) (UInt64.zero_add _)
  add_zero a := congrArg₂ mk (UInt64.add_zero _) (UInt64.add_zero _)
  add_comm a b := congrArg₂ mk (UInt64.add_comm ..) (UInt64.add_comm ..)
  nsmul := nsmulRec

theorem recordQueued_eq (s : QueueStats) (n : Nat) : s.recordQueued n = s + recordQueued 0 n := by
  refine congrArg₂ mk ?_ (UInt64.add_zero _).symm
  rw [show (recordQueued 0 n).queued = 0 + n.toUInt64 from rfl, UInt64.zero_add]

theorem recordDropped_eq (s : QueueStats) (n : Nat) : s.recordDropped n = s + recordDropped 0 n := by
  refine congrArg₂ mk (UInt64.add_zero _).symm ?_
  rw [show (recordDropped 0 n).dropped = 0 + n.toUInt64 from rfl, UInt64.zero_add]

end QueueStats

namespace FanIn

variable {ι κ α : Type} [DecidableEq ι] [DecidableEq κ]

/-- What a batch adds to the counters does not depend on them. -/
theorem count_eq (stats : QueueStats) (offered : Nat) (result : QueueResult) :
    count stats offered result = stats + count 0 offered result := by
  unfold count
  split
  next pushed => exact stats.recordQueued_eq pushed
  next pushed =>
    rw [QueueStats.recordDropped_eq, QueueStats.recordQueued_eq stats, add_assoc,
      ← QueueStats.recordDropped_eq]
  next => exact (add_zero stats).symm

/-- The queue that is found is the one that takes the batch. -/
theorem pushTo_eq_of_pushFound? {tag : κ} {items : List α} {queues : List (κ × Ring α)}
    {p : QueueResult × List (κ × Ring α)} (h : pushFound? tag items queues = some p)
    (fresh : Ring α) : pushTo fresh tag items queues = p := by
  induction queues generalizing p with
  | nil => cases h
  | cons q rest ih =>
    obtain ⟨t, ring⟩ := q
    unfold pushFound? at h
    unfold pushTo
    split at h
    next ht =>
      rw [if_pos ht]
      exact Option.some.inj h
    next ht =>
      rw [if_neg ht]
      split at h
      next result rest' hfound =>
        rw [ih hfound]
        exact Option.some.inj h
      next => cases h

/-! ## One step of a thread -/

namespace Thread

/-- **What one step of a thread can be.** -/
inductive Moves (s : Shared κ α) :
    Thread κ α → Option (Step κ α × Answer κ α) → Thread κ α → Shared κ α → Prop
  | done {answers} : Moves s ⟨[], .idle, answers⟩ none ⟨[], .idle, answers⟩ s
  | miss {tag items calls answers} :
    Moves s ⟨.push tag items :: calls, .idle, answers⟩ none ⟨calls, .missed tag items, answers⟩ s
  /-- A batch is appended by a push that finds its queue. -/
  | hit {tag items calls answers result queues}
    (hpush : pushTo (.forSize s.fanIn.queueSize) tag items s.fanIn.queues = (result, queues)) :
    Moves s ⟨.push tag items :: calls, .idle, answers⟩ (some (.push tag items, .pushed result))
      ⟨calls, .appended items.length result, answers⟩ (s.withQueues queues)
  /-- A batch is appended by a push that has missed its queue before. -/
  | retry {tag items calls answers result queues}
    (hpush : pushTo (.forSize s.fanIn.queueSize) tag items s.fanIn.queues = (result, queues)) :
    Moves s ⟨calls, .missed tag items, answers⟩ (some (.push tag items, .pushed result))
      ⟨calls, .appended items.length result, answers⟩ (s.withQueues queues)
  | countAll {calls answers offered pushed} :
    Moves s ⟨calls, .appended offered (.ok pushed), answers⟩ none
      ⟨calls, .idle, answers ++ [.pushed (.ok pushed)]⟩
      (s.withStats (s.fanIn.stats.recordQueued pushed))
  | countAccepted {calls answers offered pushed} :
    Moves s ⟨calls, .appended offered (.error (.full pushed)), answers⟩ none
      ⟨calls, .counting (offered - pushed) (.error (.full pushed)), answers⟩
      (s.withStats (s.fanIn.stats.recordQueued pushed))
  | countNone {calls answers offered popped} :
    Moves s ⟨calls, .appended offered (.error (.empty popped)), answers⟩ none
      ⟨calls, .idle, answers ++ [.pushed (.error (.empty popped))]⟩ s
  | countRefused {calls answers refused result} :
    Moves s ⟨calls, .counting refused result, answers⟩ none
      ⟨calls, .idle, answers ++ [.pushed result]⟩
      (s.withStats (s.fanIn.stats.recordDropped refused))
  | detach {calls answers} :
    Moves s ⟨.drain :: calls, .idle, answers⟩ (some (.drain, .drained (contents s.fanIn.queues)))
      ⟨calls, .draining s.detachments.length, answers⟩
      ⟨{ s.fanIn with queues := [] }, s.detachments ++ [⟨s.fanIn.queues, []⟩]⟩
  | empty {calls answers k queue rest delivered}
    (hk : s.detachments[k]? = some ⟨queue :: rest, delivered⟩) :
    Moves s ⟨calls, .draining k, answers⟩ none ⟨calls, .draining k, answers⟩
      { s with detachments := s.detachments.set k ⟨rest, delivered ++ contents [queue]⟩ }
  /-- A thread without its detachment stays where it is; there is none (`Thread.Valid`). -/
  | lost {calls answers k} (hk : s.detachments[k]? = none) :
    Moves s ⟨calls, .draining k, answers⟩ none ⟨calls, .draining k, answers⟩ s
  | finish {calls answers k delivered} (hk : s.detachments[k]? = some ⟨[], delivered⟩) :
    Moves s ⟨calls, .draining k, answers⟩ none ⟨calls, .idle, answers ++ [.drained delivered]⟩ s

theorem moves_step (t : Thread κ α) (s : Shared κ α) :
    Moves s t (t.step s).1 (t.step s).2.1 (t.step s).2.2 := by
  obtain ⟨calls, phase, answers⟩ := t
  unfold step
  cases phase with
  | idle =>
    cases calls with
    | nil => exact .done
    | cons c calls =>
      cases c with
      | push tag items =>
        cases hfound : pushFound? tag items s.fanIn.queues with
        | none =>
          simp only [hfound]
          exact .miss
        | some p =>
          simp only [hfound]
          exact .hit (pushTo_eq_of_pushFound? hfound _)
      | drain => exact .detach
  | missed tag items => exact .retry rfl
  | appended offered result =>
    rcases result with (pushed | popped) | pushed
    · exact .countAccepted
    · exact .countNone
    · exact .countAll
  | counting refused result => exact .countRefused
  | draining k =>
    rcases hk : s.detachments[k]? with _ | ⟨_ | ⟨queue, rest⟩, delivered⟩
    · simp only [hk]
      exact .lost hk
    · simp only [hk]
      exact .finish hk
    · simp only [hk]
      exact .empty hk

end Thread

/-- No tag is with two of the batches and queues of a drain. -/
def Detachment.Apart (d : Detachment κ α) : Prop :=
  (d.delivered.map (·.1) ++ d.queues.map (·.1)).Nodup

namespace Thread

/-- All calls are made and answered. -/
def Finished (t : Thread κ α) : Prop := t.phase = .idle ∧ t.calls = []

/-- The steps that are left of the call that a thread is in. -/
def left (t : Thread κ α) (s : Shared κ α) : Nat :=
  match t.phase with
  | .idle => 0
  | .missed _ _ => 3
  | .appended _ _ => 2
  | .counting _ _ => 1
  | .draining k => total (·.queues.length + 1) s.detachments[k]?.toList

/-- The calls that are left after the one that a thread is in, and the steps that are left of that. -/
def work (t : Thread κ α) (s : Shared κ α) : Nat × Nat := (t.calls.length, t.left s)

end Thread

/-- What a drain answers. -/
def Answer.drained? : Answer κ α → Option (List (κ × List α))
  | drained contents => some contents
  | _ => none

/-- **A fan-in mirrors what threads share** when it has the same queues, and its counters are ahead by what
the threads have still to count. -/
structure Shared.Mirrors (s : Shared κ α) (uncounted : QueueStats) (f : FanIn κ α) : Prop where
  queueSize_eq : f.queueSize = s.fanIn.queueSize
  queues_eq : f.queues = s.fanIn.queues
  stats_eq : f.stats = s.fanIn.stats + uncounted

omit [DecidableEq κ] in
theorem Shared.Mirrors.fanIn_eq {s : Shared κ α} {f : FanIn κ α} (h : s.Mirrors 0 f) : s.fanIn = f := by
  obtain ⟨hsize, hqueues, hstats⟩ := h
  rw [add_zero] at hstats
  show FanIn.mk s.fanIn.queueSize s.fanIn.queues s.fanIn.stats = f
  rw [← hsize, ← hqueues, ← hstats]

/-- A list looks as before if the item that is set looks as the one that was there. -/
theorem map_set_of_eq {γ δ : Type} {f : γ → δ} {xs : List γ} {k : Nat} {x y : γ} (hk : xs[k]? = some x)
    (h : f y = f x) : (xs.set k y).map f = xs.map f := by
  obtain ⟨hlt, rfl⟩ := List.getElem?_eq_some_iff.mp hk
  rw [List.map_set, h, ← List.map_set, List.set_getElem_self]

namespace Thread.Moves

variable {s s' : Shared κ α} {t t' : Thread κ α} {effect : Option (Step κ α × Answer κ α)}

/-- A call takes effect once. -/
theorem due_eq (h : Moves s t effect t' s') : t.due = (effect.map (·.1)).toList ++ t'.due := by
  cases h <;> rfl

/-- **The items that drains took stay with them**, in queues or out of them. -/
theorem contents_eq (h : Moves s t effect t' s') :
    s'.detachments.map Detachment.contents =
      s.detachments.map Detachment.contents ++ (effect.bind (·.2.drained?)).toList := by
  cases h with
  | detach => exact List.map_append
  | @empty calls answers k queue rest delivered hk =>
    have hsame : Detachment.contents ⟨rest, delivered ++ FanIn.contents [queue]⟩ =
        Detachment.contents ⟨queue :: rest, delivered⟩ := by
      show (delivered ++ FanIn.contents [queue]) ++ FanIn.contents rest = _
      rw [List.append_assoc]
      unfold FanIn.contents
      rw [← List.filterMap_append]
      rfl
    show (s.detachments.set k _).map _ = _ ++ []
    rw [List.append_nil, map_set_of_eq hk hsame]
  | _ => exact (List.append_nil _).symm

end Thread.Moves

namespace Thread

variable {s s' : Shared κ α} {t t' : Thread κ α} {effect : Option (Step κ α × Answer κ α)}

/-- The detachment that a thread works on is there. -/
def Valid (t : Thread κ α) (s : Shared κ α) : Prop :=
  ∀ k, t.phase = .draining k → k < s.detachments.length

omit [DecidableEq κ] in
/-- What a thread is promised depends on the items of its detachment, and not on which of them are still in
queues; and detachments that come later do not matter. -/
theorem promised_eq {more : List (List (κ × List α))} (hvalid : t.Valid s)
    (h : s'.detachments.map Detachment.contents = s.detachments.map Detachment.contents ++ more) :
    t.promised s' = t.promised s := by
  obtain ⟨calls, phase, answers⟩ := t
  cases phase with
  | draining k =>
    have hk : k < (s.detachments.map Detachment.contents).length := by
      rw [List.length_map]
      exact hvalid k rfl
    have hpromised : ∀ s : Shared κ α, promised ⟨calls, .draining k, answers⟩ s =
        ((s.detachments.map Detachment.contents)[k]?).toList.map .drained := by
      intro s
      rw [List.getElem?_map]
      show s.detachments[k]?.toList.map (fun d => Answer.drained d.contents) = _
      cases s.detachments[k]? <;> rfl
    rw [hpromised, hpromised, h, List.getElem?_append_left hk]
  | _ => rfl

namespace Moves

theorem length_le (h : Moves s t effect t' s') : s.detachments.length ≤ s'.detachments.length := by
  have hlength := congrArg List.length h.contents_eq
  rw [List.length_append, List.length_map, List.length_map] at hlength
  omega

theorem valid (h : Moves s t effect t' s') (hvalid : t.Valid s) : t'.Valid s' := by
  intro k hk
  cases h with
  | detach =>
    cases hk
    show _ < (s.detachments ++ [_]).length
    rw [List.length_append, List.length_singleton]
    exact Nat.lt_succ_self _
  | empty =>
    cases hk
    show _ < (s.detachments.set _ _).length
    rw [List.length_set]
    exact hvalid _ rfl
  | lost => exact hvalid k hk
  | _ => cases hk

/-- **A call is answered as was promised when it took effect.** -/
theorem settled_eq (h : Moves s t effect t' s') (hvalid : t.Valid s) :
    t'.answers ++ t'.promised s' = t.answers ++ t.promised s ++ (effect.map (·.2)).toList := by
  have hcontents := h.contents_eq
  cases h with
  | hit hpush => exact (List.append_assoc _ [] _).symm
  | retry hpush => exact (List.append_assoc _ [] _).symm
  | @detach calls answers =>
    rw [List.append_assoc]
    congr 1
    show ((s.detachments ++ [_])[s.detachments.length]?.toList).map _ = _
    rw [List.getElem?_concat_length]
    rfl
  | empty hk =>
    rw [promised_eq hvalid hcontents]
    exact (List.append_nil _).symm
  | @finish calls answers k delivered hk =>
    show (answers ++ [.drained delivered]) ++ [] = answers ++ ((s.detachments[k]?.toList).map _) ++ []
    rw [hk]
    show _ = answers ++ [Answer.drained (delivered ++ [])] ++ []
    rw [List.append_nil delivered]
  | _ => simp [promised]

/-- **What takes effect is what the calls come to when they are made at once**, one after the other. The
counters of the other threads are not touched. -/
theorem mirrors (h : Moves s t effect t' s') {others : QueueStats} {f : FanIn κ α}
    (hmirrors : s.Mirrors (t.uncounted + others) f) :
    ∃ f', runCalls FanIn.call (effect.map (·.1.call)).toList f = ((effect.map (·.2)).toList, f') ∧
      s'.Mirrors (t'.uncounted + others) f' := by
  obtain ⟨hsize, hqueues, hstats⟩ := hmirrors
  -- a batch that is appended is counted by the sequential run, and by this thread later
  have happend : ∀ {tag items result queues},
      pushTo (.forSize s.fanIn.queueSize) tag items s.fanIn.queues = (result, queues) →
      f.stats = s.fanIn.stats + (0 + others) →
      ∃ f', runCalls FanIn.call [.push tag items] f = ([.pushed result], f') ∧
        (s.withQueues queues).Mirrors (count 0 items.length result + others) f' := by
    intro tag items result queues hpush hstats
    have hcall : f.push tag items =
        (result, { f with queues, stats := count f.stats items.length result }) := by
      unfold FanIn.push
      rw [hsize, hqueues, hpush]
    refine ⟨{ f with queues, stats := count f.stats items.length result }, ?_, hsize, rfl, ?_⟩
    · simp only [runCalls, FanIn.call, hcall]
    · show count f.stats items.length result = s.fanIn.stats + _
      rw [count_eq, hstats, zero_add, add_assoc, add_comm others]
  cases h with
  | hit hpush => exact happend hpush hstats
  | retry hpush => exact happend hpush hstats
  | detach =>
    refine ⟨{ f with queues := [] }, ?_, hsize, rfl, hstats⟩
    rw [← hqueues]
    rfl
  | @countAll calls answers offered pushed =>
    refine ⟨f, rfl, hsize, hqueues, ?_⟩
    show f.stats = s.fanIn.stats.recordQueued pushed + (0 + others)
    rw [hstats, QueueStats.recordQueued_eq, zero_add, add_assoc]
    rfl
  | @countAccepted calls answers offered pushed =>
    refine ⟨f, rfl, hsize, hqueues, ?_⟩
    show f.stats = s.fanIn.stats.recordQueued pushed +
      (QueueStats.recordDropped 0 (offered - pushed) + others)
    have hcount : count 0 offered (.error (.full pushed)) =
        QueueStats.recordQueued 0 pushed + QueueStats.recordDropped 0 (offered - pushed) :=
      QueueStats.recordDropped_eq _ _
    replace hstats : f.stats = s.fanIn.stats + (count 0 offered (.error (.full pushed)) + others) :=
      hstats
    rw [hstats, hcount, QueueStats.recordQueued_eq s.fanIn.stats, add_assoc, add_assoc]
  | @countRefused calls answers refused result =>
    refine ⟨f, rfl, hsize, hqueues, ?_⟩
    show f.stats = s.fanIn.stats.recordDropped refused + (0 + others)
    rw [hstats, QueueStats.recordDropped_eq, zero_add, add_assoc]
    rfl
  | _ => exact ⟨f, rfl, hsize, hqueues, hstats⟩

/-- A drain hands out each tag once: what is out of the queues has other tags than what is in them. -/
theorem apart (h : Moves s t effect t' s') (hnodup : (s.fanIn.queues.map (·.1)).Nodup)
    (hapart : ∀ d ∈ s.detachments, d.Apart) : ∀ d ∈ s'.detachments, d.Apart := by
  intro d hd
  cases h with
  | detach =>
    rcases List.mem_append.mp hd with hold | hnew
    · exact hapart d hold
    · rw [List.mem_singleton.mp hnew]
      exact hnodup
  | @empty calls answers k queue rest delivered hk =>
    rcases List.mem_or_eq_of_mem_set hd with hold | rfl
    · exact hapart d hold
    · have hbefore : (delivered.map (·.1) ++ (queue :: rest).map (·.1)).Nodup :=
        hapart _ (List.mem_of_getElem? hk)
      refine hbefore.sublist ?_
      show (List.map _ (delivered ++ contents [queue]) ++ _).Sublist _
      rw [List.map_append, List.append_assoc]
      exact (List.Sublist.refl _).append
        ((map_fst_contents_sublist [queue]).append (List.Sublist.refl _))
  | _ => exact hapart d hd

/-- **A step brings a thread nearer to the end of its calls**, unless it is there. -/
theorem finished_or_work_lt (h : Moves s t effect t' s') (hvalid : t.Valid s) :
    t.Finished ∨ Prod.Lex (· < ·) (· < ·) (t'.work s') (t.work s) := by
  cases h with
  | done => exact .inl ⟨rfl, rfl⟩
  -- a call begins: there is one less behind it, however many steps it takes
  | miss => exact .inr (.left _ _ (Nat.lt_succ_self _))
  | hit => exact .inr (.left _ _ (Nat.lt_succ_self _))
  | detach => exact .inr (.left _ _ (Nat.lt_succ_self _))
  | @empty calls answers k queue rest delivered hk =>
    refine .inr (.right _ ?_)
    have hbefore : left ⟨calls, .draining k, answers⟩ s = rest.length + 2 := by
      simp [left, hk, total]
    have hafter : left ⟨calls, .draining k, answers⟩ { s with
        detachments := s.detachments.set k ⟨rest, delivered ++ contents [queue]⟩ } =
          rest.length + 1 := by
      have hlt : k < s.detachments.length := hvalid k rfl
      simp [left, hlt, total]
    rw [hbefore, hafter]
    exact Nat.lt_succ_self _
  | lost hk =>
    rw [List.getElem?_eq_none_iff] at hk
    exact absurd (hvalid _ rfl) (Nat.not_lt.mpr hk)
  | finish hk =>
    refine .inr (.right _ ?_)
    simp [left, hk, total]
  | retry => exact .inr (.right _ (Nat.lt_succ_self 2))
  | countAll => exact .inr (.right _ (Nat.zero_lt_succ 1))
  | countAccepted => exact .inr (.right _ (Nat.lt_succ_self 1))
  | countNone => exact .inr (.right _ (Nat.zero_lt_succ 1))
  | countRefused => exact .inr (.right _ (Nat.zero_lt_succ 0))

end Moves

end Thread

namespace WellFormed

variable {f : FanIn κ α}

theorem call (h : f.WellFormed) (c : Call κ α) : (f.call c).2.WellFormed := by
  cases c with
  | push tag items => exact h.push tag items
  | drainAll => exact wellFormed_of_queues_eq_nil rfl
  | detach => exact wellFormed_of_queues_eq_nil rfl
  | _ => exact h

theorem calls (h : f.WellFormed) (calls : List (Call κ α)) :
    (runCalls FanIn.call calls f).2.WellFormed := by
  induction calls generalizing f with
  | nil => exact h
  | cons c rest ih => exact ih (h.call c)

end WellFormed

/-! ## One step of the threads -/

namespace Threads

variable {s : Threads ι κ α} {id other : ι}

/-- What threads have still to count. -/
def uncounted [Fintype ι] (s : Threads ι κ α) : QueueStats := ∑ id, (s.thread id).uncounted

/-- Every thread that drains has a detachment to work on. -/
def Valid (s : Threads ι κ α) : Prop := ∀ id, (s.thread id).Valid s.shared

/-- The answers that a thread has, and the one that it is promised. -/
def settled (s : Threads ι κ α) (id : ι) : List (Answer κ α) :=
  (s.thread id).answers ++ (s.thread id).promised s.shared

variable (s id)

/-- A step moves one thread, and the effect is its own. -/
theorem exists_moves : ∃ effect t,
    Thread.Moves s.shared (s.thread id) effect t (s.step id).2.shared ∧
      (s.step id).1 = (effect.toList.map fun e => ⟨id, e.1, e.2⟩) ∧
      (s.step id).2.thread = Function.update s.thread id t := by
  refine ⟨_, _, (s.thread id).moves_step s.shared, rfl, ?_⟩
  funext other
  rw [Function.update_apply]
  rfl

omit [DecidableEq κ] in
theorem uncounted_update [Fintype ι] (t : Thread κ α) (shared : Shared κ α) :
    uncounted ⟨shared, Function.update s.thread id t⟩ =
      t.uncounted + ∑ other ∈ Finset.univ.erase id, (s.thread other).uncounted := by
  unfold uncounted
  rw [← Finset.add_sum_erase _ _ (Finset.mem_univ id)]
  congr 1
  · simp
  · refine Finset.sum_congr rfl fun other hother => ?_
    simp [Finset.ne_of_mem_erase hother]

variable {s id}

/-- **A step is what the call that takes effect comes to**, if one does. -/
theorem step_mirrors [Fintype ι] {f : FanIn κ α} (h : s.shared.Mirrors s.uncounted f) (id : ι) :
    ∃ f', runCalls call ((s.step id).1.map (·.step.call)) f = ((s.step id).1.map (·.answer), f') ∧
      (s.step id).2.shared.Mirrors (s.step id).2.uncounted f' := by
  obtain ⟨effect, t, hmoves, heffects, hthreads⟩ := s.exists_moves id
  -- the other threads have the same left to count before and after
  have hbefore : s.uncounted =
      (s.thread id).uncounted + ∑ other ∈ Finset.univ.erase id, (s.thread other).uncounted :=
    (Finset.add_sum_erase _ _ (Finset.mem_univ id)).symm
  have hafter : (s.step id).2.uncounted =
      t.uncounted + ∑ other ∈ Finset.univ.erase id, (s.thread other).uncounted := by
    rw [← uncounted_update, ← hthreads]
  rw [hbefore] at h
  obtain ⟨f', hruns, hmirrors⟩ := hmoves.mirrors h
  refine ⟨f', ?_, ?_⟩
  · rw [heffects]
    cases effect <;> exact hruns
  · rw [hafter]
    exact hmirrors

theorem step_valid (h : s.Valid) (id : ι) : (s.step id).2.Valid := by
  obtain ⟨effect, t, hmoves, -, hthreads⟩ := s.exists_moves id
  intro other
  rw [hthreads]
  by_cases hother : other = id
  · subst hother
    rw [Function.update_self]
    exact hmoves.valid (h other)
  · rw [Function.update_of_ne hother]
    intro k hk
    exact Nat.lt_of_lt_of_le (h other k hk) hmoves.length_le

/-- **The answers of a thread grow by those of its own effects.** -/
theorem step_settled (h : s.Valid) (id other : ι) :
    (s.step id).2.settled other =
      s.settled other ++ ((s.step id).1.filter (·.thread = other)).map (·.answer) := by
  obtain ⟨effect, t, hmoves, heffects, hthreads⟩ := s.exists_moves id
  unfold settled
  rw [hthreads, heffects]
  by_cases hother : other = id
  · subst hother
    rw [Function.update_self, hmoves.settled_eq (h other)]
    cases effect <;> simp
  · rw [Function.update_of_ne hother, Thread.promised_eq (h other) hmoves.contents_eq]
    cases effect <;> simp [Ne.symm hother]

theorem step_due (s : Threads ι κ α) (id other : ι) :
    (s.thread other).due =
      ((s.step id).1.filter (·.thread = other)).map (·.step) ++ ((s.step id).2.thread other).due := by
  obtain ⟨effect, t, hmoves, heffects, hthreads⟩ := s.exists_moves id
  rw [hthreads, heffects]
  by_cases hother : other = id
  · subst hother
    rw [Function.update_self, hmoves.due_eq]
    cases effect <;> simp
  · rw [Function.update_of_ne hother]
    cases effect <;> simp [Ne.symm hother]

theorem step_contents (s : Threads ι κ α) (id : ι) :
    (s.step id).2.shared.detachments.map Detachment.contents =
      s.shared.detachments.map Detachment.contents ++
        (s.step id).1.filterMap (·.answer.drained?) := by
  obtain ⟨effect, t, hmoves, heffects, -⟩ := s.exists_moves id
  rw [hmoves.contents_eq, heffects]
  rcases effect with _ | ⟨step, answer⟩
  · rfl
  · cases hanswer : answer.drained? <;> simp [hanswer]

/-! ## Schedules -/

theorem run_cons (id : ι) (schedule : List ι) (s : Threads ι κ α) :
    run (id :: schedule) s =
      ((s.step id).1 ++ (run schedule (s.step id).2).1, (run schedule (s.step id).2).2) := rfl

theorem run_mirrors [Fintype ι] {f : FanIn κ α} (h : s.shared.Mirrors s.uncounted f)
    (schedule : List ι) :
    ∃ f', runCalls call ((run schedule s).1.map (·.step.call)) f =
        ((run schedule s).1.map (·.answer), f') ∧
      (run schedule s).2.shared.Mirrors (run schedule s).2.uncounted f' := by
  induction schedule generalizing s f with
  | nil => exact ⟨f, rfl, h⟩
  | cons id schedule ih =>
    obtain ⟨f₁, hstep, hmirrors₁⟩ := step_mirrors h id
    obtain ⟨f₂, hrun, hmirrors₂⟩ := ih hmirrors₁
    refine ⟨f₂, ?_, hmirrors₂⟩
    rw [run_cons, List.map_append, List.map_append, runCalls_append, hstep, hrun]

theorem run_settled (h : s.Valid) (schedule : List ι) (id : ι) :
    (run schedule s).2.settled id =
      s.settled id ++ ((run schedule s).1.filter (·.thread = id)).map (·.answer) := by
  induction schedule generalizing s with
  | nil => exact (List.append_nil _).symm
  | cons next schedule ih =>
    have hrest := ih (step_valid h next)
    rw [step_settled h next id] at hrest
    rw [run_cons, List.filter_append, List.map_append, ← List.append_assoc]
    exact hrest

theorem run_due (schedule : List ι) (s : Threads ι κ α) (id : ι) :
    (s.thread id).due =
      ((run schedule s).1.filter (·.thread = id)).map (·.step) ++
        ((run schedule s).2.thread id).due := by
  induction schedule generalizing s with
  | nil => rfl
  | cons next schedule ih =>
    rw [s.step_due next id, ih, run_cons, List.filter_append, List.map_append, List.append_assoc]

theorem run_contents (schedule : List ι) (s : Threads ι κ α) :
    (run schedule s).2.shared.detachments.map Detachment.contents =
      s.shared.detachments.map Detachment.contents ++
        (run schedule s).1.filterMap (·.answer.drained?) := by
  induction schedule generalizing s with
  | nil => exact (List.append_nil _).symm
  | cons next schedule ih =>
    have hrest := ih (s.step next).2
    rw [s.step_contents next] at hrest
    rw [run_cons, List.filterMap_append, ← List.append_assoc]
    exact hrest

theorem run_valid (h : s.Valid) (schedule : List ι) : (run schedule s).2.Valid := by
  induction schedule generalizing s with
  | nil => exact h
  | cons id schedule ih => exact ih (step_valid h id)

/-- **No drain hands out a tag twice**, since what it takes are the queues of a sequential run. -/
theorem run_apart [Fintype ι] {f : FanIn κ α} (h : s.shared.Mirrors s.uncounted f) (hf : f.WellFormed)
    (hapart : ∀ d ∈ s.shared.detachments, d.Apart) (schedule : List ι) :
    ∀ d ∈ (run schedule s).2.shared.detachments, d.Apart := by
  induction schedule generalizing s f with
  | nil => exact hapart
  | cons id schedule ih =>
    obtain ⟨f₁, hstep, hmirrors₁⟩ := step_mirrors h id
    -- the live queues are those of the sequential run, in which no tag has two
    have hf₁ : f₁.WellFormed := by
      have hruns := hf.calls ((s.step id).1.map (·.step.call))
      rw [hstep] at hruns
      exact hruns
    obtain ⟨effect, t, hmoves, -, -⟩ := s.exists_moves id
    have hnodup : (s.shared.fanIn.queues.map (·.1)).Nodup := by
      rw [← h.queues_eq]
      exact hf.nodup
    exact ih hmirrors₁ hf₁ (hmoves.apart hnodup hapart)

/-- **No thread waits for another**: alone, it comes to the end of its calls. The induction is on the work
that is left. -/
theorem exists_finished {s : Threads ι κ α} (h : s.Valid) (id : ι) :
    ∃ n, ((run (List.replicate n id) s).2.thread id).Finished := by
  obtain ⟨effect, t, hmoves, -, hthreads⟩ := s.exists_moves id
  have hself : (s.step id).2.thread id = t := by
    rw [hthreads, Function.update_self]
  rcases hmoves.finished_or_work_lt (h id) with hfinished | hlt
  · exact ⟨0, hfinished⟩
  · obtain ⟨n, hn⟩ := exists_finished (step_valid h id) id
    exact ⟨n + 1, hn⟩
termination_by (s.thread id).work s.shared
decreasing_by
  rw [hself]
  exact hlt

end Threads

end FanIn

end FlagSidecar
