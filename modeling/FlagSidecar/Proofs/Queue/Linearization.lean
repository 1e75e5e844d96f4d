import FlagSidecar.Proofs.Queue.Threads

/-!
# FlagSidecar.Proofs.Queue.Linearization: the sequential run behind every schedule

A schedule of threads that share a fan-in comes to a sequential run: the calls, each made at once, in the
order in which batches were appended and queues detached. It gives every thread its answers, and it says
where each accepted item is: with the drain that came after it, delivered or not yet, or in the live queue.

Main statement: `FanIn.Threads.linearized`.
-/

namespace FlagSidecar.FanIn

variable {ι κ α : Type} [DecidableEq ι] [DecidableEq κ]

/-! ## Where the accepted items are -/

section

variable (tag : κ)

theorem itemsUnder_append (xs ys : List (κ × List α)) :
    itemsUnder tag (xs ++ ys) = itemsUnder tag xs ++ itemsUnder tag ys := by
  unfold itemsUnder
  rw [List.filter_append, List.flatMap_append]

theorem Detachment.itemsOf_eq (d : Detachment κ α) : d.itemsOf tag = itemsUnder tag d.contents :=
  (itemsUnder_append tag d.delivered _).symm

theorem held_congr {f g : FanIn κ α} (h : f.queues = g.queues) : f.held tag = g.held tag := by
  unfold held
  rw [h]

omit [DecidableEq ι] in
/-- A drain accepts nothing, so that the parts between drains have all that is accepted. -/
theorem flatten_splitOnP (trace : List (Effect ι κ α)) :
    ((trace.splitOnP Effect.isDrain).map (·.flatMap (Effect.accepted tag))).flatten =
      trace.flatMap (Effect.accepted tag) := by
  induction trace with
  | nil => rfl
  | cons e rest ih =>
    rw [List.flatMap_cons, ← ih, List.splitOnP_cons_eq_if_modifyHead]
    split
    next hdrain =>
      have hnone : e.accepted tag = [] := by
        obtain ⟨id, step, answer⟩ := e
        cases step with
        | push t items => cases hdrain
        | drain => rfl
      rw [hnone]
      rfl
    next =>
      cases hparts : rest.splitOnP Effect.isDrain with
      | nil => exact absurd hparts (List.splitOnP_ne_nil _ _)
      | cons part parts => simp

end

namespace WellFormed

variable {f f' : FanIn κ α}

/-- Under each tag a drain hands out what was held. -/
theorem itemsUnder_drainAll (h : f.WellFormed) (tag : κ) : itemsUnder tag f.drainAll.1 = f.held tag :=
  filter_of_nodup h.nodup_drainAll fun _ => h.mem_drainAll

omit [DecidableEq ι] in
/-- **Between two drains what is accepted goes to the second**, batch by batch; and what is accepted after
the last is held. The induction is on what took effect; what was held before goes to the first drain. -/
theorem handed_eq (h : f.WellFormed) {trace : List (Effect ι κ α)}
    (hrun : runCalls FanIn.call (trace.map (·.step.call)) f = (trace.map (·.answer), f')) (tag : κ) :
    (trace.filterMap (·.answer.drained?)).map (itemsUnder tag) ++ [f'.held tag] =
      ((trace.splitOnP Effect.isDrain).map (·.flatMap (Effect.accepted tag))).modifyHead
        (f.held tag ++ ·) := by
  induction trace generalizing f with
  | nil =>
    obtain rfl : f = f' := congrArg Prod.snd hrun
    show [f.held tag] = [f.held tag ++ []]
    rw [List.append_nil]
  | cons e rest ih =>
    obtain ⟨id, step, answer⟩ := e
    rw [List.map_cons, List.map_cons, runCalls_cons, Prod.mk.injEq, List.cons.injEq] at hrun
    obtain ⟨⟨hanswer, hanswers⟩, hlast⟩ := hrun
    have hrest := ih (h.call step.call) (Prod.ext hanswers hlast)
    rw [List.splitOnP_cons_eq_if_modifyHead]
    cases step with
    | push t items =>
      -- what is accepted joins what was held, and goes to the same drain
      obtain rfl : .pushed (f.push t items).1 = answer := hanswer
      have hheld : (f.push t items).2.held tag = f.held tag ++
          Effect.accepted tag (⟨id, .push t items, .pushed (f.push t items).1⟩ : Effect ι κ α) := by
        show _ = f.held tag ++ if t = tag then _ else _
        split
        next ht =>
          subst ht
          exact h.held_push t items
        next ht => rw [held_push_of_ne ht, List.append_nil]
      replace hrest : _ = List.modifyHead ((f.push t items).2.held tag ++ ·) _ := hrest
      show (rest.filterMap _).map _ ++ _ = _
      rw [hrest, hheld]
      cases rest.splitOnP Effect.isDrain with
      | nil => rfl
      | cons part parts =>
        simp [Effect.isDrain, List.append_assoc]
    | drain =>
      -- a part ends here: all that was held is handed out, and the rest begins with nothing
      obtain rfl : .drained f.drainAll.1 = answer := hanswer
      replace hrest : _ = List.modifyHead (([] : List α) ++ ·) _ := hrest
      show itemsUnder tag f.drainAll.1 :: ((rest.filterMap _).map _ ++ _) = _
      rw [hrest, h.itemsUnder_drainAll]
      cases rest.splitOnP Effect.isDrain with
      | nil => simp [Effect.isDrain]
      | cons part parts => simp [Effect.isDrain]

end WellFormed

/-! ## Every schedule -/

namespace Threads

/-- **What it means that a sequential run is behind a schedule**, if `trace` is what took effect. -/
structure Linearized [Fintype ι] (size : UInt64) (calls : ι → List (Step κ α))
    (trace : List (Effect ι κ α)) (s : Threads ι κ α) : Prop where
  /-- The calls, each made at once in the order in which they took effect, have these answers. They leave
  the queues as they are, and the counters but for what is still to be counted. -/
  sequential : ∃ f, runCalls call (trace.map (·.step.call)) (new size) = (trace.map (·.answer), f) ∧
    s.shared.Mirrors s.uncounted f ∧ ((∀ id, (s.thread id).Finished) → s.shared.fanIn = f)
  /-- The calls of a thread take effect once each and in their order. -/
  calls_eq : ∀ id, calls id = (trace.filter (·.thread = id)).map (·.step) ++ (s.thread id).due
  /-- They are answered so; the last one that took effect may wait for its answer. -/
  answers_eq : ∀ id, (trace.filter (·.thread = id)).map (·.answer) =
    (s.thread id).answers ++ (s.thread id).promised s.shared
  /-- What is accepted goes to the next drain, or else is in the live queue, batch by batch. -/
  places_eq : ∀ tag, s.shared.places tag =
    (trace.splitOnP Effect.isDrain).map (·.flatMap (Effect.accepted tag))
  /-- Each accepted item is in one place. -/
  once : ∀ tag, (s.shared.places tag).flatten = trace.flatMap (Effect.accepted tag)
  /-- No tag is in two of the batches and queues of a drain. -/
  apart : ∀ d ∈ s.shared.detachments, d.Apart
  /-- A thread that goes on alone comes to the end of its calls. -/
  finishes : ∀ id, ∃ n, ((run (List.replicate n id) s).2.thread id).Finished

variable [Fintype ι]

omit [DecidableEq ι] [DecidableEq κ] in
theorem uncounted_of_finished {s : Threads ι κ α} (h : ∀ id, (s.thread id).Finished) :
    s.uncounted = 0 := by
  refine Finset.sum_eq_zero fun id _ => ?_
  unfold Thread.uncounted
  rw [(h id).1]
  rfl

omit [DecidableEq ι] [DecidableEq κ] in
theorem start_mirrors (size : UInt64) (calls : ι → List (Step κ α)) :
    (start size calls).shared.Mirrors (start size calls).uncounted (new size) := by
  have hzero : (start size calls).uncounted = 0 := Finset.sum_eq_zero fun _ _ => rfl
  rw [hzero]
  exact ⟨rfl, rfl, (add_zero _).symm⟩

/-- What a drain took is what it answers in the sequential run, whether it is delivered or not. -/
theorem run_places (size : UInt64) (calls : ι → List (Step κ α)) (schedule : List ι) (tag : κ) :
    (run schedule (start size calls)).2.shared.places tag =
      ((run schedule (start size calls)).1.splitOnP Effect.isDrain).map
        (·.flatMap (Effect.accepted tag)) := by
  obtain ⟨f, hrun, hlast⟩ := run_mirrors (start_mirrors size calls) schedule
  have hnew : (new size : FanIn κ α).WellFormed := wellFormed_of_queues_eq_nil rfl
  have hcontents := run_contents schedule (start size calls)
  calc
    (run schedule (start size calls)).2.shared.places tag
      = ((run schedule (start size calls)).2.shared.detachments.map Detachment.contents).map
          (itemsUnder tag) ++ [(run schedule (start size calls)).2.shared.fanIn.held tag] := by
        rw [List.map_map]
        unfold Shared.places
        congr 1
        exact List.map_congr_left fun d _ => d.itemsOf_eq tag
    _ = ((run schedule (start size calls)).1.filterMap (·.answer.drained?)).map (itemsUnder tag) ++
          [f.held tag] := by
        rw [hcontents, held_congr tag hlast.queues_eq]
        rfl
    _ = _ := by
        rw [hnew.handed_eq hrun tag]
        cases (run schedule (start size calls)).1.splitOnP Effect.isDrain <;> rfl

/-- **Threads that share a fan-in lose and repeat nothing**: behind every schedule there is a sequential
run of the calls. -/
theorem linearized (size : UInt64) (calls : ι → List (Step κ α)) (schedule : List ι) :
    Linearized size calls (run schedule (start size calls)).1
      (run schedule (start size calls)).2 := by
  have hnew : (new size : FanIn κ α).WellFormed := wellFormed_of_queues_eq_nil rfl
  have hvalid : (start size calls).Valid := fun id k hk => nomatch hk
  have hmirrors : (start size calls).shared.Mirrors (start size calls).uncounted (new size) :=
    start_mirrors size calls
  obtain ⟨f, hrun, hlast⟩ := run_mirrors hmirrors schedule
  exact {
    sequential := by
      refine ⟨f, hrun, hlast, fun hfinished => ?_⟩
      rw [uncounted_of_finished hfinished] at hlast
      exact hlast.fanIn_eq
    calls_eq := run_due schedule (start size calls)
    answers_eq := fun id => (run_settled hvalid schedule id).symm
    places_eq := run_places size calls schedule
    once := fun tag => by rw [run_places, flatten_splitOnP]
    apart := run_apart hmirrors hnew (fun d hd => nomatch hd) schedule
    finishes := exists_finished (run_valid hvalid schedule) }

/-- Both threads miss the queue. One appends and drains before the other has the lock again; the batch of
the other goes to a new queue. -/
example :
    (run [0, 1, 1, 1, 1, 0, 0, 1, 1]
      (start 2 fun (id : Fin 2) =>
        if id = 0 then [.push 'a' [1, 2]] else [.push 'a' [3], .drain])).1.map
        (fun e => (e.thread, e.answer)) =
      [(1, .pushed (.ok 1)), (1, .drained [('a', [3])]), (0, .pushed (.ok 2))] := rfl

end Threads

end FlagSidecar.FanIn
