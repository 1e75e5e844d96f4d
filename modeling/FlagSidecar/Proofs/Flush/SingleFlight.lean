import FlagSidecar.Proofs.Flush.Calls

/-!
# FlagSidecar.Proofs.Flush.SingleFlight: passes are single-flight, also when they are cut off

At every moment of every schedule one call is in flight at most, and the mark is set exactly while one is.
A call that finds it set is skipped and leaves everything as it is. Whatever way a call ends, the mark is
clear then, so that a call that begins while none is in flight is not skipped.

What a call took is nobody else's: no other call hands it to the recorder, also if the one that took it
was cut off before it could.

A call that nothing interrupts is a whole pass, as it is made where there is no other.

Main statements: `Flusher.Calls.single_flight`, `Flusher.Calls.run_whole`.
-/

namespace FlagSidecar.Flusher.Calls

variable {ι α : Type} [DecidableEq ι]

theorem withPhase_withPhase (s : Calls ι α) (id : ι) (p q : Phase α) :
    (s.withPhase id p).withPhase id q = s.withPhase id q := by
  unfold withPhase
  congr 1
  funext other
  by_cases h : other = id
  · simp only [if_pos h]
  · simp only [if_neg h]

theorem withPhase_eq_self {s : Calls ι α} {id : ι} {p : Phase α} (h : s.phase id = p) :
    s.withPhase id p = s := by
  unfold withPhase
  congr 1
  funext other
  by_cases hid : other = id
  · rw [if_pos hid, hid, h]
  · rw [if_neg hid]

variable [Uploadable α] {recorder : ι → Recorder} {s : Calls ι α} {id : ι}

/-! ## How a call begins and ends -/

/-- A call that finds the mark set is skipped, and nothing else is changed. -/
theorem step_acquire_of_running (hidle : s.phase id = .idle) (hset : s.flusher.running = true) :
    s.step recorder (.call id .acquire) = ([], s.withPhase id (.ended (some .skipped))) := by
  apply step_quiet
  rw [hidle]
  exact if_pos hset

/-- A call that finds the mark clear sets it. -/
theorem step_acquire_of_clear (hidle : s.phase id = .idle) (hclear : s.flusher.running = false) :
    s.step recorder (.call id .acquire) =
      ([], { s with flusher := { s.flusher with running := true } }.withPhase id .acquired) := by
  apply step_quiet
  rw [hidle]
  exact if_neg (Bool.eq_false_iff.mp hclear)

/-- A call that is over takes no more steps. -/
theorem step_of_ended {outcome : Option FlushOutcome} (h : s.phase id = .ended outcome) (act : Act) :
    s.step recorder (.call id act) = ([], s) := by
  have hnone : (s.phase id).act? (recorder id) s.flusher act = none := by
    rw [h]
    cases act <;> rfl
  simp only [step, hnone]

/-- Two steps of a call, one after the other, the first of which others do not notice. -/
theorem run_pair {first second : Act} {p q : Phase α} {f : Flusher α}
    (hfirst : (s.phase id).act? (recorder id) s.flusher first = some (none, p, s.flusher))
    (hsecond : p.act? (recorder id) s.flusher second = some (none, q, f)) :
    run recorder [.call id first, .call id second] s =
      ([], { s with flusher := f }.withPhase id q) := by
  have hnext : (s.withPhase id p).step recorder (.call id second) =
      ([], { s with flusher := f }.withPhase id q) := by
    rw [step_quiet (p := q) (f := f)]
    · exact congrArg (Prod.mk []) (withPhase_withPhase { s with flusher := f } id p q)
    · rw [withPhase_phase_self]
      exact hsecond
  rw [run_cons, step_quiet hfirst, run_singleton]
  exact hnext

/-- A call that is cut off takes back the mark. -/
theorem run_cancel (h : s.phase id = .acquired ∨ ∃ batches, s.phase id = .uploading batches) :
    run recorder [.call id .cancel, .call id .release] s =
      ([], { s with flusher := s.flusher.release }.withPhase id (.ended none)) := by
  apply run_pair (p := .leaving none)
  · obtain h | ⟨batches, h⟩ := h
    · rw [h]
      rfl
    · rw [h]
      rfl
  · rfl

/-- A call whose uploads are all answered comes to its report and takes back the mark. -/
theorem run_finish (recorder : ι → Recorder) {batches : List (Batch α)} (h : s.phase id = .uploading batches)
    (hall : ∀ b ∈ batches, b.stage = .answered) :
    run recorder [.call id .finish, .call id .release] s =
      ([], { s with flusher := s.flusher.release }.withPhase id
        (.ended (some (.completed
          (.ofUploads (recorder id) (batches.map fun b : Batch α => upload b.content)))))) := by
  apply run_pair (p := .leaving
    (some (.ofUploads (recorder id) (batches.map fun b : Batch α => upload b.content))))
  · rw [h]
    exact if_pos (List.all_eq_true.mpr fun b hb => decide_eq_true (hall b hb))
  · rfl

/-- When a call stops being in flight, by whatever step, the mark is clear. -/
theorem running_of_landed {move : Move ι α} {i : ι} (hbefore : (s.phase i).inFlight = true)
    (hafter : ((s.step recorder move).2.phase i).inFlight = false) :
    (s.step recorder move).2.flusher.running = false := by
  obtain ⟨tag, items, -, heq⟩ | ⟨id, act, deed, p, f, -, hact, heq⟩ | heq :=
    step_cases recorder s move
  · rw [heq] at hafter
    cases hbefore.symm.trans hafter
  · rw [heq] at hafter ⊢
    by_cases hid : i = id
    · subst hid
      rw [withPhase_phase_self] at hafter
      obtain ⟨hgrounded, -⟩ | ⟨-, -, hf⟩ | ⟨hsame, -⟩ := hact.mark
      · cases hbefore.symm.trans hgrounded
      · exact hf
      · cases hbefore.symm.trans (hsame.symm.trans hafter)
    · rw [withPhase_phase_of_ne hid] at hafter
      cases hbefore.symm.trans hafter
  · rw [heq] at hafter
    cases hbefore.symm.trans hafter

/-! ## A call that nothing interrupts -/

/-- Uploads that are made one after the other are all made. -/
theorem run_uploadEach (recorder : ι → Recorder) (done : List (Batch α))
    (rest : List (ClientTag × List α))
    (h : s.phase id = .uploading (done ++ rest.map .ofDrained)) :
    run recorder (uploadEach id done.length rest.length) s =
      (rest.map fun batch => .deed id (.handed batch),
        s.withPhase id (.uploading (done ++ rest.map fun batch => ⟨batch.1, batch.2, .answered⟩))) := by
  induction rest generalizing done s with
  | nil => exact congrArg (Prod.mk []) (withPhase_eq_self h).symm
  | cons batch rest ih =>
    obtain ⟨tag, items⟩ := batch
    have hhand : s.step recorder (.call id (.hand done.length)) =
        ([.deed id (.handed (tag, items))],
          s.withPhase id (.uploading (done ++ ⟨tag, items, .handed⟩ :: rest.map .ofDrained))) := by
      apply step_noted
      rw [h]
      exact Phase.act?_hand _ _ done (rest.map .ofDrained) tag items
    have hanswer : (s.withPhase id
          (.uploading (done ++ ⟨tag, items, .handed⟩ :: rest.map .ofDrained))).step recorder
          (.call id (.answer done.length)) =
        ([], s.withPhase id (.uploading (done ++ ⟨tag, items, .answered⟩ :: rest.map .ofDrained))) := by
      rw [step_quiet
        (p := .uploading (done ++ ⟨tag, items, .answered⟩ :: rest.map .ofDrained)) (f := s.flusher)]
      · exact congrArg (Prod.mk []) (withPhase_withPhase ..)
      · rw [withPhase_phase_self]
        exact Phase.act?_answer _ _ done (rest.map .ofDrained) tag items
    have hrest := ih (done ++ [⟨tag, items, .answered⟩])
      (s := s.withPhase id (.uploading (done ++ ⟨tag, items, .answered⟩ :: rest.map .ofDrained)))
      (by rw [withPhase_phase_self, List.append_assoc, List.singleton_append])
    rw [List.length_append, List.length_singleton, List.append_assoc, List.singleton_append,
      withPhase_withPhase] at hrest
    rw [List.length_cons]
    simp only [uploadEach, run, hhand, hanswer, hrest]
    rfl

/-- A pass that begins while none is in flight takes everything, uploads it and leaves the mark clear. -/
theorem synchronize_of_clear {f : Flusher α} (hclear : f.running = false) (recorder : Recorder) :
    f.synchronize recorder =
      (.completed (.ofUploads recorder (f.queues.drainAll.1.map upload)),
        f.queues.drainAll.1.map upload, ⟨f.queues.drainAll.2, false⟩) := by
  rw [synchronize, begin?_of_clear hclear]
  rfl

/-- A call that finds the mark clear sets it and takes everything. -/
theorem run_take (recorder : ι → Recorder) (hidle : s.phase id = .idle) (hclear : s.flusher.running = false) :
    run recorder [.call id .acquire, .call id .drain] s =
      ([.deed id (.drained s.flusher.queues.drainAll.1)],
        { s with flusher := ⟨s.flusher.queues.drainAll.2, true⟩ }.withPhase id
          (.uploading (s.flusher.queues.drainAll.1.map .ofDrained))) := by
  rw [run_cons, step_acquire_of_clear hidle hclear, run_singleton,
    step_noted (p := .uploading (s.flusher.queues.drainAll.1.map .ofDrained))
      (f := ⟨s.flusher.queues.drainAll.2, true⟩)]
  · exact congrArg (Prod.mk _) (withPhase_withPhase
      { s with flusher := ⟨s.flusher.queues.drainAll.2, true⟩ } id .acquired _)
  · rw [withPhase_phase_self]
    rfl

/-- **A call that nothing interrupts is a whole pass**: it comes to the outcome of a pass, hands over its
uploads and leaves the queues as it does. -/
theorem run_whole (hidle : s.phase id = .idle) (hclear : s.flusher.running = false) :
    run recorder (whole id s.flusher.queues.drainAll.1.length) s =
      (.deed id (.drained s.flusher.queues.drainAll.1) ::
          s.flusher.queues.drainAll.1.map fun batch => .deed id (.handed batch),
        { s with flusher := (s.flusher.synchronize (recorder id)).2.2 }.withPhase id
          (.ended (some (s.flusher.synchronize (recorder id)).1))) := by
  have htake := run_take recorder hidle hclear
  rw [synchronize_of_clear hclear]
  generalize s.flusher.queues.drainAll = drained at htake ⊢
  obtain ⟨contents, queues⟩ := drained
  -- the call with its uploads before it, and with all of them answered
  have hupload := run_uploadEach recorder [] contents
    (s := { s with flusher := ⟨queues, true⟩ }.withPhase id (.uploading (contents.map .ofDrained)))
    (withPhase_phase_self ..)
  rw [withPhase_withPhase] at hupload
  have hfinish := run_finish recorder
    (s := { s with flusher := ⟨queues, true⟩ }.withPhase id
      (.uploading (contents.map fun batch : ClientTag × List α => ⟨batch.1, batch.2, .answered⟩)))
    (withPhase_phase_self ..) (by
      intro b hb
      obtain ⟨batch, -, rfl⟩ := List.mem_map.mp hb
      rfl)
  rw [List.map_map] at hfinish
  have hsplit : whole (α := α) id contents.length = [.call id .acquire, .call id .drain] ++
      (uploadEach id 0 contents.length ++ [.call id .finish, .call id .release]) := rfl
  rw [hsplit, run_append, htake, run_append]
  simp only [List.nil_append, List.length_nil] at hupload
  rw [hupload, hfinish, List.append_nil]
  exact congrArg (Prod.mk _) (withPhase_withPhase { s with flusher := ⟨queues, false⟩ } id _ _)

/-! ## Every schedule -/

/-- What holds of calls at a moment, with these events behind them, if passes are single-flight. -/
structure SingleFlight (recorder : ι → Recorder) (events : List (Occurrence ι α)) (s : Calls ι α) :
    Prop where
  /-- At most one call has set the mark and not taken it back. -/
  alone : ∀ i j, (s.phase i).inFlight → (s.phase j).inFlight → i = j
  /-- The mark is set exactly while there is one. -/
  running_iff : s.flusher.running = true ↔ ∃ i, (s.phase i).inFlight
  /-- A call that finds the mark set is skipped. The mark, the queues and the counters stay as they are,
  and so does every other call. -/
  skips : ∀ i, s.phase i = .idle → s.flusher.running = true →
    s.step recorder (.call i .acquire) = ([], s.withPhase i (.ended (some .skipped)))
  /-- A call that was skipped has taken nothing and handed over nothing. -/
  silent : ∀ i, s.phase i = .ended (some .skipped) → drainsOf events i = [] ∧ handedBy events i = []
  /-- Nor will it, and it takes back nobody's mark. -/
  stays_ended : ∀ i outcome act, s.phase i = .ended outcome → s.step recorder (.call i act) = ([], s)
  /-- While no call is in flight, one that begins is not skipped. -/
  begins : ∀ i, s.phase i = .idle → (∀ j, (s.phase j).inFlight = false) →
    s.step recorder (.call i .acquire) =
      ([], { s with flusher := { s.flusher with running := true } }.withPhase i .acquired)
  /-- With all its uploads answered a call can be completed, which takes back the mark. -/
  completes : ∀ i batches, s.phase i = .uploading batches → (∀ b ∈ batches, b.stage = .answered) →
    run recorder [.call i .finish, .call i .release] s =
      ([], { s with flusher := s.flusher.release }.withPhase i
        (.ended (some (.completed
          (.ofUploads (recorder i) (batches.map fun b : Batch α => upload b.content))))))
  /-- Before that a call can be cut off, wherever it is, which takes back the mark. -/
  cutOff : ∀ i, s.phase i = .acquired ∨ (∃ batches, s.phase i = .uploading batches) →
    run recorder [.call i .cancel, .call i .release] s =
      ([], { s with flusher := s.flusher.release }.withPhase i (.ended none))
  /-- However a call comes to be over, the mark is clear then. -/
  clears : ∀ i move, (s.phase i).inFlight = true →
    ((s.step recorder move).2.phase i).inFlight = false →
    (s.step recorder move).2.flusher.running = false
  /-- A call takes what is queued once at most, and hands over what it took, each batch once at most. -/
  owns : ∀ i, (drainsOf events i).length ≤ 1 ∧ (handedBy events i).Subperm (drainsOf events i).flatten
  /-- What was accepted under a tag is what calls took and what is still queued, in the same order. -/
  pieces : ∀ tag, (history events).accepted tag =
    ((history events).handed tag).flatten ++ s.flusher.queues.held tag
  /-- So if no record was accepted twice, a record that one call took is handed over by no other. -/
  apart : ∀ tag, ((history events).accepted tag).Nodup → ∀ i j taken handed item,
    (tag, taken) ∈ (drainsOf events i).flatten → item ∈ taken →
    (tag, handed) ∈ handedBy events j → item ∈ handed → i = j

/-- **Passes are single-flight**: at every moment, of any number of calls, however their steps are
interleaved with each other and with pushes, and wherever some of them are cut off. -/
theorem single_flight (size : UInt64) (recorder : ι → Recorder) (schedule : List (Move ι α)) :
    SingleFlight recorder (run recorder schedule (.start size)).1
      (run recorder schedule (.start size)).2 := by
  have hexclusive := Exclusive.run size recorder schedule
  have haccounts := accounts_run recorder size schedule
  obtain ⟨steps, hsteps⟩ := exists_history_run recorder size schedule
  generalize run recorder schedule (.start size) = r at hexclusive haccounts hsteps ⊢
  obtain ⟨events, s⟩ := r
  have hpieces : ∀ tag, (history events).accepted tag =
      ((history events).handed tag).flatten ++ s.flusher.queues.held tag := by
    intro tag
    have hnew : (FanIn.new size : FanIn ClientTag α).WellFormed := FanIn.wellFormed_of_queues_eq_nil rfl
    have hheld := hnew.held_append_accepted steps tag
    rw [hsteps, FanIn.held_new, List.nil_append] at hheld
    exact hheld
  exact {
    alone := hexclusive.alone
    running_iff := hexclusive.running_iff
    skips := fun i => step_acquire_of_running
    silent := by
      intro i hskipped
      have hi := haccounts i
      rw [hskipped] at hi
      exact hi
    stays_ended := fun i outcome act h => step_of_ended h act
    begins := by
      intro i hidle hnone
      refine step_acquire_of_clear hidle ?_
      rw [Bool.eq_false_iff]
      intro hset
      obtain ⟨j, hj⟩ := hexclusive.running_iff.mp hset
      cases (hnone j).symm.trans hj
    completes := fun i batches => run_finish recorder
    cutOff := fun i => run_cancel
    clears := fun i move => running_of_landed
    owns := fun i => (haccounts i).subperm
    pieces := hpieces
    apart := by
      intro tag hnodup i j taken handed item htaken hitem hhanded hitem'
      rw [hpieces tag] at hnodup
      -- what `j` handed over it took itself
      have hown : (tag, handed) ∈ (drainsOf events j).flatten :=
        (haccounts j).subperm.2.subset hhanded
      exact eq_of_taken hnodup.of_append_left htaken hown hitem hitem' }

end FlagSidecar.Flusher.Calls
