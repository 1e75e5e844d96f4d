import FlagSidecar.Service.Acceptor

/-!
# FlagSidecar.Proofs.Service.Acceptor: what an acceptor and its tasks can do next

A step is the acceptor's own, which depends on its phase, or a task's, which goes from its stage to the next
one. A task is running from the step that begins it to the one that ends its handler, and no other step
changes which tasks are.

An acceptor that drains has closed its listener, and one that has returned has joined its tasks, so nothing
happens after it.

Main statements: `Acceptor.Steps.of_step?`, `Acceptor.Leaving.step`.
-/

namespace FlagSidecar.Acceptor

variable {a a' : Acceptor} {event : Option AcceptorEvent} {events : List AcceptorEvent}

/-! ## One step -/

/-- **What one step of the acceptor itself can be.** -/
inductive Advances (a : Acceptor) : AcceptorStep → Option AcceptorEvent → Acceptor → Prop
  | take (h : a.phase = .accepting) :
    Advances a .take (some (.taken a.nextId)) { a with nextId := a.nextId + 1, phase := .seating a.nextId }
  | stumble (h : a.phase = .accepting) : Advances a .stumble none a
  | fail (h : a.phase = .accepting) (e : IoError) :
    Advances a (.fail e) none { a with phase := .closing (some e) }
  | grant {id} (h : a.phase = .seating id) (hfree : 0 < a.free) :
    Advances a .grant none { a with free := a.free - 1, phase := .granted id }
  | expire {id} (h : a.phase = .seating id) :
    Advances a .expire (some (.rejected id)) { a with rejected := a.rejected + 1, phase := .accepting }
  | countAccepted {id} (h : a.phase = .granted id) :
    Advances a .countAccepted (some (.admitted id))
      { a with accepted := a.accepted + 1, phase := .admitted id }
  | countActive {id} (h : a.phase = .admitted id) :
    Advances a .countActive none { a with active := a.active + 1, phase := .activated id }
  | spawn {id} (h : a.phase = .activated id) :
    Advances a .spawn none { a with tasks := a.tasks ++ [⟨id, .running⟩], phase := .accepting }
  | stop (h : a.phase = .accepting) : Advances a .stop none { a with phase := .closing none }
  /-- Shutdown comes while a socket waits. -/
  | drop {id} (h : a.phase = .seating id) :
    Advances a .stop (some (.dropped id)) { a with phase := .closing none }
  | close {failure} (h : a.phase = .closing failure) :
    Advances a .close none { a with listening := false, phase := .draining failure }
  | giveUp {failure} (h : a.phase = .draining failure) :
    Advances a .giveUp none { a with phase := .aborting failure }
  | conclude {failure} (h : a.phase = .draining failure ∨ a.phase = .aborting failure)
    (hall : ∀ t ∈ a.tasks, t.stage = .joined) :
    Advances a .conclude none { a with phase := .returned failure }

/-- **What one step of a task can be.** -/
inductive Proceeds (a : Acceptor) (task : Nat) : AcceptorStep → Option AcceptorEvent → Acceptor → Prop
  | finish {id} (h : a.tasks[task]? = some ⟨id, .running⟩) (how : TaskEnding)
    (hcut : how = .aborted → a.phase.cutsOff = true) :
    Proceeds a task (.finish task how) (some (.ended task how)) (a.withTask task id .ended)
  | discount {id} (h : a.tasks[task]? = some ⟨id, .ended⟩) :
    Proceeds a task (.discount task) none
      { a.withTask task id .discounted with active := a.active - 1 }
  | release {id} (h : a.tasks[task]? = some ⟨id, .discounted⟩) :
    Proceeds a task (.release task) (some (.released task))
      { a.withTask task id .released with free := a.free + 1 }
  | join {id} (h : a.tasks[task]? = some ⟨id, .released⟩) :
    Proceeds a task (.join task) none (a.withTask task id .joined)

/-- What one step can be. -/
inductive Steps (a : Acceptor) : AcceptorStep → Option AcceptorEvent → Acceptor → Prop
  | advance {s event a'} (h : Advances a s event a') : Steps a s event a'
  | proceed {s event a'} (task : Nat) (h : Proceeds a task s event a') : Steps a s event a'

/-- An acceptor returns if all its tasks are over. -/
theorem advances_of_conclude {failure : Option IoError}
    (hphase : a.phase = .draining failure ∨ a.phase = .aborting failure)
    (h : (if a.tasks.all (·.stage = .joined) then some (none, { a with phase := .returned failure })
      else none) = some (event, a')) : Advances a .conclude event a' := by
  split at h
  next hall =>
    cases h
    exact .conclude hphase fun t ht => of_decide_eq_true (List.all_eq_true.mp hall t ht)
  next => cases h

theorem advances_of_advance? {s : AcceptorStep} (h : a.advance? s a.phase = some (event, a')) :
    Advances a s event a' := by
  generalize hphase : a.phase = phase at h
  cases s with
  | take =>
    cases phase with
    | accepting => cases h; exact .take hphase
    | _ => cases h
  | stumble =>
    cases phase with
    | accepting => cases h; exact .stumble hphase
    | _ => cases h
  | fail e =>
    cases phase with
    | accepting =>
      replace h : (if e = .connectionReset then none
        else some (none, { a with phase := .closing (some e) })) = some (event, a') := h
      split at h
      next => cases h
      next => cases h; exact .fail hphase e
    | _ => cases h
  | grant =>
    cases phase with
    | seating id =>
      replace h : (if 0 < a.free then some (none, { a with free := a.free - 1, phase := .granted id })
        else none) = some (event, a') := h
      split at h
      next hfree => cases h; exact .grant hphase hfree
      next => cases h
    | _ => cases h
  | expire =>
    cases phase with
    | seating id => cases h; exact .expire hphase
    | _ => cases h
  | countAccepted =>
    cases phase with
    | granted id => cases h; exact .countAccepted hphase
    | _ => cases h
  | countActive =>
    cases phase with
    | admitted id => cases h; exact .countActive hphase
    | _ => cases h
  | spawn =>
    cases phase with
    | activated id => cases h; exact .spawn hphase
    | _ => cases h
  | stop =>
    cases phase with
    | accepting => cases h; exact .stop hphase
    | seating id => cases h; exact .drop hphase
    | _ => cases h
  | close =>
    cases phase with
    | closing failure => cases h; exact .close hphase
    | _ => cases h
  | giveUp =>
    cases phase with
    | draining failure => cases h; exact .giveUp hphase
    | _ => cases h
  | conclude =>
    cases phase with
    | draining failure => exact advances_of_conclude (.inl hphase) h
    | aborting failure => exact advances_of_conclude (.inr hphase) h
    | _ => cases h
  | finish task how => cases h
  | discount task => cases h
  | release task => cases h
  | join task => cases h

theorem Steps.of_step? {s : AcceptorStep} (h : a.step? s = some (event, a')) : Steps a s event a' := by
  unfold step? at h
  split at h
  next task how =>
    split at h
    next id hget =>
      split at h
      next => cases h
      next hcut =>
        cases h
        refine .proceed task (.finish hget how fun haborted => ?_)
        rw [← Bool.not_eq_false]
        exact fun hcuts => hcut ⟨haborted, hcuts⟩
    next => cases h
  next task =>
    split at h
    next id hget => cases h; exact .proceed task (.discount hget)
    next => cases h
  next task =>
    split at h
    next id hget => cases h; exact .proceed task (.release hget)
    next => cases h
  next task =>
    split at h
    next id hget =>
      split at h
      next => cases h; exact .proceed task (.join hget)
      next => cases h
    next => cases h
  next => exact .advance (advances_of_advance? h)

/-- **A step is one of these, or does nothing.** -/
theorem step_cases (a : Acceptor) (s : AcceptorStep) :
    a.step s = ([], a) ∨ ∃ event a', Steps a s event a' ∧ a.step s = (event.toList, a') := by
  unfold step
  cases h : a.step? s with
  | none => exact .inl rfl
  | some result => exact .inr ⟨result.1, result.2, .of_step? h, rfl⟩

/-! ## Runs -/

/-- **Induction along a run.** What holds at the start and is kept by every possible step holds after
every run. -/
theorem run_induction {motive : List AcceptorEvent → Acceptor → Prop} (start : motive [] a)
    (step : ∀ {events a s event a'}, Steps a s event a' → motive events a →
      motive (events ++ event.toList) a')
    (steps : List AcceptorStep) : motive (run steps a).1 (run steps a).2 := by
  refine runSteps_induction start (fun {events a} s h => ?_) steps
  obtain heq | ⟨event, a', hstep, heq⟩ := step_cases a s
  · rw [heq, List.append_nil]
    exact h
  · rw [heq]
    exact step hstep h

/-! ## Running tasks -/

theorem isRunning_of_getElem? {task : Nat} {id : ConnectionId} {stage : TaskStage}
    (h : a.tasks[task]? = some ⟨id, stage⟩) : a.isRunning task = decide (stage = .running) := by
  rw [isRunning, h]
  cases stage <;> rfl

theorem isRunning_withTask_self {task : Nat} {id : ConnectionId} {before : TaskStage}
    (h : a.tasks[task]? = some ⟨id, before⟩) (after : TaskStage) :
    (a.withTask task id after).isRunning task = decide (after = .running) :=
  isRunning_of_getElem? (List.getElem?_set_self (List.getElem?_eq_some_iff.mp h).1)

theorem isRunning_withTask_of_ne {task other : Nat} (hne : task ≠ other) (id : ConnectionId)
    (after : TaskStage) : (a.withTask task id after).isRunning other = a.isRunning other := by
  have hget : (a.withTask task id after).tasks[other]? = a.tasks[other]? := List.getElem?_set_ne hne
  rw [isRunning, isRunning, hget]

theorem length_withTask (task : Nat) (id : ConnectionId) (stage : TaskStage) :
    (a.withTask task id stage).tasks.length = a.tasks.length := List.length_set

/-- Only a step in which a task begins, or its handler ends, changes which tasks are running. -/
theorem Steps.isRunning_eq {s : AcceptorStep} (h : Steps a s event a') (hspawn : s ≠ .spawn)
    (hfinish : ∀ task how, s ≠ .finish task how) :
    a'.tasks.length = a.tasks.length ∧ ∀ task, a'.isRunning task = a.isRunning task := by
  -- a task that goes from one stage to another and runs in neither
  have hwithTask : ∀ {task id before after}, a.tasks[task]? = some ⟨id, before⟩ → before ≠ .running →
      after ≠ .running → ∀ other, (a.withTask task id after).isRunning other = a.isRunning other := by
    intro task id before after hget hbefore hafter other
    by_cases hne : task = other
    · subst hne
      rw [isRunning_withTask_self hget, isRunning_of_getElem? hget, decide_eq_false hbefore,
        decide_eq_false hafter]
    · exact isRunning_withTask_of_ne hne id after
  cases h with
  | advance hstep =>
    cases hstep with
    | spawn hphase => exact absurd rfl hspawn
    | _ => exact ⟨rfl, fun _ => rfl⟩
  | proceed task hstep =>
    cases hstep with
    | finish hget how hcut => exact absurd rfl (hfinish _ _)
    | discount hget => exact ⟨length_withTask .., hwithTask hget nofun nofun⟩
    | release hget => exact ⟨length_withTask .., hwithTask hget nofun nofun⟩
    | join hget => exact ⟨length_withTask .., hwithTask hget nofun nofun⟩

/-- A task that begins is running, and all others are as they were. -/
theorem Steps.spawn_eq (h : Steps a .spawn event a') : event = none ∧
    ∃ id, a'.tasks = a.tasks ++ [⟨id, .running⟩] := by
  cases h with
  | advance hstep =>
    cases hstep with
    | spawn hphase => exact ⟨rfl, _, rfl⟩
  | proceed task hstep => cases hstep

/-- A task that was there runs on, or not, when another begins. -/
theorem isRunning_of_append {task : Nat} {more : List ConnectionTask} (htasks : a'.tasks = a.tasks ++ more)
    (hlt : task < a.tasks.length) : a'.isRunning task = a.isRunning task := by
  rw [isRunning, isRunning, htasks, List.getElem?_append_left hlt]

/-- Nothing else is noticed as the end of a handler. -/
theorem Steps.eq_finish {s : AcceptorStep} {task : Nat} {how : TaskEnding}
    (h : Steps a s (some (.ended task how)) a') : s = .finish task how := by
  cases h with
  | advance hstep => cases hstep
  | proceed other hstep =>
    cases hstep with
    | finish hget how hcut => rfl

/-- A handler that ends was running. -/
theorem Steps.finish_eq {task : Nat} {how : TaskEnding} (h : Steps a (.finish task how) event a') :
    event = some (.ended task how) ∧ a.isRunning task = true ∧ a'.isRunning task = false ∧
      a'.tasks.length = a.tasks.length ∧ ∀ other, task ≠ other → a'.isRunning other = a.isRunning other := by
  cases h with
  | advance hstep => cases hstep
  | proceed other hstep =>
    cases hstep with
    | finish hget how hcut =>
      exact ⟨rfl, isRunning_of_getElem? hget, isRunning_withTask_self hget _, length_withTask ..,
        fun other hne => isRunning_withTask_of_ne hne _ _⟩

/-! ## The end -/

/-- **An acceptor that has returned has joined its tasks**, and one that drains has closed its listener. -/
structure Leaving (a : Acceptor) : Prop where
  closed : a.listening = !a.phase.isClosed
  joined : ∀ failure, a.phase = .returned failure → ∀ t ∈ a.tasks, t.stage = .joined

namespace Leaving

theorem start (limit : Nat) : Leaving { limit } := ⟨rfl, nofun⟩

theorem advance {s : AcceptorStep} (h : a.Leaving) (hstep : Advances a s event a') : a'.Leaving := by
  have hclosed := h.closed
  cases hstep with
  | take hphase => exact ⟨by rw [hclosed, hphase]; rfl, nofun⟩
  | stumble hphase => exact h
  | fail hphase e => exact ⟨by rw [hclosed, hphase]; rfl, nofun⟩
  | grant hphase hfree => exact ⟨by rw [hclosed, hphase]; rfl, nofun⟩
  | expire hphase => exact ⟨by rw [hclosed, hphase]; rfl, nofun⟩
  | countAccepted hphase => exact ⟨by rw [hclosed, hphase]; rfl, nofun⟩
  | countActive hphase => exact ⟨by rw [hclosed, hphase]; rfl, nofun⟩
  | spawn hphase => exact ⟨by rw [hclosed, hphase]; rfl, nofun⟩
  | stop hphase => exact ⟨by rw [hclosed, hphase]; rfl, nofun⟩
  | drop hphase => exact ⟨by rw [hclosed, hphase]; rfl, nofun⟩
  | close hphase => exact ⟨rfl, nofun⟩
  | giveUp hphase => exact ⟨by rw [hclosed, hphase]; rfl, nofun⟩
  | conclude hphase hall =>
    refine ⟨?_, fun _ _ => hall⟩
    rw [hclosed]
    obtain hphase | hphase := hphase <;> rw [hphase] <;> rfl

/-- A task that takes a step is not joined before it. -/
theorem not_returned_of_proceeds {s : AcceptorStep} {task : Nat} (h : a.Leaving)
    (hstep : Proceeds a task s event a') (failure : Option IoError) : a.phase ≠ .returned failure := by
  intro hphase
  have hjoined : ∀ {id stage}, a.tasks[task]? = some ⟨id, stage⟩ → stage = .joined :=
    fun hget => h.joined failure hphase _ (List.mem_of_getElem? hget)
  cases hstep with
  | finish hget how hcut => cases hjoined hget
  | discount hget => cases hjoined hget
  | release hget => cases hjoined hget
  | join hget => cases hjoined hget

/-- No handler goes on when the acceptor has returned. -/
theorem isRunning_eq_false (h : a.Leaving) {failure : Option IoError} (hphase : a.phase = .returned failure)
    (task : Nat) : a.isRunning task = false := by
  rw [isRunning]
  cases hget : a.tasks[task]? with
  | none => rfl
  | some t =>
    obtain ⟨id, stage⟩ := t
    obtain rfl : stage = .joined := h.joined failure hphase _ (List.mem_of_getElem? hget)
    rfl

/-- An acceptor that has returned takes no more steps, and neither do its tasks. -/
theorem not_steps (h : a.Leaving) {failure : Option IoError} (hphase : a.phase = .returned failure)
    {s : AcceptorStep} : ¬ Steps a s event a' := by
  intro hsteps
  cases hsteps with
  | proceed task hstep => exact h.not_returned_of_proceeds hstep failure hphase
  | advance hstep =>
    cases hstep with
    | conclude hother hall =>
      obtain hother | hother := hother
      · cases hother.symm.trans hphase
      · cases hother.symm.trans hphase
    | _ hother => cases hother.symm.trans hphase

theorem proceed {s : AcceptorStep} {task : Nat} (h : a.Leaving) (hstep : Proceeds a task s event a') :
    a'.Leaving := by
  have hnot := h.not_returned_of_proceeds hstep
  cases hstep with
  | finish hget how hcut => exact ⟨h.closed, fun failure hphase => absurd hphase (hnot failure)⟩
  | discount hget => exact ⟨h.closed, fun failure hphase => absurd hphase (hnot failure)⟩
  | release hget => exact ⟨h.closed, fun failure hphase => absurd hphase (hnot failure)⟩
  | join hget => exact ⟨h.closed, fun failure hphase => absurd hphase (hnot failure)⟩

theorem step {s : AcceptorStep} (h : a.Leaving) (hstep : Steps a s event a') : a'.Leaving := by
  cases hstep with
  | advance hstep => exact h.advance hstep
  | proceed task hstep => exact h.proceed hstep

end Leaving

end FlagSidecar.Acceptor
