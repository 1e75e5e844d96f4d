import FlagSidecar.Proofs.Flush.Loop
import FlagSidecar.Proofs.Service.Acceptor
import FlagSidecar.Service.Tasks

/-!
# FlagSidecar.Proofs.Service.Tasks: what the tasks of a daemon keep

The task of a connection takes steps as long as the acceptor counts it as running. What a message leads to
is carried out before the next message is received, and what was appended is counted before the answer is
sent; a task that was cut off was doing neither.

Main statements: `DaemonTasks.Happens.of_step?`, `DaemonTasks.run_turn`.
-/

namespace FlagSidecar.DaemonTasks

variable {σ : Type} {env : Surroundings σ} {s s' : DaemonTasks σ} {events : List DaemonEvent}

/-! ## One step -/

/-- **What the daemon itself can do next.** -/
inductive GoesOn (s : DaemonTasks σ) : DaemonTasks σ → Prop
  | served {failure} (h : s.stage = .serving) (hphase : s.acceptor.phase = .returned failure)
    (c : Coordinator) : GoesOn s { s with shutdown := c, stage := .served }
  | tell (h : s.stage = .served) :
    GoesOn s { s with flushStop := (s.flushStop.initiate .programmatic).2, stage := .flushing }
  | joinImpressions {outcome} (h : s.stage = .flushing) (hended : s.impressions.stage = .ended outcome) :
    GoesOn s { s with stage := .flushingEvents }
  | joinEvents {outcome} (h : s.stage = .flushingEvents) (hended : s.events.stage = .ended outcome) :
    GoesOn s { s with stage := .flushed }
  | conclude (h : s.stage = .flushed) : GoesOn s { s with stage := .returned s.outcome }

theorem goesOn_of_goOn? (h : s.goOn? = some s') : GoesOn s s' := by
  unfold goOn? at h
  split at h
  next hstage =>
    split at h
    next hphase => cases h; exact .served hstage hphase _
    next hphase => cases h; exact .served hstage hphase _
    next => cases h
  next hstage => cases h; exact .tell hstage
  next hstage =>
    split at h
    next hended => cases h; exact .joinImpressions hstage hended
    next => cases h
  next hstage =>
    split at h
    next hended => cases h; exact .joinEvents hstage hended
    next => cases h
  next hstage => cases h; exact .conclude hstage
  next => cases h

/-- **What one step can be.** -/
inductive Happens (env : Surroundings σ) (s : DaemonTasks σ) :
    List DaemonEvent → DaemonTasks σ → Prop
  /-- Shutdown is initiated, or looked for by the acceptor. -/
  | shutdown (c : Coordinator) : Happens env s [] { s with shutdown := c }
  /-- The task of a connection begins. -/
  | spawn {event a} (h : s.acceptor.Steps .spawn event a) :
    Happens env s (event.toList.map .acceptor)
      { s with acceptor := a, work := s.work ++ [.listening { link := env.socket s.work.length }] }
  | finish {task how work event a} (hwork : s.work[task]? = some work) (hmay : work.mayEnd how = true)
    (h : s.acceptor.Steps (.finish task how) event a) :
    Happens env s (event.toList.map .acceptor) { s with acceptor := a }
  /-- Any other step of the acceptor, or of a task as far as the acceptor is concerned. -/
  | acceptor {step event a} (hspawn : step ≠ .spawn) (hfinish : ∀ task how, step ≠ .finish task how)
    (h : s.acceptor.Steps step event a) :
    Happens env s (event.toList.map .acceptor) { s with acceptor := a }
  | receive {task c} (h : s.running? task = some (.listening c)) (now : Int64) :
    Happens env s ((DaemonTasks.receive env now c).1.toList.map (.decided task))
      (s.withWork task (DaemonTasks.receive env now c).2)
  /-- What is decided is carried out: impressions are appended, -/
  | record {task c tag items payload} (h : s.running? task = some (.deciding c (.record tag items payload))) :
    Happens env s
      [.performed task (.record tag items payload), .impressions (s.impressions.append tag items).2.1]
      ({ s with impressions := (s.impressions.append tag items).2.2 }.withWork task
        (.counting c (s.records.perform (.record tag items payload)).1 .impressions items.length
          (s.impressions.append tag items).1))
  /-- or an event is, -/
  | track {task c tag event} (h : s.running? task = some (.deciding c (.track tag event))) :
    Happens env s [.performed task (.track tag event), .events (s.events.append tag [event]).2.1]
      ({ s with events := (s.events.append tag [event]).2.2 }.withWork task
        (.counting c (s.records.perform (.track tag event)).1 .events 1 (s.events.append tag [event]).1))
  /-- or nothing is. -/
  | perform {task c action} (h : s.running? task = some (.deciding c action))
    (himpressions : action.impressions? = none) (hevent : action.event? = none) :
    Happens env s [.performed task action]
      (s.withWork task (.answering c (s.records.perform action).1))
  | count {task c reply kind offered result}
    (h : s.running? task = some (.counting c reply kind offered result)) :
    Happens env s [] ((s.tally offered result kind).withWork task (.answering c reply))
  | answer {task c reply} (h : s.running? task = some (.answering c reply)) :
    Happens env s [] (s.withWork task (.listening (c.reply env.wire reply)))
  | flusherLooks (kind : RecordKind) (look : Look) :
    Happens env s [] { s with flushStop := s.flushStop.look kind.listener look }
  | flushImpressions {step events loop}
    (hstop : step = .stop → s.flushStop.hasResolved RecordKind.impressions.listener = true)
    (h : s.impressions.Goes (env.recorder .impressions) step events loop) :
    Happens env s (events.map .impressions) { s with impressions := loop }
  | flushEvents {step events loop}
    (hstop : step = .stop → s.flushStop.hasResolved RecordKind.events.listener = true)
    (h : s.events.Goes (env.recorder .events) step events loop) :
    Happens env s (events.map .events) { s with events := loop }
  /-- The daemon itself goes on. -/
  | goOn {next} (h : GoesOn s next) : Happens env s [] next

theorem Happens.of_stepAcceptor? {step : AcceptorStep} (h : s.stepAcceptor? env step = some (events, s')) :
    Happens env s events s' := by
  unfold stepAcceptor? at h
  split at h
  next hpermits =>
    split at h
    next => cases h
    next event a hstep =>
      have hsteps := Acceptor.Steps.of_step? hstep
      by_cases hspawn : step = .spawn
      · subst hspawn
        cases h
        exact .spawn hsteps
      · cases step with
        | spawn => exact absurd rfl hspawn
        | finish task how =>
          cases h
          simp only [permits] at hpermits
          split at hpermits
          next work hwork => exact .finish hwork hpermits hsteps
          next => cases hpermits
        | _ =>
          cases h
          exact .acceptor hspawn nofun hsteps
  next => cases h

theorem Happens.of_stepFlusher? {kind : RecordKind} {step : Flusher.LoopStep}
    (hstop : step = .stop → s.flushStop.hasResolved kind.listener = true)
    (h : s.stepFlusher? env step kind = some (events, s')) : Happens env s events s' := by
  unfold stepFlusher? at h
  split at h
  next =>
    split at h
    next => cases h
    next hstep =>
      cases h
      exact .flushImpressions hstop (Flusher.Loop.goes_of_step? hstep)
  next =>
    split at h
    next => cases h
    next hstep =>
      cases h
      exact .flushEvents hstop (Flusher.Loop.goes_of_step? hstep)

theorem Happens.of_step? {move : DaemonStep} (h : s.step? env move = some (events, s')) :
    Happens env s events s' := by
  unfold step? at h
  split at h
  next => cases h; exact .shutdown _
  next => cases h; exact .shutdown _
  next => exact .of_stepAcceptor? h
  next task now =>
    split at h
    next c hrunning =>
      split at h
      next => cases h; exact .receive hrunning now
      next => cases h
    next => cases h
  next =>
    split at h
    next c action hrunning =>
      cases action with
      | record tag items payload => cases h; exact .record hrunning
      | track tag event => cases h; exact .track hrunning
      | _ => cases h; exact .perform hrunning rfl rfl
    next => cases h
  next =>
    split at h
    next hrunning => cases h; exact .count hrunning
    next => cases h
  next =>
    split at h
    next hrunning => cases h; exact .answer hrunning
    next => cases h
  next => cases h; exact .flusherLooks _ _
  next =>
    split at h
    next hresolved => exact .of_stepFlusher? (fun _ => hresolved) h
    next => cases h
  next hnot => exact .of_stepFlusher? (fun hstop => absurd hstop hnot) h
  next =>
    obtain ⟨next, hnext, heq⟩ := Option.map_eq_some_iff.mp h
    cases heq
    exact .goOn (goesOn_of_goOn? hnext)

theorem step_cases (env : Surroundings σ) (s : DaemonTasks σ) (move : DaemonStep) :
    s.step env move = ([], s) ∨ ∃ events s', Happens env s events s' ∧ s.step env move = (events, s') := by
  unfold step
  cases h : s.step? env move with
  | none => exact .inl rfl
  | some result => exact .inr ⟨result.1, result.2, .of_step? h, rfl⟩

/-! ## Runs -/

theorem run_cons (move : DaemonStep) (schedule : List DaemonStep) (s : DaemonTasks σ) :
    run env (move :: schedule) s =
      ((s.step env move).1 ++ (run env schedule (s.step env move).2).1,
        (run env schedule (s.step env move).2).2) := rfl

theorem run_singleton (move : DaemonStep) (s : DaemonTasks σ) : run env [move] s = s.step env move :=
  runSteps_singleton move s

/-- **Induction along a run.** What holds at the start and is kept by every possible step holds after
every run. -/
theorem run_induction {motive : List DaemonEvent → DaemonTasks σ → Prop} (start : motive [] s)
    (step : ∀ {events s more s'}, Happens env s more s' → motive events s → motive (events ++ more) s')
    (schedule : List DaemonStep) : motive (run env schedule s).1 (run env schedule s).2 := by
  refine runSteps_induction start (fun {events s} move h => ?_) schedule
  obtain heq | ⟨more, s', hstep, heq⟩ := step_cases env s move
  · rw [heq, List.append_nil]
    exact h
  · rw [heq]
    exact step hstep h

/-! ## The tasks of connections -/

theorem running?_eq_some {task : Nat} {work : Work σ} (h : s.running? task = some work) :
    s.acceptor.isRunning task = true ∧ s.work[task]? = some work := by
  unfold running? at h
  split at h
  next hrunning => exact ⟨hrunning, h⟩
  next => cases h

/-- Nothing is left of a list that is mapped to what is left out. -/
theorem filterMap_map_eq_nil {α β γ : Type} {f : α → β} {g : β → Option γ} (h : ∀ x, g (f x) = none)
    {xs : List α} : (xs.map f).filterMap g = [] := by
  rw [List.filterMap_map, List.filterMap_eq_nil_iff]
  exact fun x _ => h x

section Events

variable (task : Nat) (events more : List DaemonEvent)

@[simp]
theorem decidedBy_append : decidedBy (events ++ more) task = decidedBy events task ++ decidedBy more task :=
  List.filterMap_append

@[simp]
theorem performedBy_append :
    performedBy (events ++ more) task = performedBy events task ++ performedBy more task :=
  List.filterMap_append

variable {task} {other : Nat} (action : Action)

theorem decidedBy_cons_self :
    decidedBy (.decided task action :: events) task = action :: decidedBy events task :=
  List.filterMap_cons_some (if_pos rfl)

theorem decidedBy_cons_of_ne (hne : task ≠ other) :
    decidedBy (.decided task action :: events) other = decidedBy events other :=
  List.filterMap_cons_none (if_neg hne)

theorem performedBy_cons_self :
    performedBy (.performed task action :: events) task = action :: performedBy events task :=
  List.filterMap_cons_some (if_pos rfl)

theorem performedBy_cons_of_ne (hne : task ≠ other) :
    performedBy (.performed task action :: events) other = performedBy events other :=
  List.filterMap_cons_none (if_neg hne)

end Events

/-! ## The queues -/

section Queues

variable (events more : List DaemonEvent)

@[simp]
theorem impressionEvents_append :
    impressionEvents (events ++ more) = impressionEvents events ++ impressionEvents more :=
  List.filterMap_append

@[simp]
theorem eventEvents_append : eventEvents (events ++ more) = eventEvents events ++ eventEvents more :=
  List.filterMap_append

@[simp]
theorem impressionCalls_append :
    impressionCalls (events ++ more) = impressionCalls events ++ impressionCalls more :=
  List.filterMap_append

@[simp]
theorem eventCalls_append : eventCalls (events ++ more) = eventCalls events ++ eventCalls more :=
  List.filterMap_append

/-- What comes of a step of the flusher of impressions. -/
theorem impressionEvents_map (xs : List (Flusher.LoopEvent Impression)) :
    impressionEvents (xs.map .impressions) = xs := by
  rw [impressionEvents, List.filterMap_map]
  exact List.filterMap_some

theorem impressionCalls_map (xs : List (Flusher.LoopEvent Impression)) :
    impressionCalls (xs.map .impressions) = xs.filterMap Flusher.LoopEvent.drain? := by
  rw [impressionCalls, List.filterMap_map]
  rfl

/-- What comes of a step of the flusher of events. -/
theorem eventEvents_map (xs : List (Flusher.LoopEvent Event)) : eventEvents (xs.map .events) = xs := by
  rw [eventEvents, List.filterMap_map]
  exact List.filterMap_some

theorem eventCalls_map (xs : List (Flusher.LoopEvent Event)) :
    eventCalls (xs.map .events) = xs.filterMap Flusher.LoopEvent.drain? := by
  rw [eventCalls, List.filterMap_map]
  rfl

end Queues

/-! ## What is left to do -/

/-- A task decides what a message leads to, and that is what it has to carry out. -/
theorem due?_receive (env : Surroundings σ) (now : Int64) (c : Connection σ) :
    (receive env now c).2.due? = (receive env now c).1 := by
  show (consider env now _ _).2.due? = (consider env now _ _).1
  unfold consider
  split
  next => rfl
  next => split <;> rfl

/-- A handler that ends has nothing to count, and nothing to carry out if it did not panic. -/
theorem of_mayEnd {work : Work σ} {how : TaskEnding} (h : work.mayEnd how = true) :
    (∀ kind, work.uncounted kind = 0) ∧ (how ≠ .panicked → work.due? = none) := by
  cases work with
  | listening c => exact ⟨fun _ => rfl, fun _ => rfl⟩
  | answering c reply => exact ⟨fun _ => rfl, fun _ => rfl⟩
  | counting c reply kind offered result => cases how <;> cases h
  | deciding c action =>
    refine ⟨fun _ => rfl, fun hnot => ?_⟩
    cases how with
    | panicked => exact absurd rfl hnot
    | completed => cases h
    | aborted => cases h

/-- **What connections have decided they carry out, and what they append they count**, unless they panic. -/
structure Tidy (events : List DaemonEvent) (s : DaemonTasks σ) : Prop where
  length : s.work.length = s.acceptor.tasks.length
  /-- Every task carries out what it decides, the one thing apart that it decided last. -/
  decided : ∀ task, decidedBy events task = performedBy events task ++ s.due task
  /-- A task that has ended has nothing to count. -/
  counted : ∀ task work, s.work[task]? = some work → s.acceptor.isRunning task = false →
    ∀ kind, work.uncounted kind = 0
  /-- If it did not panic it has nothing to carry out. -/
  ended : ∀ task how, .acceptor (.ended task how) ∈ events → task < s.work.length ∧
    s.acceptor.isRunning task = false ∧ (how ≠ .panicked → s.due task = [])

namespace Tidy

theorem start (limit : Nat) (impressionsSize eventsSize : UInt64) :
    Tidy [] (.start limit impressionsSize eventsSize : DaemonTasks σ) where
  length := rfl
  decided _ := rfl
  counted _ _ h := nomatch h
  ended _ _ h := nomatch h

/-- The daemon, the flushers and listeners do nothing to connections. -/
theorem congr (h : Tidy events s) {more : List DaemonEvent} (hacceptor : s'.acceptor = s.acceptor)
    (hwork : s'.work = s.work) (hdecided : ∀ task, decidedBy more task = [])
    (hperformed : ∀ task, performedBy more task = [])
    (hended : ∀ task how, .acceptor (.ended task how) ∉ more) : Tidy (events ++ more) s' where
  length := by
    rw [hwork, hacceptor]
    exact h.length
  decided task := by
    rw [decidedBy_append, performedBy_append, hdecided, hperformed, List.append_nil, List.append_nil, due,
      hwork]
    exact h.decided task
  counted := by
    rw [hwork, hacceptor]
    exact h.counted
  ended task how hmem := by
    rw [due, hwork, hacceptor]
    exact h.ended task how ((List.mem_append.mp hmem).resolve_right (hended task how))

/-- A step of a running task, after which it does something else. -/
theorem withWork (h : Tidy events s) {task : Nat} {before after : Work σ}
    (hrunning : s.running? task = some before) {more : List DaemonEvent}
    (hended : ∀ task how, .acceptor (.ended task how) ∉ more)
    (hothers : ∀ other, task ≠ other → decidedBy more other = [] ∧ performedBy more other = [])
    (hself : before.due?.toList ++ decidedBy more task = performedBy more task ++ after.due?.toList)
    (hacceptor : s'.acceptor = s.acceptor) (hwork : s'.work = s.work.set task after) :
    Tidy (events ++ more) s' := by
  obtain ⟨hruns, hget⟩ := running?_eq_some hrunning
  have hdueSelf : s'.due task = after.due?.toList := by
    rw [due, hwork, List.getElem?_set_self (List.getElem?_eq_some_iff.mp hget).1]
    rfl
  have hdueOther : ∀ other, task ≠ other → s'.due other = s.due other := by
    intro other hne
    rw [due, due, hwork, List.getElem?_set_ne hne]
  constructor
  · rw [hwork, hacceptor, List.length_set]
    exact h.length
  · intro other
    rw [decidedBy_append, performedBy_append]
    by_cases hne : task = other
    · subst hne
      have hbefore := h.decided task
      rw [due, hget] at hbefore
      rw [hdueSelf, List.append_assoc, ← hself, hbefore, List.append_assoc]
      rfl
    · obtain ⟨hdecided, hperformed⟩ := hothers other hne
      rw [hdecided, hperformed, List.append_nil, List.append_nil, hdueOther other hne]
      exact h.decided other
  · intro other work hother hstopped
    rw [hacceptor] at hstopped
    have hne : task ≠ other := by
      rintro rfl
      cases hruns.symm.trans hstopped
    rw [hwork, List.getElem?_set_ne hne] at hother
    exact h.counted other work hother hstopped
  · intro other how hmem
    obtain ⟨hlt, hstopped, hdue⟩ :=
      h.ended other how ((List.mem_append.mp hmem).resolve_right (hended other how))
    have hne : task ≠ other := by
      rintro rfl
      cases hruns.symm.trans hstopped
    rw [hwork, hacceptor, List.length_set, hdueOther other hne]
    exact ⟨hlt, hstopped, hdue⟩

/-- A task begins that has nothing to carry out. -/
theorem spawn {a : Acceptor} (h : Tidy events s) {id : ConnectionId}
    (htasks : a.tasks = s.acceptor.tasks ++ [⟨id, .running⟩]) (c : Connection σ) :
    Tidy events { s with acceptor := a, work := s.work ++ [.listening c] } := by
  have hdue : ∀ task, due { s with acceptor := a, work := s.work ++ [.listening c] } task = s.due task := by
    intro task
    unfold due
    by_cases hlt : task < s.work.length
    · rw [List.getElem?_append_left hlt]
    · have hge := Nat.le_of_not_lt hlt
      rw [List.getElem?_append_right hge, List.getElem?_eq_none hge]
      cases task - s.work.length <;> rfl
  have hruns : ∀ task, task < s.work.length → a.isRunning task = s.acceptor.isRunning task :=
    fun task hlt => Acceptor.isRunning_of_append htasks (h.length ▸ hlt)
  constructor
  · show (s.work ++ [_]).length = a.tasks.length
    rw [htasks, List.length_append, List.length_append, h.length]
    rfl
  · intro task
    rw [hdue]
    exact h.decided task
  · intro task work hget hstopped
    by_cases hlt : task < s.work.length
    · refine h.counted task work ?_ ((hruns task hlt).symm.trans hstopped)
      rw [← hget]
      exact (List.getElem?_append_left hlt).symm
    · -- the new task listens
      replace hget : (s.work ++ [.listening c])[task]? = some work := hget
      rw [List.getElem?_append_right (Nat.le_of_not_lt hlt)] at hget
      rw [List.mem_singleton.mp (List.mem_of_getElem? hget)]
      exact fun _ => rfl
  · intro task how hmem
    obtain ⟨hlt, hstopped, hdone⟩ := h.ended task how hmem
    rw [hdue]
    exact ⟨Nat.lt_of_lt_of_le hlt (by simp), (hruns task hlt).trans hstopped, hdone⟩

/-- A handler ends where it can. -/
theorem finish {a : Acceptor} {task : Nat} {how : TaskEnding} {work : Work σ} (h : Tidy events s)
    (hwork : s.work[task]? = some work) (hmay : work.mayEnd how = true)
    (hruns : s.acceptor.isRunning task = true) (hstopped : a.isRunning task = false)
    (hlength : a.tasks.length = s.acceptor.tasks.length)
    (hothers : ∀ other, task ≠ other → a.isRunning other = s.acceptor.isRunning other) :
    Tidy (events ++ [.acceptor (.ended task how)]) { s with acceptor := a } := by
  obtain ⟨huncounted, hdue⟩ := of_mayEnd hmay
  constructor
  · exact h.length.trans hlength.symm
  · intro other
    rw [decidedBy_append, performedBy_append]
    show _ ++ [] = _ ++ [] ++ s.due other
    rw [List.append_nil, List.append_nil]
    exact h.decided other
  · intro other work' hget hother
    by_cases hne : task = other
    · subst hne
      obtain rfl : work = work' := Option.some.inj (hwork.symm.trans hget)
      exact huncounted
    · exact h.counted other work' hget ((hothers other hne).symm.trans hother)
  · intro other how' hmem
    rcases List.mem_append.mp hmem with hold | hnew
    · obtain ⟨hlt, hother, hdone⟩ := h.ended other how' hold
      have hne : task ≠ other := by
        rintro rfl
        cases hruns.symm.trans hother
      exact ⟨hlt, (hothers other hne).trans hother, hdone⟩
    · cases List.mem_singleton.mp hnew
      refine ⟨(List.getElem?_eq_some_iff.mp hwork).1, hstopped, fun hnot => ?_⟩
      show (s.work[task]?.bind Work.due?).toList = []
      rw [hwork]
      show work.due?.toList = []
      rw [hdue hnot]
      rfl

/-- Nothing else that the acceptor does matters to connections. -/
theorem acceptor {a : Acceptor} {more : List DaemonEvent} (h : Tidy events s)
    (hlength : a.tasks.length = s.acceptor.tasks.length)
    (hruns : ∀ task, a.isRunning task = s.acceptor.isRunning task)
    (hdecided : ∀ task, decidedBy more task = []) (hperformed : ∀ task, performedBy more task = [])
    (hended : ∀ task how, .acceptor (.ended task how) ∉ more) :
    Tidy (events ++ more) { s with acceptor := a } := by
  constructor
  · exact h.length.trans hlength.symm
  · intro task
    rw [decidedBy_append, performedBy_append, hdecided, hperformed, List.append_nil, List.append_nil]
    exact h.decided task
  · intro task work hget hstopped
    exact h.counted task work hget ((hruns task).symm.trans hstopped)
  · intro task how hmem
    obtain ⟨hlt, hstopped, hdue⟩ :=
      h.ended task how ((List.mem_append.mp hmem).resolve_right (hended task how))
    exact ⟨hlt, (hruns task).trans hstopped, hdue⟩

/-- **Every step keeps connections tidy.** -/
theorem step {more : List DaemonEvent} (h : Tidy events s) (hstep : Happens env s more s') :
    Tidy (events ++ more) s' := by
  cases hstep with
  | shutdown c => exact h.congr rfl rfl (fun _ => rfl) (fun _ => rfl) nofun
  | spawn hsteps =>
    obtain ⟨rfl, id, htasks⟩ := hsteps.spawn_eq
    rw [Option.toList_none, List.map_nil, List.append_nil]
    exact h.spawn htasks _
  | finish hwork hmay hsteps =>
    obtain ⟨rfl, hruns, hstopped, hlength, hothers⟩ := hsteps.finish_eq
    exact h.finish hwork hmay hruns hstopped hlength hothers
  | @acceptor step event a hspawn hfinish hsteps =>
    obtain ⟨hlength, hruns⟩ := hsteps.isRunning_eq hspawn hfinish
    refine h.acceptor hlength hruns ?_ ?_ ?_
    · intro task
      cases event <;> rfl
    · intro task
      cases event <;> rfl
    · intro task how hmem
      obtain ⟨e, he, heq⟩ := List.mem_map.mp hmem
      cases heq
      rw [Option.mem_toList] at he
      cases he
      exact hfinish task how hsteps.eq_finish
  | @receive task c hrunning now =>
    have hdue := due?_receive env now c
    refine h.withWork hrunning ?_ ?_ ?_ rfl rfl
    · intro other how hmem
      obtain ⟨action, -, heq⟩ := List.mem_map.mp hmem
      cases heq
    · intro other hne
      cases (DaemonTasks.receive env now c).1 with
      | none => exact ⟨rfl, rfl⟩
      | some action => exact ⟨decidedBy_cons_of_ne [] action hne, rfl⟩
    · rw [hdue]
      cases (DaemonTasks.receive env now c).1 with
      | none => rfl
      | some action => exact decidedBy_cons_self [] action
  | record hrunning =>
    refine h.withWork hrunning nofun (fun other hne => ⟨rfl, performedBy_cons_of_ne _ _ hne⟩) ?_ rfl rfl
    rw [performedBy_cons_self]
    rfl
  | track hrunning =>
    refine h.withWork hrunning nofun (fun other hne => ⟨rfl, performedBy_cons_of_ne _ _ hne⟩) ?_ rfl rfl
    rw [performedBy_cons_self]
    rfl
  | perform hrunning himpressions hevent =>
    refine h.withWork hrunning nofun (fun other hne => ⟨rfl, performedBy_cons_of_ne _ _ hne⟩) ?_ rfl rfl
    rw [performedBy_cons_self]
    rfl
  | @count task c reply kind offered result hrunning =>
    cases kind with
    | impressions => exact h.withWork hrunning nofun (fun _ _ => ⟨rfl, rfl⟩) rfl rfl rfl
    | events => exact h.withWork hrunning nofun (fun _ _ => ⟨rfl, rfl⟩) rfl rfl rfl
  | answer hrunning => exact h.withWork hrunning nofun (fun _ _ => ⟨rfl, rfl⟩) rfl rfl rfl
  | flusherLooks kind look => exact h.congr rfl rfl (fun _ => rfl) (fun _ => rfl) nofun
  | flushImpressions hstop hgoes =>
    refine h.congr rfl rfl (fun _ => ?_) (fun _ => ?_) ?_
    · exact filterMap_map_eq_nil fun _ => rfl
    · exact filterMap_map_eq_nil fun _ => rfl
    · intro task how hmem
      obtain ⟨event, -, heq⟩ := List.mem_map.mp hmem
      cases heq
  | flushEvents hstop hgoes =>
    refine h.congr rfl rfl (fun _ => ?_) (fun _ => ?_) ?_
    · exact filterMap_map_eq_nil fun _ => rfl
    · exact filterMap_map_eq_nil fun _ => rfl
    · intro task how hmem
      obtain ⟨event, -, heq⟩ := List.mem_map.mp hmem
      cases heq
  | goOn hnext =>
    cases hnext with
    | _ => exact h.congr rfl rfl (fun _ => rfl) (fun _ => rfl) nofun

end Tidy

/-! ## A turn that nothing interrupts -/

section Turn

variable {task : Nat} {c : Connection σ} {action : Action} {reply : Reply}

/-- The task of a connection does what it went on to do. -/
theorem running?_withWork {before : Work σ} (h : s.running? task = some before)
    (hacceptor : s'.acceptor = s.acceptor) (hwork : s'.work = s.work) (after : Work σ) :
    (s'.withWork task after).running? task = some after := by
  obtain ⟨hruns, hget⟩ := running?_eq_some h
  have hset : (s'.work.set task after)[task]? = some after := by
    rw [hwork]
    exact List.getElem?_set_self (List.getElem?_eq_some_iff.mp hget).1
  show (if s'.acceptor.isRunning task then (s'.work.set task after)[task]? else none) = some after
  rw [hacceptor, hruns, hset]
  rfl

theorem step_perform (h : s.running? task = some (.deciding c action)) :
    s.step env (.perform task) = s.perform task c action := by
  simp only [step, step?, h, Option.getD_some]

theorem step_count {kind : RecordKind} {offered : Nat} {result : QueueResult}
    (h : s.running? task = some (.counting c reply kind offered result)) :
    s.step env (.count task) = ([], (s.tally offered result kind).withWork task (.answering c reply)) := by
  simp only [step, step?, h, Option.getD_some]

theorem step_answer (h : s.running? task = some (.answering c reply)) :
    s.step env (.answer task) = ([], s.withWork task (.listening (c.reply env.wire reply))) := by
  simp only [step, step?, h, Option.getD_some]

/-- After these steps the queues are these, and the task of a connection listens again. -/
structure Reaches (env : Surroundings σ) (schedule : List DaemonStep) (s : DaemonTasks σ) (task : Nat)
    (records : Records) (c : Connection σ) : Prop where
  records_eq : (run env schedule s).2.records = records
  running : (run env schedule s).2.running? task = some (.listening c)

/-- A task that listens has nothing to carry out. -/
theorem reaches_of_listening (h : s.running? task = some (.listening c)) :
    Reaches env [.perform task, .count task, .answer task] s task s.records c := by
  have hperform : s.step env (.perform task) = ([], s) := by
    simp only [step, step?, h, Option.getD_none]
  have hcount : s.step env (.count task) = ([], s) := by
    simp only [step, step?, h, Option.getD_none]
  have hanswer : s.step env (.answer task) = ([], s) := by
    simp only [step, step?, h, Option.getD_none]
  constructor
  · rw [run_cons, hperform, run_cons, hcount, run_singleton, hanswer]
  · rw [run_cons, hperform, run_cons, hcount, run_singleton, hanswer]
    exact h

/-- What was appended is counted, and the answer is sent. -/
theorem reaches_of_counting {kind : RecordKind} {offered : Nat} {result : QueueResult}
    (h : s.running? task = some (.counting c reply kind offered result)) :
    Reaches env [.count task, .answer task] s task (s.tally offered result kind).records
      (c.reply env.wire reply) := by
  have hacceptor : (s.tally offered result kind).acceptor = s.acceptor := by cases kind <;> rfl
  have hwork : (s.tally offered result kind).work = s.work := by cases kind <;> rfl
  have hanswering := running?_withWork h hacceptor hwork (.answering c reply)
  constructor
  · rw [run_cons, step_count h, run_singleton, step_answer hanswering]
    rfl
  · rw [run_cons, step_count h, run_singleton, step_answer hanswering]
    exact running?_withWork hanswering rfl rfl _

/-- Where nothing was appended there is nothing to count. -/
theorem reaches_of_answering (h : s.running? task = some (.answering c reply)) :
    Reaches env [.count task, .answer task] s task s.records (c.reply env.wire reply) := by
  have hcount : s.step env (.count task) = ([], s) := by
    simp only [step, step?, h, Option.getD_none]
  constructor
  · rw [run_cons, hcount, run_singleton, step_answer h]
    rfl
  · rw [run_cons, hcount, run_singleton, step_answer h]
    exact running?_withWork h rfl rfl _

/-- What was decided is carried out, counted and answered. -/
theorem reaches_of_deciding (h : s.running? task = some (.deciding c action)) :
    Reaches env [.perform task, .count task, .answer task] s task (s.records.perform action).2
      (c.reply env.wire (s.records.perform action).1) := by
  suffices hrest : Reaches env [.count task, .answer task] (s.perform task c action).2 task
      (s.records.perform action).2 (c.reply env.wire (s.records.perform action).1) by
    constructor
    · rw [run_cons, step_perform h]
      exact hrest.records_eq
    · rw [run_cons, step_perform h]
      exact hrest.running
  cases action with
  | record tag items payload =>
    have hrunning : (s.perform task c (.record tag items payload)).2.running? task =
        some (.counting c (s.records.perform (.record tag items payload)).1 .impressions items.length
          (s.impressions.append tag items).1) := running?_withWork h rfl rfl _
    exact reaches_of_counting hrunning
  | track tag event =>
    have hrunning : (s.perform task c (.track tag event)).2.running? task =
        some (.counting c (s.records.perform (.track tag event)).1 .events 1
          (s.events.append tag [event]).1) := running?_withWork h rfl rfl _
    exact reaches_of_counting hrunning
  | _ => exact reaches_of_answering (running?_withWork h rfl rfl _)

/-- What follows from what was received is done. -/
theorem reaches_of_considered {now : Int64} {received : Except LinkError Bytes}
    (h : s.running? task = some (consider env now received c).2) :
    Reaches env [.perform task, .count task, .answer task] s task
      (c.react env.wire env.evaluator now s.records received).records
      (c.react env.wire env.evaluator now s.records received).connection := by
  unfold consider at h
  split at h
  next e => exact reaches_of_listening h
  next octets =>
    split at h
    next hread =>
      simp only [Connection.react, hread]
      exact reaches_of_listening h
    next rpc hread =>
      simp only [Connection.react, hread]
      exact reaches_of_deciding h

/-- **A turn that nothing interrupts is the turn of a connection alone.** -/
theorem run_turn (now : Int64) (h : s.running? task = some (.listening c)) (hopen : c.isOpen = true) :
    Reaches env [.receive task now, .perform task, .count task, .answer task] s task
      (c.turn env.wire env.evaluator now s.records).records
      (c.turn env.wire env.evaluator now s.records).connection := by
  have hreceive : (s.step env (.receive task now)).2 = s.withWork task (receive env now c).2 := by
    simp only [step, step?, h, hopen, if_true, Option.getD_some]
  have hrest : Reaches env [.perform task, .count task, .answer task] (s.withWork task (receive env now c).2)
      task (c.turn env.wire env.evaluator now s.records).records
      (c.turn env.wire env.evaluator now s.records).connection :=
    reaches_of_considered (running?_withWork h rfl rfl _)
  constructor
  · rw [run_cons, hreceive]
    exact hrest.records_eq
  · rw [run_cons, hreceive]
    exact hrest.running

end Turn

end FlagSidecar.DaemonTasks
