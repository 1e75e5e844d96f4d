import FlagSidecar.Flush.Schedule
import FlagSidecar.Proofs.Flush.Periodic

/-!
# FlagSidecar.Proofs.Flush.Schedule: a periodic task in the course of time

The periodic task of `Schedule` looks for shutdown before it looks for a tick, hands over all batches of a
pass at once, and waits with what is held up until that is let through. If nobody else makes passes over its
flusher, whatever is done to it is a run of the task of `Flusher.Timed`, which leaves open what this one
decides: the same uploads are begun, and the queues, the clock and the place in the task are the same.

Main statement: `Schedule.PeriodicOp.exists_run`.
-/

namespace FlagSidecar.Schedule

open Flusher

variable {α : Type} [Uploadable α]

/-! ## What is done to a periodic task -/

/-- Something that is done to a flusher with a periodic task, and is no pass. -/
inductive PeriodicOp (α : Type) where
  | push (tag : ClientTag) (items : List α)
  | gate (shut : Bool)
  | letThrough
  | sleep (span : Span)
  | stop

/-- What it does. -/
def PeriodicOp.apply (s : Schedule α) : PeriodicOp α → Schedule α
  | push tag items => (s.push tag items).2
  | gate shut => { s with gated := shut }
  | letThrough => s.letThrough
  | sleep span => s.advance span
  | stop => s.stop

/-- New queues with this recorder and a task that sets its timer at this reading of the clock. -/
def periodicStart (recorder : Recorder) (size : UInt64) (clock period : Span) : Schedule α :=
  { flusher := ⟨.new size, false⟩, recorder, clock : Schedule α }.startPeriodic period

/-! ## The same place -/

/-- What the periodic task is at. -/
def phase? (s : Schedule α) : Option PeriodicPhase := s.periodic.map Periodic.phase

/-- What it is at while it makes a pass. -/
def passPhase (last : Bool) : PeriodicPhase := if last then .closing else .passing

def timer? (s : Schedule α) : Option Ticker := s.periodic.map fun p => ⟨p.period, p.nextTick⟩

/-- A batch that the recorder has. -/
def heldUp (batch : ClientTag × List α) : Batch α := ⟨batch.1, batch.2, .handed⟩

/-- A batch for which the recorder has answered. -/
def answered (batch : ClientTag × List α) : Batch α := ⟨batch.1, batch.2, .answered⟩

/-- Everything but the place in the task is as with a task that steps, which has these events behind it. -/
structure Alike (recorder : Recorder) (s : Schedule α) (events : List (TimedEvent α)) (t : Timed α) :
    Prop where
  recorder_eq : s.recorder = recorder
  clock_eq : t.clock = s.clock
  resolved_eq : t.resolved = s.stopped
  ticker_eq : t.ticker = s.timer?
  hasTimer : s.timer?.isSome = true
  flusher_eq : t.loop.flusher = s.flusher
  made_eq : (recorderCalls (loopEvents events)).map upload = s.made

theorem Alike.isSome_ticker {recorder : Recorder} {s : Schedule α} {events : List (TimedEvent α)} {t : Timed α}
    (h : Alike recorder s events t) : t.ticker.isSome = true := by
  rw [h.ticker_eq]
  exact h.hasTimer

/-- Events without an upload leave the uploads that were begun as they are. -/
theorem Alike.made_append {recorder : Recorder} {s : Schedule α} {events more : List (TimedEvent α)}
    {t : Timed α} (h : Alike recorder s events t) (hmore : recorderCalls (loopEvents more) = []) :
    (recorderCalls (loopEvents (events ++ more))).map upload = s.made := by
  rw [loopEvents_append, recorderCalls_append, hmore, List.append_nil, h.made_eq]

/-- The place in the task, and what is held up there. -/
inductive Place (s : Schedule α) : LoopStage α → Prop
  | waiting (hphase : s.phase? = some .waiting) (hnone : s.inFlight = none)
    (hclear : s.flusher.running = false) : Place s .waiting
  | passing (last : Bool) (batches : List (ClientTag × List α)) (hphase : s.phase? = some (passPhase last))
    (hheld : s.inFlight = some (.periodic, batches.map upload)) :
    Place s (.passing last (.uploading (batches.map heldUp)))
  | ended (outcome : FlushOutcome) (hphase : s.phase? = some (.ended outcome)) (hnone : s.inFlight = none) :
    Place s (.ended outcome)

/-- From where a task that steps has come with these events, steps lead to where this one is. -/
def Reaches (recorder : Recorder) (events : List (TimedEvent α)) (t : Timed α) (s : Schedule α) : Prop :=
  ∃ schedule, Alike recorder s (events ++ (Timed.run (fun _ => recorder) schedule t).1)
      (Timed.run (fun _ => recorder) schedule t).2 ∧
    Place s (Timed.run (fun _ => recorder) schedule t).2.loop.stage

namespace Reaches

variable {recorder : Recorder} {events more : List (TimedEvent α)} {t t' : Timed α} {s s' : Schedule α}

theorem refl (h : Alike recorder s events t) (hplace : Place s t.loop.stage) : Reaches recorder events t s :=
  ⟨[], by rw [show events ++ (Timed.run _ [] t).1 = events from List.append_nil events]; exact h, hplace⟩

theorem of_run {schedule : List (TimedStep α)} (h : Reaches recorder (events ++ more) t' s)
    (hrun : Timed.run (fun _ => recorder) schedule t = (more, t')) : Reaches recorder events t s := by
  obtain ⟨rest, hrest⟩ := h
  refine ⟨schedule ++ rest, ?_⟩
  unfold Timed.run at hrun hrest ⊢
  rw [runSteps_append, hrun, ← List.append_assoc]
  exact hrest

theorem of_step {step : TimedStep α} (h : Reaches recorder (events ++ more) t' s)
    (hstep : t.step (fun _ => recorder) step = (more, t')) : Reaches recorder events t s :=
  h.of_run ((runSteps_singleton step t).trans hstep)

theorem trans (h : Reaches recorder events t s)
    (hnext : ∀ {events t}, Alike recorder s events t → Place s t.loop.stage → Reaches recorder events t s') :
    Reaches recorder events t s' := by
  obtain ⟨schedule, halike, hplace⟩ := h
  exact (hnext halike hplace).of_run (Prod.eta _)

/-- By a step of the pass at hand. -/
theorem of_act {last : Bool} {phase phase' : Phase α} {deed : Option (Flusher.Deed α)} {flusher : Flusher α}
    (act : Act) (h : Reaches recorder (events ++ deed.toList.map fun done => .loop (.deed t.loop.passes done))
      { t with loop := { t.loop with flusher, stage := .passing last phase' } } s)
    (htimer : t.ticker.isSome = true) (hstage : t.loop.stage = .passing last phase) (hnot : act ≠ .cancel)
    (hact : phase.act? recorder t.loop.flusher act = some (deed, phase', flusher)) :
    Reaches recorder events t s := by
  obtain ⟨ticker, hticker⟩ := Option.isSome_iff_exists.mp htimer
  have hfinds : t.finds ticker (.act act) = true := rfl
  have hloop : t.loop.step? (fun _ => recorder) (.act act) = some (deed.toList.map (.deed t.loop.passes),
      { t.loop with flusher, stage := .passing last phase' }) := Loop.step?_act hstage hnot hact
  have hstep : t.step (fun _ => recorder) (.task (.act act)) =
      (deed.toList.map fun done => .loop (.deed t.loop.passes done),
        { t with loop := { t.loop with flusher, stage := .passing last phase' } }) := by
    rw [Timed.step_task hticker hfinds hloop, List.map_map, hticker]
    rfl
  exact h.of_step hstep

/-- By going on when a pass is over. -/
theorem of_goOn {last : Bool} {outcome : FlushOutcome}
    (h : Reaches recorder (events ++ [.loop (.passed t.loop.passes outcome)])
      { t with
        loop := { t.loop with
          passes := t.loop.passes + 1, stage := if last then .ended outcome else .waiting } } s)
    (htimer : t.ticker.isSome = true) (hstage : t.loop.stage = .passing last (.ended (some outcome))) :
    Reaches recorder events t s := by
  obtain ⟨ticker, hticker⟩ := Option.isSome_iff_exists.mp htimer
  have hfinds : t.finds ticker .goOn = true := rfl
  have hstep : t.step (fun _ => recorder) (.task .goOn) = ([.loop (.passed t.loop.passes outcome)],
      { t with
        loop := { t.loop with
          passes := t.loop.passes + 1, stage := if last then .ended outcome else .waiting } }) := by
    rw [Timed.step_task hticker hfinds (Loop.step?_goOn hstage), hticker]
    rfl
  exact h.of_step hstep

/-- By a step for each batch in turn, which leads it from one stage of its upload to the next. -/
theorem of_each {last : Bool} {act : Nat → Act} {before after : ClientTag × List α → Batch α}
    {deed : ClientTag × List α → Option (Flusher.Deed α)}
    (hact : ∀ (f : Flusher α) (done rest : List (Batch α)) (batch : ClientTag × List α),
      Phase.act? recorder f (act done.length) (.uploading (done ++ before batch :: rest)) =
        some (deed batch, .uploading (done ++ after batch :: rest), f))
    (hnot : ∀ index, act index ≠ .cancel)
    (done : List (Batch α)) (rest : List (ClientTag × List α))
    (h : Reaches recorder
      (events ++ rest.flatMap fun batch =>
        (deed batch).toList.map fun done => .loop (.deed t.loop.passes done))
      { t with loop := { t.loop with stage := .passing last (.uploading (done ++ rest.map after)) } } s)
    (htimer : t.ticker.isSome = true)
    (hstage : t.loop.stage = .passing last (.uploading (done ++ rest.map before))) :
    Reaches recorder events t s := by
  induction rest generalizing done events t with
  | nil =>
    rw [List.flatMap_nil, List.append_nil] at h
    rw [List.map_nil] at h hstage
    rw [← hstage] at h
    exact h
  | cons batch rest ih =>
    refine of_act (act done.length) ?_ htimer hstage (hnot done.length) (hact _ done _ batch)
    refine ih (done ++ [after batch]) ?_ htimer ?_
    · rw [List.append_assoc, List.append_assoc]
      exact h
    · rw [List.append_assoc]
      rfl

end Reaches

/-! ## A pass -/

section Pass

variable {recorder : Recorder} {events : List (TimedEvent α)} {t : Timed α} {s : Schedule α} {last : Bool}

omit [Uploadable α] in
theorem phase?_settleTask (h : s.phase? = some (passPhase last)) (outcome : FlushOutcome) :
    (s.settleTask .periodic outcome).phase? = some (if last then .ended outcome else .waiting) := by
  obtain ⟨p, hp, hphase⟩ := Option.map_eq_some_iff.mp h
  unfold phase? settleTask
  rw [hp]
  cases last <;> rw [Option.map_some, Option.map_some, hphase] <;> rfl

omit [Uploadable α] in
theorem timer?_settleTask (s : Schedule α) (outcome : FlushOutcome) :
    (s.settleTask .periodic outcome).timer? = s.timer? := by
  unfold timer? settleTask
  rw [Option.map_map]
  rfl

/-- What changes with a pass. -/
theorem Alike.go (h : Alike recorder s events t) {more : List (TimedEvent α)} {made : List Upload}
    (hmade : (recorderCalls (loopEvents more)).map upload = made) (flusher : Flusher α) (passes : Nat)
    (stage : LoopStage α) (inFlight : Option (Starter × List Upload)) :
    Alike recorder { s with flusher, inFlight, made := s.made ++ made } (events ++ more)
      { t with loop := ⟨flusher, passes, stage⟩ } where
  recorder_eq := h.recorder_eq
  clock_eq := h.clock_eq
  resolved_eq := h.resolved_eq
  ticker_eq := h.ticker_eq
  hasTimer := h.hasTimer
  flusher_eq := rfl
  made_eq := by rw [loopEvents_append, recorderCalls_append, List.map_append, h.made_eq, hmade]

/-- What was handed over is answered, and the pass is over. -/
theorem Alike.completes (h : Alike recorder s events t) {batches : List (ClientTag × List α)}
    (hphase : s.phase? = some (passPhase last)) (hnone : s.inFlight = none)
    (hstage : t.loop.stage = .passing last (.uploading (batches.map heldUp))) :
    Reaches recorder events t ({ s with flusher := s.flusher.release }.settleTask .periodic
      (.completed (.ofUploads s.recorder (batches.map upload)))) := by
  have htimer := h.isSome_ticker
  have hanswer (f : Flusher α) (done rest : List (Batch α)) (batch : ClientTag × List α) :
      Phase.act? recorder f (.answer done.length) (.uploading (done ++ heldUp batch :: rest)) =
        some (none, .uploading (done ++ answered batch :: rest), f) := Phase.act?_answer ..
  have hall : (batches.map answered).all (fun b : Batch α => decide (b.stage = .answered)) = true := by
    simp [answered]
  have hreport : ((batches.map answered).map fun b : Batch α => upload b.content) = batches.map upload := by
    rw [List.map_map]
    rfl
  have hfinish (f : Flusher α) : Phase.act? recorder f .finish (.uploading (batches.map answered)) =
      some (none, .leaving (some (.ofUploads s.recorder (batches.map upload))), f) := by
    rw [h.recorder_eq, ← hreport]
    exact if_pos hall
  refine Reaches.of_each hanswer (fun _ => nofun) [] batches ?_ htimer hstage
  refine Reaches.of_act .finish ?_ htimer rfl nofun (hfinish t.loop.flusher)
  refine Reaches.of_act .release ?_ htimer rfl nofun rfl
  refine Reaches.of_goOn ?_ htimer rfl
  refine Reaches.refl ⟨h.recorder_eq, h.clock_eq, h.resolved_eq, ?_, ?_, ?_, ?_⟩ ?_
  · rw [timer?_settleTask]
    exact h.ticker_eq
  · rw [timer?_settleTask]
    exact h.hasTimer
  · exact congrArg release h.flusher_eq
  · refine Eq.trans (congrArg (List.map upload) ?_) h.made_eq
    simp [recorderCalls, loopEvents, TimedEvent.loop?, LoopEvent.handed?]
  · have hphase' := phase?_settleTask (s := { s with flusher := s.flusher.release }) hphase
      (.completed (.ofUploads s.recorder (batches.map upload)))
    cases last with
    | true => exact .ended _ hphase' hnone
    | false => exact .waiting hphase' hnone rfl

omit [Uploadable α] in
/-- A pass that takes these batches and hands them over. -/
theorem recorderCalls_taken (pass : Nat) (batches : List (ClientTag × List α)) :
    recorderCalls (loopEvents ([.loop (.deed pass (.drained batches))] ++
      batches.flatMap fun batch => [.loop (.deed pass (.handed batch))])) = batches := by
  rw [loopEvents_append, recorderCalls_append]
  show [] ++ _ = batches
  rw [List.nil_append]
  unfold loopEvents recorderCalls
  induction batches with
  | nil => rfl
  | cons batch rest ih => exact congrArg (batch :: ·) ih

/-- A pass begins, and is over at once unless it is held up. -/
theorem Alike.begins (h : Alike recorder s events t) (hphase : s.phase? = some (passPhase last))
    (hnone : s.inFlight = none) (hclear : s.flusher.running = false)
    (hstage : t.loop.stage = .passing last .idle) : Reaches recorder events t (s.beginPass .periodic) := by
  have htimer := h.isSome_ticker
  have hhand (f : Flusher α) (done rest : List (Batch α)) (batch : ClientTag × List α) :
      Phase.act? recorder f (.hand done.length) (.uploading (done ++ .ofDrained batch :: rest)) =
        some (some (.handed batch), .uploading (done ++ heldUp batch :: rest), f) := Phase.act?_hand ..
  have hacquire : Phase.act? recorder t.loop.flusher .acquire .idle =
      some (none, .acquired, { t.loop.flusher with running := true }) := by
    refine if_neg ?_
    rw [h.flusher_eq, hclear]
    exact Bool.false_ne_true
  refine Reaches.of_act .acquire ?_ htimer hstage nofun hacquire
  refine Reaches.of_act .drain ?_ htimer rfl nofun rfl
  refine Reaches.of_each hhand (fun _ => nofun) [] t.loop.flusher.queues.drainAll.1 ?_ htimer rfl
  have hcalls := recorderCalls_taken t.loop.passes s.flusher.queues.drainAll.1
  rw [h.flusher_eq, List.append_assoc, List.append_assoc]
  unfold beginPass
  rw [begin?_of_clear hclear]
  simp only
  split
  · refine Reaches.refl (h.go (congrArg (List.map upload) hcalls) _ _ _ _) ?_
    exact .passing last _ hphase rfl
  · exact (h.go (congrArg (List.map upload) hcalls) _ _ _ _).completes hphase hnone rfl

end Pass

/-! ## The task by itself -/

theorem Place.of_waiting {s : Schedule α} {stage : LoopStage α} (h : Place s stage)
    (hphase : s.phase? = some .waiting) :
    stage = .waiting ∧ s.inFlight = none ∧ s.flusher.running = false := by
  cases h with
  | waiting _ hnone hclear => exact ⟨rfl, hnone, hclear⟩
  | passing last batches hpassing hheld =>
    rw [hpassing] at hphase
    cases last <;> cases hphase
  | ended outcome hended hnone =>
    rw [hended] at hphase
    cases hphase

theorem Place.of_ended {s : Schedule α} {stage : LoopStage α} (h : Place s stage) {outcome : FlushOutcome}
    (hphase : s.phase? = some (.ended outcome)) : stage = .ended outcome := by
  cases h with
  | waiting hwaiting hnone hclear =>
    rw [hwaiting] at hphase
    cases hphase
  | passing last batches hpassing hheld =>
    rw [hpassing] at hphase
    cases last <;> cases hphase
  | ended outcome hended hnone =>
    rw [hended] at hphase
    cases hphase
    rfl

section Task

variable {recorder : Recorder} {events : List (TimedEvent α)} {t : Timed α} {s s' : Schedule α}

/-- What changes when the task sees shutdown or a tick. -/
theorem Alike.sees (h : Alike recorder s events t) {more : List (TimedEvent α)} (hmore : loopEvents more = [])
    (p : Periodic) (stage : LoopStage α) :
    Alike recorder { s with periodic := some p } (events ++ more)
      { t with loop := { t.loop with stage }, ticker := some ⟨p.period, p.nextTick⟩ } where
  recorder_eq := h.recorder_eq
  clock_eq := h.clock_eq
  resolved_eq := h.resolved_eq
  ticker_eq := rfl
  hasTimer := rfl
  flusher_eq := h.flusher_eq
  made_eq := h.made_append (by rw [hmore]; rfl)

/-- It goes by shutdown and makes its last pass. -/
theorem Alike.stops (h : Alike recorder s events t) {ticker : Ticker} (hticker : t.ticker = some ticker)
    (hstage : t.loop.stage = .waiting) (hnone : s.inFlight = none) (hclear : s.flusher.running = false)
    (hstopped : s.stopped = true) : Reaches recorder events t
      ({ s with periodic := some ⟨ticker.period, ticker.nextTick, .closing⟩ }.beginPass .periodic) := by
  have hlast : ({ s with periodic := some ⟨ticker.period, ticker.nextTick, .closing⟩ } : Schedule α).phase? =
      some (passPhase true) := rfl
  exact ((h.sees rfl _ _).begins hlast hnone hclear rfl).of_step
    (Timed.step_stop hticker hstage (h.resolved_eq.trans hstopped))

/-- It goes by a tick that is due, and makes a pass. -/
theorem Alike.ticks (h : Alike recorder s events t) {ticker : Ticker} (hticker : t.ticker = some ticker)
    (hstage : t.loop.stage = .waiting) (hnone : s.inFlight = none) (hclear : s.flusher.running = false)
    (hdue : ticker.isDue s.clock = true) : Reaches recorder events t
      ({ s with periodic := some ⟨(ticker.after s.clock).period, (ticker.after s.clock).nextTick, .passing⟩
        }.beginPass .periodic) := by
  have hlast : ({ s with periodic := some ⟨(ticker.after s.clock).period, (ticker.after s.clock).nextTick,
      .passing⟩ } : Schedule α).phase? = some (passPhase false) := rfl
  have hstep : t.step (fun _ => recorder) (.task .tick) = ([.ticked ticker.nextTick t.clock, .began t.loop.passes],
      { t with
        loop := { t.loop with stage := .passing false .idle }, ticker := some (ticker.after s.clock) }) := by
    rw [← h.clock_eq] at hdue ⊢
    exact Timed.step_tick hticker hstage hdue
  exact ((h.sees rfl _ _).begins hlast hnone hclear rfl).of_step hstep

/-- **A step of the periodic task is a run** of the task that steps. -/
theorem Alike.periodicStep (h : Alike recorder s events t) (hplace : Place s t.loop.stage)
    (hstep : s.periodicStep? = some s') : Reaches recorder events t s' := by
  unfold periodicStep? at hstep
  cases hperiodic : s.periodic with
  | none =>
    rw [hperiodic] at hstep
    cases hstep
  | some p =>
    obtain ⟨period, nextTick, phase⟩ := p
    rw [hperiodic] at hstep
    simp only [ne_eq, ite_not] at hstep
    split at hstep
    next hwaiting =>
      subst hwaiting
      obtain ⟨hstage, hnone, hclear⟩ := hplace.of_waiting (by rw [phase?, hperiodic]; rfl)
      have hticker : t.ticker = some ⟨period, nextTick⟩ := by
        rw [h.ticker_eq, timer?, hperiodic]
        rfl
      split at hstep
      next hstopped =>
        cases hstep
        exact h.stops hticker hstage hnone hclear hstopped
      next =>
        split at hstep
        next hdue =>
          cases hstep
          exact h.ticks hticker hstage hnone hclear (decide_eq_true hdue)
        next => cases hstep
    next => cases hstep

theorem Alike.run (h : Alike recorder s events t) (hplace : Place s t.loop.stage) (steps : Nat) :
    Reaches recorder events t (s.run steps) := by
  induction steps generalizing s events t with
  | zero => exact .refl h hplace
  | succ steps ih =>
    unfold Schedule.run
    cases hstep : s.periodicStep? with
    | none => exact .refl h hplace
    | some s' => exact (h.periodicStep hplace hstep).trans ih

theorem Reaches.settle (h : Reaches recorder events t s) : Reaches recorder events t s.settle :=
  h.trans fun halike hplace => halike.run hplace 4

theorem clock_beginPass (s : Schedule α) : (s.beginPass .periodic).clock = s.clock := by
  unfold beginPass
  cases s.flusher.begin? with
  | none => rfl
  | some begun =>
    simp only
    split <;> rfl

theorem clock_periodicStep? (hstep : s.periodicStep? = some s') : s'.clock = s.clock := by
  unfold periodicStep? at hstep
  split at hstep
  next => cases hstep
  next p hperiodic =>
    split at hstep
    next => cases hstep
    next =>
      split at hstep
      next =>
        cases hstep
        exact clock_beginPass _
      next =>
        split at hstep
        next =>
          cases hstep
          exact clock_beginPass _
        next => cases hstep

theorem clock_run (s : Schedule α) (steps : Nat) : (s.run steps).clock = s.clock := by
  induction steps generalizing s with
  | zero => rfl
  | succ steps ih =>
    unfold Schedule.run
    cases hstep : s.periodicStep? with
    | none => rfl
    | some s' => exact (ih s').trans (clock_periodicStep? hstep)

end Task

/-! ## What is done to it -/

section Ops

variable {recorder : Recorder} {events : List (TimedEvent α)} {t : Timed α} {s s' : Schedule α}

/-- The place does not depend on anything else. -/
theorem Place.congr {stage : LoopStage α} (h : Place s stage) (hphase : s'.phase? = s.phase?)
    (hheld : s'.inFlight = s.inFlight) (hrunning : s'.flusher.running = s.flusher.running) :
    Place s' stage := by
  cases h with
  | waiting hp hnone hclear => exact .waiting (hphase.trans hp) (hheld.trans hnone) (hrunning.trans hclear)
  | passing last batches hp hsome => exact .passing last batches (hphase.trans hp) (hheld.trans hsome)
  | ended outcome hp hnone => exact .ended outcome (hphase.trans hp) (hheld.trans hnone)

/-- A push is appended and counted. -/
theorem Alike.push (h : Alike recorder s events t) (hplace : Place s t.loop.stage) (tag : ClientTag)
    (items : List α) : Reaches recorder events t (s.push tag items).2 := by
  let appended := t.loop.append tag items
  have hrun : Timed.run (fun _ => recorder) [.append tag items, .tally items.length appended.1] t =
      ([.loop appended.2.1], { t with loop := appended.2.2.tally items.length appended.1 }) := rfl
  refine Reaches.of_run (Reaches.refl ?_ ?_) hrun
  · refine ⟨h.recorder_eq, h.clock_eq, h.resolved_eq, h.ticker_eq, h.hasTimer, ?_, ?_⟩
    · have hpush : (s.push tag items).2.flusher =
          { s.flusher with queues := (s.flusher.queues.push tag items).2 } := rfl
      rw [hpush, FanIn.push_eq_append_tally, ← h.flusher_eq]
      rfl
    · exact h.made_append rfl
  · exact hplace.congr rfl rfl rfl

/-- What is held up is let through. -/
theorem Alike.letThrough (h : Alike recorder s events t) (hplace : Place s t.loop.stage) :
    Reaches recorder events t s.letThrough := by
  refine Reaches.settle ?_
  unfold completePass
  generalize hstage : t.loop.stage = stage at hplace
  cases hplace with
  | waiting hphase hnone hclear =>
    rw [hnone]
    exact .refl h (hstage ▸ .waiting hphase hnone hclear)
  | ended outcome hphase hnone =>
    rw [hnone]
    exact .refl h (hstage ▸ .ended outcome hphase hnone)
  | passing last batches hphase hheld =>
    rw [hheld]
    have hfree : Alike recorder { s with inFlight := none } events t :=
      ⟨h.recorder_eq, h.clock_eq, h.resolved_eq, h.ticker_eq, h.hasTimer, h.flusher_eq, h.made_eq⟩
    exact hfree.completes hphase rfl hstage

/-- The clock moves on. -/
theorem Alike.waits (h : Alike recorder s events t) (hplace : Place s t.loop.stage) {time : Span}
    (hle : s.clock.nanos ≤ time.nanos) : Reaches recorder events t { s with clock := time } := by
  have hstep : t.step (fun _ => recorder) (.wait ⟨time.nanos - s.clock.nanos⟩) =
      ([], { t with clock := time }) := by
    have hclock : t.clock.add ⟨time.nanos - s.clock.nanos⟩ = time := by
      rw [h.clock_eq, Span.add, Nat.add_sub_cancel' hle]
    exact congrArg (fun clock => ([], { t with clock })) hclock
  have halike : Alike recorder { s with clock := time } (events ++ []) { t with clock := time } := by
    rw [List.append_nil]
    exact ⟨h.recorder_eq, rfl, h.resolved_eq, h.ticker_eq, h.hasTimer, h.flusher_eq, h.made_eq⟩
  exact (Reaches.refl halike (hplace.congr rfl rfl rfl)).of_step hstep

theorem Alike.advanceTo (h : Alike recorder s events t) (hplace : Place s t.loop.stage) {time : Span}
    (ticks : Nat) (hle : s.clock.nanos ≤ time.nanos) :
    Reaches recorder events t (s.advanceTo time ticks) := by
  induction ticks generalizing s events t with
  | zero => exact (h.waits hplace hle).settle
  | succ ticks ih =>
    unfold Schedule.advanceTo
    split
    next period nextTick hperiodic =>
      split
      next hnext =>
        -- the clock goes no further than to the tick
        have hmax : max s.clock.nanos nextTick.nanos ≤ time.nanos := Nat.max_le.mpr ⟨hle, hnext⟩
        have hwaits : Reaches recorder events t { s with clock := ⟨max s.clock.nanos nextTick.nanos⟩ } :=
          h.waits hplace (Nat.le_max_left _ _)
        refine hwaits.settle.trans fun halike hplace => ?_
        exact ih halike hplace (by rw [Schedule.settle, clock_run]; exact hmax)
      next => exact h.waits hplace hle
    next => exact h.waits hplace hle

theorem Alike.stop (h : Alike recorder s events t) (hplace : Place s t.loop.stage) :
    Reaches recorder events t s.stop := by
  refine Reaches.settle ?_
  cases hresolved : t.resolved with
  | true =>
    have hstopped : s.stopped = true := h.resolved_eq.symm.trans hresolved
    exact .refl ⟨h.recorder_eq, h.clock_eq, hresolved, h.ticker_eq, h.hasTimer, h.flusher_eq, h.made_eq⟩
      (hplace.congr rfl rfl rfl)
  | false =>
    have hstep : t.step (fun _ => recorder) .resolve = ([.resolved], { t with resolved := true }) :=
      if_neg (Bool.eq_false_iff.mp hresolved)
    have halike : Alike recorder { s with stopped := true } (events ++ [.resolved])
        { t with resolved := true } :=
      ⟨h.recorder_eq, h.clock_eq, rfl, h.ticker_eq, h.hasTimer, h.flusher_eq, h.made_append rfl⟩
    exact (Reaches.refl halike (hplace.congr rfl rfl rfl)).of_step hstep

/-- **Whatever is done to the task is a run** of the task that steps. -/
theorem Alike.apply (h : Alike recorder s events t) (hplace : Place s t.loop.stage) (op : PeriodicOp α) :
    Reaches recorder events t (op.apply s) := by
  cases op with
  | push tag items => exact h.push hplace tag items
  | gate shut =>
    exact .refl ⟨h.recorder_eq, h.clock_eq, h.resolved_eq, h.ticker_eq, h.hasTimer, h.flusher_eq, h.made_eq⟩
      (hplace.congr rfl rfl rfl)
  | letThrough => exact h.letThrough hplace
  | sleep span => exact h.advanceTo hplace _ (Nat.le_add_right _ _)
  | stop => exact h.stop hplace

theorem Reaches.start (recorder : Recorder) (size : UInt64) {clock period : Span}
    (hfits : (Part.timer clock period).Fits) :
    Reaches recorder [] (.start size clock period : Timed α) (periodicStart recorder size clock period) :=
  Reaches.settle (.refl ⟨rfl, rfl, rfl, if_pos hfits, rfl, rfl, rfl⟩ (.waiting rfl rfl rfl))

end Ops

/-- **A periodic task in the course of time is a run of the task that steps**, whatever is done to it. -/
theorem PeriodicOp.exists_run (recorder : Recorder) (size : UInt64) {clock period : Span}
    (hfits : (Part.timer clock period).Fits) (ops : List (PeriodicOp α)) :
    Reaches recorder [] (.start size clock period)
      (ops.foldl (fun s op => op.apply s) (periodicStart recorder size clock period)) := by
  induction ops using List.reverseRecOn with
  | nil => exact .start recorder size hfits
  | append_singleton ops op ih =>
    rw [List.foldl_append]
    exact ih.trans fun halike hplace => halike.apply hplace op

/-- So when it has ended it has a report. -/
theorem PeriodicOp.completed_of_done (recorder : Recorder) (size : UInt64) {clock period : Span}
    (hfits : (Part.timer clock period).Fits) (ops : List (PeriodicOp α)) {outcome : FlushOutcome}
    (h : (ops.foldl (fun s op => op.apply s) (periodicStart recorder size clock period)).periodicOutcome =
      .done outcome) : ∃ report, outcome = .completed report := by
  obtain ⟨schedule, -, hplace⟩ := exists_run recorder size hfits ops
  have hreached := Timed.reached_run (fun _ => recorder) size clock period schedule
  generalize ops.foldl _ _ = s at h hplace
  have hphase : s.phase? = some (.ended outcome) := by
    unfold periodicOutcome at h
    split at h
    next => cases h
    next hperiodic =>
      cases h
      rw [phase?, hperiodic]
      rfl
    next => cases h
  obtain ⟨before, pass, rest, report, -, -, hreport⟩ := hreached.ended (hplace.of_ended hphase)
  exact ⟨report, hreport⟩

end FlagSidecar.Schedule
