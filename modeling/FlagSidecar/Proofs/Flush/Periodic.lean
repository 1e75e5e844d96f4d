import FlagSidecar.Flush.Periodic
import FlagSidecar.Proofs.Flush.Passes

/-!
# FlagSidecar.Proofs.Flush.Periodic: a periodic task delivers everything and ends with a report

Whatever the period, and however pushes, the passing of time, uploads and shutdown fall between the steps of
the task, its passes follow one another. None begins before the one before it is over, none is skipped, and
shutdown cuts off none. Each takes what was accepted since the one before it took, and hands over what it
took. When the task goes by shutdown it makes its last pass, and ends with the report of that.

A task that waits when shutdown has resolved and a tick is due may go by either. If it goes by the tick it
makes that pass before it looks again. So from the moment at which shutdown resolves there is a pass for each
tick that the task still goes by, and then the last one: one pass if no tick is due when it looks, and else
perhaps more.

Main statements: `Flusher.Timed.delivers_everything`, `Flusher.Timed.not_oneMore_of_due_tick`.
-/

namespace FlagSidecar

/-! ## What holds of every event -/

/-- Every event has a property, given what came before it. -/
def Throughout {ε : Type} (holds : List ε → ε → Prop) (events : List ε) : Prop :=
  ∀ before e after, events = before ++ e :: after → holds before e

namespace Throughout

variable {ε : Type} {holds : List ε → ε → Prop} {events : List ε}

theorem nil : Throughout holds [] := fun _ _ _ h => by simp at h

theorem concat {e : ε} (h : Throughout holds events) (he : holds events e) :
    Throughout holds (events ++ [e]) := by
  intro before e' after hsplit
  rcases List.eq_nil_or_concat after with rfl | ⟨after, last, rfl⟩
  · obtain ⟨rfl, hlast⟩ := List.append_inj' hsplit rfl
    cases hlast
    exact he
  · rw [List.concat_eq_append, ← List.cons_append, ← List.append_assoc] at hsplit
    exact h before e' after (List.append_inj' hsplit rfl).1

/-- Events that have the property whatever came before them. -/
theorem append {more : List ε} (h : Throughout holds events) (hmore : ∀ e ∈ more, ∀ before, holds before e) :
    Throughout holds (events ++ more) := by
  induction more generalizing events with
  | nil =>
    rw [List.append_nil]
    exact h
  | cons e more ih =>
    rw [List.append_cons]
    exact ih (h.concat (hmore e List.mem_cons_self events)) fun e' he' =>
      hmore e' (List.mem_cons_of_mem e he')

end Throughout

namespace Flusher

variable {α : Type}

/-! ## The events of a run -/

section Events

variable (events more : List (TimedEvent α))

@[simp]
theorem loopEvents_append : loopEvents (events ++ more) = loopEvents events ++ loopEvents more :=
  List.filterMap_append

@[simp]
theorem bounds_append : bounds (events ++ more) = bounds events ++ bounds more :=
  List.filterMap_append

@[simp]
theorem loopEvents_map (evs : List (LoopEvent α)) : loopEvents (evs.map .loop) = evs := by
  unfold loopEvents
  rw [List.filterMap_map]
  exact List.filterMap_some

@[simp]
theorem beginnings_append : beginnings (events ++ more) = beginnings events ++ beginnings more :=
  List.filterMap_append

@[simp]
theorem ticksServed_append : ticksServed (events ++ more) = ticksServed events ++ ticksServed more :=
  List.filterMap_append

end Events

@[simp]
theorem loopEvents_opening (s : Timed α) (ticker : Ticker) (step : LoopStep) :
    loopEvents (s.opening ticker step) = [] := by
  cases step <;> rfl

/-- Passes that are over, one after the other, and came to these reports. -/
def passesOver (reports : List FlushReport) : List Bound :=
  reports.zipIdx.flatMap fun (report, pass) => [.began pass, .over pass (.completed report)]

theorem passesOver_concat (reports : List FlushReport) (report : FlushReport) :
    passesOver (reports ++ [report]) =
      passesOver reports ++ [.began reports.length, .over reports.length (.completed report)] := by
  unfold passesOver
  rw [List.zipIdx_append, List.flatMap_append]
  simp

theorem of_over_mem {reports : List FlushReport} {pass : Nat} {outcome : FlushOutcome}
    (h : .over pass outcome ∈ passesOver reports) :
    ∃ report, reports[pass]? = some report ∧ outcome = .completed report := by
  obtain ⟨⟨report, k⟩, hget, hmem⟩ := List.mem_flatMap.mp h
  rw [List.mem_zipIdx_iff_getElem?] at hget
  simp only [List.mem_cons, Bound.over.injEq, reduceCtorEq, List.not_mem_nil, or_false, false_or] at hmem
  obtain ⟨rfl, rfl⟩ := hmem
  exact ⟨report, hget, rfl⟩

/-- The bound of the pass at hand. -/
def Loop.underway (l : Loop α) : List Bound :=
  match l.stage with
  | .passing _ _ => [.began l.passes]
  | _ => []

theorem Loop.underway_of_waiting {l : Loop α} (h : l.stage = .waiting) : l.underway = [] := by
  rw [underway, h]

theorem Loop.underway_of_passing {l : Loop α} {last : Bool} {phase : Phase α}
    (h : l.stage = .passing last phase) : l.underway = [.began l.passes] := by
  rw [underway, h]

namespace Timed

/-! ## One step -/

/-- **What one step can be.** -/
inductive Moves [Uploadable α] (recorder : Nat → Recorder) (s : Timed α) :
    TimedStep α → List (TimedEvent α) → Timed α → Prop
  | append (tag : ClientTag) (items : List α) :
    Moves recorder s (.append tag items) [.loop (s.loop.append tag items).2.1]
      { s with loop := (s.loop.append tag items).2.2 }
  | tally (offered : Nat) (result : QueueResult) :
    Moves recorder s (.tally offered result) [] { s with loop := s.loop.tally offered result }
  | wait (span : Span) : Moves recorder s (.wait span) [] { s with clock := s.clock.add span }
  | resolve (hnot : s.resolved = false) : Moves recorder s .resolve [.resolved] { s with resolved := true }
  | task {step : LoopStep} {ticker : Ticker} {events : List (LoopEvent α)} {loop : Loop α}
    (hticker : s.ticker = some ticker) (hfinds : s.finds ticker step = true)
    (hgoes : Loop.Goes recorder s.loop step events loop) :
    Moves recorder s (.task step) (s.opening ticker step ++ events.map .loop)
      { s with loop, ticker := some (s.tickerAfter ticker step) }
  /-- The step is not possible, or there is nothing to do. -/
  | nothing (move : TimedStep α) : Moves recorder s move [] s

theorem task?_eq_some [Uploadable α] {recorder : Nat → Recorder} {s s' : Timed α} {step : LoopStep}
    {more : List (TimedEvent α)} (h : s.task? recorder step = some (more, s')) :
    Moves recorder s (.task step) more s' := by
  unfold task? at h
  cases hticker : s.ticker with
  | none =>
    rw [hticker] at h
    cases h
  | some ticker =>
    rw [hticker] at h
    simp only [Option.bind_eq_bind, Option.bind_some] at h
    split at h
    next hfinds =>
      obtain ⟨⟨events, loop⟩, hstep, h⟩ := Option.bind_eq_some_iff.mp h
      cases h
      exact .task hticker hfinds (Loop.goes_of_step? hstep)
    next => cases h

theorem moves_step [Uploadable α] (recorder : Nat → Recorder) (s : Timed α) (move : TimedStep α) :
    Moves recorder s move (s.step recorder move).1 (s.step recorder move).2 := by
  cases move with
  | append tag items => exact .append tag items
  | tally offered result => exact .tally offered result
  | wait span => exact .wait span
  | resolve =>
    cases hresolved : s.resolved with
    | true =>
      rw [show s.step recorder .resolve = ([], s) from if_pos hresolved]
      exact .nothing _
    | false =>
      rw [show s.step recorder .resolve = ([.resolved], { s with resolved := true }) from
        if_neg (Bool.eq_false_iff.mp hresolved)]
      exact .resolve hresolved
  | task step =>
    show Moves recorder s (.task step) ((s.task? recorder step).getD ([], s)).1
      ((s.task? recorder step).getD ([], s)).2
    cases htask : s.task? recorder step with
    | none => exact .nothing _
    | some result => exact task?_eq_some htask

variable [Uploadable α] {recorder : Nat → Recorder} {reports : List FlushReport}
  {events more : List (TimedEvent α)} {s s' : Timed α} {move : TimedStep α}

/-- A step that the task can take now. -/
theorem step_task {step : LoopStep} {ticker : Ticker} {evs : List (LoopEvent α)} {loop : Loop α}
    (hticker : s.ticker = some ticker) (hfinds : s.finds ticker step = true)
    (hstep : s.loop.step? recorder step = some (evs, loop)) :
    s.step recorder (.task step) = (s.opening ticker step ++ evs.map .loop,
      { s with loop, ticker := some (s.tickerAfter ticker step) }) := by
  show (s.task? recorder step).getD ([], s) = _
  rw [task?, hticker, Option.bind_eq_bind, Option.bind_some, if_pos hfinds, hstep]
  rfl

/-- A task that waits can go by shutdown when that has resolved. -/
theorem step_stop {ticker : Ticker} (hticker : s.ticker = some ticker) (hstage : s.loop.stage = .waiting)
    (hresolved : s.resolved = true) : s.step recorder (.task .stop) =
      ([.stopped, .began s.loop.passes],
        { s with loop := { s.loop with stage := .passing true .idle }, ticker := some ticker }) := by
  have hfinds : s.finds ticker .stop = true := hresolved
  exact step_task hticker hfinds (Loop.step?_begin hstage).2

/-- It can go by a tick that is due. -/
theorem step_tick {ticker : Ticker} (hticker : s.ticker = some ticker) (hstage : s.loop.stage = .waiting)
    (hdue : ticker.isDue s.clock = true) : s.step recorder (.task .tick) =
      ([.ticked ticker.nextTick s.clock, .began s.loop.passes],
        { s with loop := { s.loop with stage := .passing false .idle },
                 ticker := some (ticker.after s.clock) }) := by
  have hfinds : s.finds ticker .tick = true := hdue
  exact step_task hticker hfinds (Loop.step?_begin hstage).1

/-- A step does one thing at the queues or with the recorder at most, and that is the pass at hand. -/
theorem Moves.deed (h : Moves recorder s move more s') :
    (∀ pass done, .loop (.deed pass done) ∉ more) ∨
      ∃ done last phase, more = [.loop (.deed s.loop.passes done)] ∧ s.loop.stage = .passing last phase ∧
        ∀ contents, done = .drained contents → contents = s.loop.flusher.queues.drainAll.1 := by
  cases h with
  | append | resolve => exact .inl fun _ _ h => by cases List.mem_singleton.mp h
  | tally | wait | nothing => exact .inl fun _ _ => List.not_mem_nil
  | task hticker hfinds hgoes =>
    cases hgoes with
    | tick | stop | goOn => exact .inl fun _ _ h => by simp [opening] at h
    | @act last phase a deed phase' flusher hstage hnot hact =>
      cases deed with
      | none => exact .inl fun _ _ h => by simp [opening] at h
      | some done =>
        refine .inr ⟨done, last, phase, rfl, hstage, ?_⟩
        rintro contents rfl
        cases hact
        rfl

/-! ## Passes in their order -/

/-- **Passes are in order**: those that are over came to these reports, and one more may be at hand. -/
structure Orderly (recorder : Nat → Recorder) (reports : List FlushReport) (events : List (TimedEvent α))
    (s : Timed α) : Prop where
  delivers : Loop.Delivers (loopEvents events) s.loop
  waits : Loop.Waits (loopEvents events) s.loop
  keeps : Loop.Keeps recorder reports (loopEvents events) s.loop
  bounds_eq : bounds events = passesOver reports ++ s.loop.underway

namespace Orderly

theorem start (recorder : Nat → Recorder) (size : UInt64) (clock period : Span) :
    Orderly recorder [] [] (.start size clock period : Timed α) where
  delivers := .start size
  waits := .start size
  keeps := .start recorder size
  bounds_eq := rfl

/-- What does not touch the task and its queues. -/
theorem quiet (h : Orderly recorder reports events s) (hevents : loopEvents more = [])
    (hbounds : bounds more = []) (hloop : s'.loop = s.loop) :
    Orderly recorder reports (events ++ more) s' := by
  have hsame : loopEvents (events ++ more) = loopEvents events := by
    rw [loopEvents_append, hevents, List.append_nil]
  refine ⟨?_, ?_, ?_, ?_⟩
  · rw [hsame, hloop]
    exact h.delivers
  · rw [hsame, hloop]
    exact h.waits
  · rw [hsame, hloop]
    exact h.keeps
  · rw [bounds_append, hbounds, List.append_nil, hloop]
    exact h.bounds_eq

/-- A step of the task. -/
theorem task {step : LoopStep} {evs : List (LoopEvent α)} {loop : Loop α} {after : Option Ticker}
    (h : Orderly recorder reports events s) (ticker : Ticker)
    (hgoes : Loop.Goes recorder s.loop step evs loop) :
    ∃ reports', Orderly recorder reports' (events ++ (s.opening ticker step ++ evs.map .loop))
      { s with loop, ticker := after } := by
  have hevents : loopEvents (events ++ (s.opening ticker step ++ evs.map .loop)) =
      loopEvents events ++ evs := by
    simp
  have hdelivers := h.delivers.step hgoes
  have hwaits := h.waits.step hgoes
  have hbounds := h.bounds_eq
  have hquiet : ∀ pass, drainsOf (occurrences ([] : List (LoopEvent α))) pass = [] ∧
      handedBy (occurrences ([] : List (LoopEvent α))) pass = [] := fun _ => ⟨rfl, rfl⟩
  cases hgoes with
  | tick hstage | stop hstage =>
    refine ⟨reports, hevents ▸ hdelivers, hevents ▸ hwaits, ?_, ?_⟩
    · rw [hevents]
      exact h.keeps.quiet hquiet rfl (by rw [hstage]; rfl)
    · rw [bounds_append, hbounds, Loop.underway_of_waiting hstage, List.append_nil]
      rfl
  | @act last phase a deed phase' flusher hstage hnot hact =>
    have hrunning := h.delivers.running
    rw [hstage] at hrunning
    refine ⟨reports, hevents ▸ hdelivers, hevents ▸ hwaits, ?_, ?_⟩
    · rw [hevents]
      exact h.keeps.act hrunning hstage hnot hact
    · have hnone : bounds (s.opening ticker (.act a) ++
          (deed.toList.map (LoopEvent.deed s.loop.passes)).map TimedEvent.loop) = [] := by
        cases deed <;> rfl
      rw [bounds_append, hbounds, hnone, List.append_nil, Loop.underway_of_passing hstage]
      rfl
  | @goOn last outcome hstage =>
    obtain ⟨report, rfl, hkeeps⟩ := h.keeps.goOn hstage
    refine ⟨reports ++ [report], hevents ▸ hdelivers, hevents ▸ hwaits, hevents ▸ hkeeps, ?_⟩
    rw [bounds_append, hbounds, passesOver_concat, h.keeps.length_eq, Loop.underway_of_passing hstage,
      List.append_assoc]
    cases last with
    | false => exact (List.append_nil _).symm
    | true => exact (List.append_nil _).symm

/-- **Every step keeps passes in order.** -/
theorem step (h : Orderly recorder reports events s) (hmoves : Moves recorder s move more s') :
    ∃ reports', Orderly recorder reports' (events ++ more) s' := by
  cases hmoves with
  | append tag items =>
    refine ⟨reports, ?_, ?_, ?_, ?_⟩
    · rw [loopEvents_append]
      exact h.delivers.append tag items
    · rw [loopEvents_append]
      exact h.waits.append h.delivers.wellFormed tag items
    · rw [loopEvents_append]
      exact h.keeps.quiet (fun _ => ⟨rfl, rfl⟩) rfl rfl
    · rw [bounds_append, h.bounds_eq]
      exact List.append_nil _
  | tally offered result =>
    rw [List.append_nil]
    exact ⟨reports, h.delivers.tally offered result, h.waits, ⟨h.keeps.length_eq, h.keeps.keeps⟩, h.bounds_eq⟩
  | wait span => exact ⟨reports, h.quiet rfl rfl rfl⟩
  | resolve => exact ⟨reports, h.quiet rfl rfl rfl⟩
  | nothing => exact ⟨reports, h.quiet rfl rfl rfl⟩
  | task hticker hfinds hgoes => exact h.task _ hgoes

end Orderly

/-! ## What holds of every event -/

/-- What a pass does it does while it is the one that began last. -/
def Inside (before : List (TimedEvent α)) (e : TimedEvent α) : Prop :=
  ∀ pass done, e = .loop (.deed pass done) → (bounds before).getLast? = some (.began pass)

/-- What a pass takes is what was accepted since the queues were last emptied, one batch for each tag. -/
def TakesWhatWaits (before : List (TimedEvent α)) (e : TimedEvent α) : Prop :=
  ∀ pass contents, e = .loop (.deed pass (.drained contents)) →
    (contents.map Prod.fst).Nodup ∧
      ∀ tag, FanIn.itemsUnder tag contents = waitingUnder (loopEvents before) tag

namespace Orderly

theorem inside_step (h : Orderly recorder reports events s) (hmoves : Moves recorder s move more s')
    (hbefore : Throughout Inside events) : Throughout Inside (events ++ more) := by
  rcases hmoves.deed with hnone | ⟨done, last, phase, rfl, hstage, -⟩
  · refine hbefore.append fun e he before pass done hdeed => ?_
    exact absurd (hdeed ▸ he) (hnone pass done)
  · refine hbefore.concat fun pass done' hdeed => ?_
    cases hdeed
    rw [h.bounds_eq, Loop.underway_of_passing hstage, List.getLast?_concat]

theorem takes_step (h : Orderly recorder reports events s) (hmoves : Moves recorder s move more s')
    (hbefore : Throughout TakesWhatWaits events) : Throughout TakesWhatWaits (events ++ more) := by
  rcases hmoves.deed with hnone | ⟨done, last, phase, rfl, -, hcontents⟩
  · refine hbefore.append fun e he before pass contents hdeed => ?_
    exact absurd (hdeed ▸ he) (hnone pass (.drained contents))
  · refine hbefore.concat fun pass contents hdeed => ?_
    cases hdeed
    obtain rfl := hcontents contents rfl
    refine ⟨h.delivers.wellFormed.nodup_drainAll, fun tag => ?_⟩
    have hheld := h.delivers.wellFormed.held_append_accepts .drain tag
    replace hheld : s.loop.flusher.queues.held tag ++ [] =
        FanIn.itemsUnder tag s.loop.flusher.queues.drainAll.1 ++ [] := hheld
    rw [List.append_nil, List.append_nil] at hheld
    rw [← hheld, h.waits tag]

end Orderly

/-! ## Shutdown -/

/-- **The task has gone by shutdown, once, and begun its last pass**, after what came before and before the
rest. -/
structure Closing (events before : List (TimedEvent α)) (pass : Nat) (rest : List (TimedEvent α)) : Prop where
  events_eq : events = before ++ .stopped :: .began pass :: rest
  /-- Shutdown had resolved. -/
  resolved : .resolved ∈ before
  notBefore : .stopped ∉ before
  notAgain : .stopped ∉ rest
  last : ∀ other, .began other ∉ rest

omit [Uploadable α] in
theorem Closing.append {before rest : List (TimedEvent α)} {pass : Nat} (h : Closing events before pass rest)
    (hstopped : .stopped ∉ more) (hbegan : ∀ other, .began other ∉ more) :
    Closing (events ++ more) before pass (rest ++ more) where
  events_eq := by
    rw [h.events_eq, List.append_assoc]
    rfl
  resolved := h.resolved
  notBefore := h.notBefore
  notAgain := fun hmem => (List.mem_append.mp hmem).elim h.notAgain hstopped
  last := fun other hmem => (List.mem_append.mp hmem).elim (h.last other) (hbegan other)

/-- The pass is the last one, and the rest has come since: it is at hand, or it is over and had the outcome
with which the task has ended. -/
def IsLastPass (l : Loop α) (pass : Nat) (rest : List (TimedEvent α)) : Prop :=
  (l.stage.hasEnded = false → pass = l.passes) ∧
    ∀ outcome, l.stage = .ended outcome → .loop (.passed pass outcome) ∈ rest

/-- What the task knows of shutdown, and what comes of it. -/
structure Told (events : List (TimedEvent α)) (s : Timed α) : Prop where
  resolved : s.resolved = true → .resolved ∈ events
  ofLast : s.loop.stage.isLast = true → s.resolved = true
  notYet : s.loop.stage.isLast = false → .stopped ∉ events
  closing : s.loop.stage.isLast = true →
    ∃ before pass rest, Closing events before pass rest ∧ IsLastPass s.loop pass rest

namespace Told

omit [Uploadable α] in
theorem start (size : UInt64) (clock period : Span) : Told [] (.start size clock period : Timed α) where
  resolved h := by cases h
  ofLast h := by cases h
  notYet _ := List.not_mem_nil
  closing h := by cases h

omit [Uploadable α] in
/-- What neither begins a pass nor goes by shutdown. -/
theorem go (h : Told events s) (hstopped : .stopped ∉ more) (hbegan : ∀ other, .began other ∉ more)
    (hset : s.resolved = true → s'.resolved = true)
    (hresolved : s'.resolved = true → s.resolved = true ∨ .resolved ∈ more)
    (hlast : s'.loop.stage.isLast = s.loop.stage.isLast)
    (hpass : s.loop.stage.isLast = true → ∀ pass rest, IsLastPass s.loop pass rest →
      IsLastPass s'.loop pass (rest ++ more)) :
    Told (events ++ more) s' where
  resolved hset := by
    rw [List.mem_append]
    exact (hresolved hset).imp_left h.resolved
  ofLast hclosed := hset (h.ofLast (hlast ▸ hclosed))
  notYet hopen := by
    rw [hlast] at hopen
    exact fun hmem => (List.mem_append.mp hmem).elim (h.notYet hopen) hstopped
  closing hclosed := by
    rw [hlast] at hclosed
    obtain ⟨before, pass, rest, hclosing, hold⟩ := h.closing hclosed
    exact ⟨before, pass, rest ++ more, hclosing.append hstopped hbegan, hpass hclosed pass rest hold⟩

omit [Uploadable α] in
/-- What does not touch the task. -/
theorem quiet (h : Told events s) (hstopped : .stopped ∉ more) (hbegan : ∀ other, .began other ∉ more)
    (hset : s.resolved = true → s'.resolved = true)
    (hresolved : s'.resolved = true → s.resolved = true ∨ .resolved ∈ more)
    (hstage : s'.loop.stage = s.loop.stage) (hpasses : s'.loop.passes = s.loop.passes) :
    Told (events ++ more) s' := by
  refine h.go hstopped hbegan hset hresolved (by rw [hstage]) fun _ pass rest hold => ?_
  unfold IsLastPass
  rw [hstage, hpasses]
  exact ⟨hold.1, fun outcome houtcome => List.mem_append_left more (hold.2 outcome houtcome)⟩

/-- A step of the task. -/
theorem task {step : LoopStep} {evs : List (LoopEvent α)} {loop : Loop α} {ticker : Ticker}
    {after : Option Ticker} (h : Told events s) (hfinds : s.finds ticker step = true)
    (hgoes : Loop.Goes recorder s.loop step evs loop) :
    Told (events ++ (s.opening ticker step ++ evs.map .loop)) { s with loop, ticker := after } := by
  cases hgoes with
  | tick hstage =>
    have hopen : s.loop.stage.isLast = false := by rw [hstage]; rfl
    refine ⟨fun hset => List.mem_append_left _ (h.resolved hset), nofun, fun _ hmem => ?_, nofun⟩
    rcases List.mem_append.mp hmem with hmem | hmem
    · exact h.notYet hopen hmem
    · simp [opening] at hmem
  | stop hstage =>
    have hopen : s.loop.stage.isLast = false := by rw [hstage]; rfl
    refine ⟨fun hset => List.mem_append_left _ (h.resolved hset), fun _ => hfinds, nofun, fun _ =>
      ⟨events, s.loop.passes, [], ?_, fun _ => rfl, nofun⟩⟩
    exact ⟨rfl, h.resolved hfinds, h.notYet hopen, List.not_mem_nil, fun _ => List.not_mem_nil⟩
  | @act last phase a deed phase' flusher hstage hnot hact =>
    refine h.go ?_ ?_ id .inl (by rw [hstage]; rfl) fun _ pass rest hold => ⟨fun _ => ?_, nofun⟩
    · simp [opening]
    · simp [opening]
    · exact hold.1 (by rw [hstage]; rfl)
  | @goOn last outcome hstage =>
    refine h.go ?_ ?_ id .inl ?_ fun hclosed pass rest hold => ?_
    · simp [opening]
    · simp [opening]
    · rw [hstage]
      cases last <;> rfl
    · -- only the last pass leads to the end
      obtain rfl : last = true := by rw [hstage] at hclosed; exact hclosed
      refine ⟨nofun, fun outcome' houtcome => ?_⟩
      cases houtcome
      rw [hold.1 (by rw [hstage]; rfl)]
      exact List.mem_append_right rest List.mem_cons_self

/-- **The task goes by shutdown once, and one pass follows.** -/
theorem step (h : Told events s) (hmoves : Moves recorder s move more s') : Told (events ++ more) s' := by
  cases hmoves with
  | append tag items => exact h.quiet (by simp) (by simp) id .inl rfl rfl
  | tally offered result => exact h.quiet (by simp) (by simp) id .inl rfl rfl
  | wait span => exact h.quiet (by simp) (by simp) id .inl rfl rfl
  | resolve => exact h.quiet (by simp) (by simp) (fun _ => rfl) (fun _ => .inr List.mem_cons_self) rfl rfl
  | nothing => exact h.quiet (by simp) (by simp) id .inl rfl rfl
  | task hticker hfinds hgoes => exact h.task hfinds hgoes

end Told

/-! ## Passes and what they are for -/

/-- **Each pass that a step begins is for a tick, or it is the last one.** -/
theorem Moves.length_beginnings (h : Moves recorder s move more s') :
    (beginnings more).length + s.loop.stage.isLast.toNat =
      (ticksServed more).length + s'.loop.stage.isLast.toNat := by
  cases h with
  | task hticker hfinds hgoes =>
    cases hgoes with
    | tick hstage | stop hstage =>
      rw [hstage]
      rfl
    | @act last phase a deed phase' flusher hstage hnot hact =>
      rw [hstage]
      cases deed <;> rfl
    | @goOn last outcome hstage =>
      rw [hstage]
      cases last <;> rfl
  | _ => rfl

/-- The task goes by a tick only when it is due. -/
theorem Moves.ticked_due (h : Moves recorder s move more s') {time clock : Span}
    (hmem : .ticked time clock ∈ more) : time.nanos ≤ clock.nanos := by
  cases h with
  | @task step ticker events loop hticker hfinds hgoes =>
    cases hgoes with
    | tick hstage =>
      have hdue : ticker.isDue s.clock = true := hfinds
      simp only [opening, List.map_nil, List.append_nil, List.mem_cons, TimedEvent.ticked.injEq,
        reduceCtorEq, List.not_mem_nil, or_false] at hmem
      obtain ⟨rfl, rfl⟩ := hmem
      exact of_decide_eq_true hdue
    | stop | act | goOn => simp [opening] at hmem
  | append | resolve => cases List.mem_singleton.mp hmem
  | tally | wait | nothing => cases hmem

/-- Until shutdown resolves every pass is for a tick. -/
def TicksOnly (before : List (TimedEvent α)) (e : TimedEvent α) : Prop :=
  e = .resolved → (beginnings before).length = (ticksServed before).length

/-- **Every pass is for a tick but for the last one**, which begins after shutdown has resolved. -/
structure Counted (events : List (TimedEvent α)) (s : Timed α) : Prop where
  length_eq : (beginnings events).length = (ticksServed events).length + s.loop.stage.isLast.toNat
  ticksOnly : Throughout TicksOnly events

namespace Counted

omit [Uploadable α] in
theorem start (size : UInt64) (clock period : Span) : Counted [] (.start size clock period : Timed α) :=
  ⟨rfl, .nil⟩

theorem step (h : Counted events s) (htold : Told events s) (hmoves : Moves recorder s move more s') :
    Counted (events ++ more) s' where
  length_eq := by
    have hmore := hmoves.length_beginnings
    rw [beginnings_append, ticksServed_append, List.length_append, List.length_append, h.length_eq]
    omega
  ticksOnly := by
    cases hmoves with
    | resolve hnot =>
      refine h.ticksOnly.concat fun _ => ?_
      -- the last pass has not begun, as that needs shutdown to have resolved
      have hopen : s.loop.stage.isLast = false := by
        rw [Bool.eq_false_iff]
        intro hlast
        rw [htold.ofLast hlast] at hnot
        cases hnot
      rw [h.length_eq, hopen]
      rfl
    | task hticker hfinds hgoes =>
      refine h.ticksOnly.append fun e he before hresolved => ?_
      subst hresolved
      cases hgoes <;> simp [opening] at he
    | append => exact h.ticksOnly.concat nofun
    | tally | wait | nothing =>
      rw [List.append_nil]
      exact h.ticksOnly

omit [Uploadable α] in
/-- What begins after shutdown has resolved. -/
theorem length_after (h : Counted events s) {before after : List (TimedEvent α)}
    (hsplit : events = before ++ .resolved :: after) :
    (beginnings after).length = (ticksServed after).length + s.loop.stage.isLast.toNat := by
  have hall := h.length_eq
  have hbefore := h.ticksOnly before .resolved after hsplit rfl
  have hbeginnings : beginnings events = beginnings before ++ beginnings after := by
    rw [hsplit, beginnings_append]
    rfl
  have hticks : ticksServed events = ticksServed before ++ ticksServed after := by
    rw [hsplit, ticksServed_append]
    rfl
  rw [hbeginnings, hticks, List.length_append, List.length_append] at hall
  omega

end Counted

/-! ## Runs -/

/-- What every run comes to. -/
structure Reached (recorder : Nat → Recorder) (events : List (TimedEvent α)) (s : Timed α) : Prop where
  orderly : ∃ reports, Orderly recorder reports events s
  inside : Throughout Inside events
  takes : Throughout TakesWhatWaits events
  told : Told events s
  counted : Counted events s
  due : ∀ time clock, .ticked time clock ∈ events → time.nanos ≤ clock.nanos

theorem reached_run (recorder : Nat → Recorder) (size : UInt64) (clock period : Span)
    (schedule : List (TimedStep α)) :
    Reached recorder (run recorder schedule (.start size clock period)).1
      (run recorder schedule (.start size clock period)).2 := by
  refine runSteps_induction (motive := Reached recorder) ?_ (fun {events s} move h => ?_) schedule
  · exact ⟨⟨[], .start recorder size clock period⟩, .nil, .nil, .start size clock period,
      .start size clock period, nofun⟩
  · obtain ⟨reports, horderly⟩ := h.orderly
    have hmoves := moves_step recorder s move
    refine ⟨horderly.step hmoves, horderly.inside_step hmoves h.inside, horderly.takes_step hmoves h.takes,
      h.told.step hmoves, h.counted.step h.told hmoves, fun time clock hmem => ?_⟩
    exact (List.mem_append.mp hmem).elim (h.due time clock) hmoves.ticked_due

/-! ## Without a timer -/

theorem Moves.ticker_eq_none_iff (h : Moves recorder s move more s') :
    s'.ticker = none ↔ s.ticker = none := by
  cases h with
  | task hticker hfinds hgoes =>
    rw [hticker]
    exact iff_of_false nofun nofun
  | _ => exact Iff.rfl

/-- A task without a timer begins no pass. -/
theorem Moves.beginnings_of_none (h : Moves recorder s move more s') (hnone : s.ticker = none) :
    beginnings more = [] := by
  cases h with
  | task hticker hfinds hgoes => cases hnone.symm.trans hticker
  | _ => rfl

/-- A timer is set at the start or never. -/
theorem ticker_run_eq_none_iff (recorder : Nat → Recorder) (schedule : List (TimedStep α)) (s : Timed α) :
    (run recorder schedule s).2.ticker = none ↔ s.ticker = none :=
  runSteps_induction (motive := fun _ (s' : Timed α) => s'.ticker = none ↔ s.ticker = none) Iff.rfl
    (fun move h => (moves_step recorder _ move).ticker_eq_none_iff.trans h) schedule

theorem beginnings_run_of_none (recorder : Nat → Recorder) (schedule : List (TimedStep α))
    (hnone : s.ticker = none) : beginnings (run recorder schedule s).1 = [] := by
  refine (runSteps_induction (motive := fun (events : List (TimedEvent α)) (s' : Timed α) =>
    s'.ticker = none ∧ beginnings events = []) ⟨hnone, rfl⟩ (fun {events s'} move h => ?_) schedule).2
  have hmoves := moves_step recorder s' move
  refine ⟨hmoves.ticker_eq_none_iff.mpr h.1, ?_⟩
  rw [beginnings_append, h.2, hmoves.beginnings_of_none h.1]
  rfl

/-! ## To the end -/

omit [Uploadable α] in
/-- The task has a result when it has ended. -/
theorem isSome_result? (s : Timed α) : s.result?.isSome = true ↔ s.loop.stage.hasEnded = true := by
  unfold result?
  cases hstage : s.loop.stage with
  | ended outcome => cases outcome <;> exact iff_of_true rfl rfl
  | _ => exact Iff.rfl

/-- Steps of the task, all of them possible, which it takes once shutdown has resolved. -/
theorem result?_of_endsBy {steps : List LoopStep} {l : Loop α} (h : Loop.EndsBy recorder l steps)
    (hnot : .tick ∉ steps) (hloop : s.loop = l) (hticker : s.ticker ≠ none)
    (hresolved : s.resolved = true) :
    (run recorder (steps.map .task) s).2.result?.isSome = true := by
  induction h generalizing s with
  | ended hended =>
    subst hloop
    exact s.isSome_result?.mpr hended
  | @step l l' first steps evs hstep hrest ih =>
    subst hloop
    rw [List.mem_cons, not_or] at hnot
    obtain ⟨ticker, hticker⟩ := Option.ne_none_iff_exists'.mp hticker
    have hfinds : s.finds ticker first = true := by
      cases first with
      | tick => exact absurd rfl hnot.1
      | stop => exact hresolved
      | _ => rfl
    rw [List.map_cons, run, runSteps_cons, step_task hticker hfinds hstep]
    exact ih hnot.2 rfl nofun hresolved

/-! ## Delivery -/

namespace Orderly

/-- A pass that is over was a whole one. -/
theorem whole (h : Orderly recorder reports events s) {pass : Nat} {outcome : FlushOutcome}
    (hover : .loop (.passed pass outcome) ∈ events) :
    ∃ report, outcome = .completed report ∧
      Whole (recorder pass) (drainsOf (occurrences (loopEvents events)) pass)
        (handedBy (occurrences (loopEvents events)) pass) report := by
  have hbound : Bound.over pass outcome ∈ passesOver reports ++ s.loop.underway := by
    rw [← h.bounds_eq]
    exact List.mem_filterMap.mpr ⟨_, hover, rfl⟩
  have hmem : Bound.over pass outcome ∈ passesOver reports := by
    refine (List.mem_append.mp hbound).resolve_right fun hunderway => ?_
    unfold Loop.underway at hunderway
    split at hunderway
    · cases List.mem_singleton.mp hunderway
    · cases hunderway
  obtain ⟨report, hreport, rfl⟩ := of_over_mem hmem
  have hkeeps := h.keeps.keeps pass
  rw [Loop.phaseOf, hreport] at hkeeps
  exact ⟨report, rfl, hkeeps⟩

/-- When the task has ended, everything that was accepted before its last pass took was handed over. -/
theorem delivered (h : Orderly recorder reports events s) (hended : s.loop.stage.hasEnded = true)
    {before after : List (TimedEvent α)} {pass : Nat} {contents : List (ClientTag × List α)}
    (hsplit : events = before ++ .loop (.deed pass (.drained contents)) :: after)
    (hlast : ∀ other taken, .loop (.deed other (.drained taken)) ∉ after) (tag : ClientTag) :
    FanIn.itemsUnder tag (recorderCalls (loopEvents events)) = acceptedUnder (loopEvents before) tag := by
  have hevents : loopEvents events =
      loopEvents before ++ .deed pass (.drained contents) :: loopEvents after := by
    rw [hsplit, loopEvents_append]
    rfl
  have hnone : ∀ other taken, LoopEvent.deed other (.drained taken) ∉ loopEvents after := by
    intro other taken hmem
    obtain ⟨e, he, hloop⟩ := List.mem_filterMap.mp hmem
    cases e with
    | loop event =>
      cases hloop
      exact hlast other taken he
    | _ => cases hloop
  have hconserved := h.delivers.conserved tag
  rw [(LoopStage.of_hasEnded hended).2.2 tag, List.append_nil, h.waits tag, hevents,
    acceptedUnder_lastDrain hnone] at hconserved
  rw [hevents]
  exact (List.append_cancel_right hconserved).symm

end Orderly

/-- **A task that has ended has the report of its last pass.** -/
theorem Reached.ended (h : Reached recorder events s) {outcome : FlushOutcome}
    (hstage : s.loop.stage = .ended outcome) : ∃ before pass rest report, Closing events before pass rest ∧
      .loop (.passed pass (.completed report)) ∈ rest ∧ outcome = .completed report := by
  obtain ⟨reports, horderly⟩ := h.orderly
  obtain ⟨before, pass, rest, hclosing, -, hover⟩ := h.told.closing (by rw [hstage]; rfl)
  have hrest := hover outcome hstage
  -- the pass that is over is among all events
  have hmem : .loop (.passed pass outcome) ∈ events := by
    rw [hclosing.events_eq]
    exact List.mem_append_right before (List.mem_cons_of_mem _ (List.mem_cons_of_mem _ hrest))
  obtain ⟨report, rfl, -⟩ := horderly.whole hmem
  exact ⟨before, pass, rest, report, hclosing, hrest, rfl⟩

/-- What holds of a periodic task, with its timer set to a period from this reading of the clock and these
events behind it, if it delivers everything and ends with a report. -/
structure DeliversEverything (recorder : Nat → Recorder) (clock period : Span) (events : List (TimedEvent α))
    (s : Timed α) : Prop where
  /-- One pass begins after the other is over. None is skipped and none is cut off: each that is over came
  to a report, and one more may be at hand. -/
  apart : ∃ reports : List FlushReport, reports.length = s.loop.passes ∧
    bounds events = passesOver reports ++ s.loop.underway
  /-- What a pass does is done while it is the one that began last. -/
  inside : Throughout Inside events
  /-- A pass takes what was accepted since the one before it took, one batch for each tag. -/
  takes : Throughout TakesWhatWaits events
  /-- A pass takes once at most, and hands over each batch that it took once at most, -/
  once : ∀ pass, (drainsOf (occurrences (loopEvents events)) pass).length ≤ 1 ∧
    (handedBy (occurrences (loopEvents events)) pass).Subperm
      (drainsOf (occurrences (loopEvents events)) pass).flatten
  /-- and when it is over it has handed over all, and its report is that of these uploads. -/
  whole : ∀ pass outcome, .loop (.passed pass outcome) ∈ events → ∃ report, outcome = .completed report ∧
    Whole (recorder pass) (drainsOf (occurrences (loopEvents events)) pass)
      (handedBy (occurrences (loopEvents events)) pass) report
  /-- Under each tag, what was accepted is what the recorder was given, what the pass at hand has still to
  hand over and what is queued, each record once and in order. -/
  conserved : ∀ tag, acceptedUnder (loopEvents events) tag =
    FanIn.itemsUnder tag (recorderCalls (loopEvents events)) ++ s.loop.stage.left tag ++
      s.loop.flusher.queues.held tag
  /-- The task goes by a tick only when it is due, -/
  due : ∀ time clock, .ticked time clock ∈ events → time.nanos ≤ clock.nanos
  /-- and by shutdown only when that has resolved, and once: then its last pass begins. -/
  stopped : .stopped ∈ events → ∃ before pass rest, Closing events before pass rest
  /-- After shutdown has resolved a pass begins for each tick that the task still goes by, and, when it has
  ended, one more: the last one. -/
  afterResolved : ∀ before after, events = before ++ .resolved :: after →
    (beginnings after).length =
      (ticksServed after).length + if s.result?.isSome then 1 else s.loop.stage.isLast.toNat
  /-- It ends with the report of its last pass, -/
  result : ∀ result, s.result? = some result → ∃ before pass rest report, Closing events before pass rest ∧
    .loop (.passed pass (.completed report)) ∈ rest ∧ result = some report
  /-- and what was accepted before its last pass took has been handed over. -/
  delivered : s.result?.isSome = true → ∀ before pass contents after,
    events = before ++ .loop (.deed pass (.drained contents)) :: after →
    (∀ other taken, .loop (.deed other (.drained taken)) ∉ after) →
    ∀ tag, FanIn.itemsUnder tag (recorderCalls (loopEvents events)) = acceptedUnder (loopEvents before) tag
  /-- If shutdown has resolved and a tick is due the task may go by either. -/
  eitherWay : ∀ ticker, s.ticker = some ticker → s.loop.stage = .waiting → s.resolved = true →
    ticker.isDue s.clock = true →
    (s.step recorder (.task .stop)).1 = [.stopped, .began s.loop.passes] ∧
      (s.step recorder (.task .tick)).1 = [.ticked ticker.nextTick s.clock, .began s.loop.passes]
  /-- Once shutdown has resolved the task can come to its end, wherever it is, by steps of its own and without
  another tick. -/
  ends : (Part.timer clock period).Fits → s.resolved = true →
    ∃ steps : List LoopStep, .tick ∉ steps ∧ (run recorder (steps.map .task) s).2.result?.isSome = true
  /-- Where the timer cannot be set there is no pass at all. -/
  panics : ¬ (Part.timer clock period).Fits → beginnings events = []

/-- **A periodic task delivers everything**, whatever the period and the size of its queues, whatever becomes
of its uploads, and in whatever order pushes, the passing of time, shutdown and its own steps come. -/
theorem delivers_everything (recorder : Nat → Recorder) (size : UInt64) (clock period : Span)
    (schedule : List (TimedStep α)) :
    DeliversEverything recorder clock period (run recorder schedule (.start size clock period)).1
      (run recorder schedule (.start size clock period)).2 := by
  have hreached := reached_run recorder size clock period schedule
  have hticker := ticker_run_eq_none_iff recorder schedule (.start size clock period)
  have hpanics : ¬ (Part.timer clock period).Fits →
      beginnings (run recorder schedule (.start size clock period)).1 = [] :=
    fun hfits => beginnings_run_of_none recorder schedule (if_neg hfits)
  generalize run recorder schedule (.start size clock period) = r at hreached hticker hpanics ⊢
  obtain ⟨events, s⟩ := r
  dsimp only at hreached hticker hpanics ⊢
  obtain ⟨reports, horderly⟩ := hreached.orderly
  exact {
    apart := ⟨reports, horderly.keeps.length_eq, horderly.bounds_eq⟩
    inside := hreached.inside
    takes := hreached.takes
    once := fun pass => (horderly.keeps.keeps pass).accounts.subperm
    whole := fun pass outcome => horderly.whole
    conserved := horderly.delivers.conserved
    due := hreached.due
    stopped := by
      intro hstopped
      cases hlast : s.loop.stage.isLast with
      | false => exact absurd hstopped (hreached.told.notYet hlast)
      | true =>
        obtain ⟨before, pass, rest, hclosing, -⟩ := hreached.told.closing hlast
        exact ⟨before, pass, rest, hclosing⟩
    afterResolved := by
      intro before after hsplit
      have hlength := hreached.counted.length_after hsplit
      cases hresult : s.result?.isSome with
      | false => exact hlength
      | true =>
        rw [LoopStage.isLast_of_swept (LoopStage.of_hasEnded (s.isSome_result?.mp hresult)).1] at hlength
        exact hlength
    result := by
      intro result hresult
      have hhas := s.isSome_result?.mp (by rw [hresult]; rfl)
      obtain ⟨outcome, hstage⟩ := LoopStage.hasEnded_iff.mp hhas
      obtain ⟨before, pass, rest, report, hclosing, hover, rfl⟩ := hreached.ended hstage
      refine ⟨before, pass, rest, report, hclosing, hover, ?_⟩
      rw [result?, hstage] at hresult
      exact (Option.some.inj hresult).symm
    delivered := by
      intro hresult before pass contents after hsplit hlast
      exact horderly.delivered (s.isSome_result?.mp hresult) hsplit hlast
    eitherWay := by
      intro ticker hsome hstage hresolved hdue
      exact ⟨congrArg Prod.fst (step_stop hsome hstage hresolved),
        congrArg Prod.fst (step_tick hsome hstage hdue)⟩
    ends := by
      intro hfits hresolved
      obtain ⟨steps, hnot, hsteps⟩ := horderly.delivers.canEnd recorder
      have hsome : s.ticker ≠ none := by
        intro hnone
        cases (hticker.mp hnone).symm.trans (if_pos hfits)
      exact ⟨steps, hnot, result?_of_endsBy hsteps hnot rfl hsome hresolved⟩
    panics := hpanics }

/-- **One pass more after shutdown has resolved**, until the task has ended. -/
def OneMore (events : List (TimedEvent α)) (s : Timed α) : Prop :=
  s.result?.isSome = true → ∀ before after, events = before ++ .resolved :: after →
    (beginnings after).length = 1

/-- Over a run in which shutdown resolves between two other runs, the passes of the second are counted. -/
theorem OneMore.of_run {recorder : Nat → Recorder} {first rest : List (TimedStep α)} {s t : Timed α}
    (ht : (run recorder first s).2 = t) (hresolved : t.resolved = false)
    (h : OneMore (run recorder (first ++ .resolve :: rest) s).1
      (run recorder (first ++ .resolve :: rest) s).2) :
    (run recorder rest { t with resolved := true }).2.result?.isSome = true →
      (beginnings (run recorder rest { t with resolved := true }).1).length = 1 := by
  have hstep : t.step recorder .resolve = ([.resolved], { t with resolved := true }) := by
    rw [Timed.step, hresolved, if_neg Bool.false_ne_true]
  subst ht
  unfold run at h hstep ⊢
  rw [runSteps_append, runSteps_cons, hstep] at h
  exact fun hended => h hended _ _ rfl

/-- **There may be more passes than one** after shutdown has resolved. The period is ten seconds, an upload
takes twelve, and shutdown resolves meanwhile: when the pass is over the next tick is due, and the task goes
by that before it goes by shutdown. -/
theorem not_oneMore_of_due_tick :
    ¬ ∀ (recorder : Nat → Recorder) (size : UInt64) (clock period : Span)
      (schedule : List (TimedStep Event)), (Part.timer clock period).Fits →
      OneMore (run recorder schedule (.start size clock period)).1
        (run recorder schedule (.start size clock period)).2 := by
  intro h
  let tag : ClientTag := ⟨"shop", "sdk-1"⟩
  let event : Event := ⟨"ada", "visitor", "click", none, none, 0⟩
  let pass : List (TimedStep Event) :=
    [.task (.act .acquire), .task (.act .drain), .task (.act .finish), .task (.act .release), .task .goOn]
  let first : List (TimedStep Event) := [.append tag [event], .tally 1 (.ok 1), .wait (.ofSeconds 10),
    .task .tick, .task (.act .acquire), .task (.act .drain), .task (.act (.hand 0))]
  let rest : List (TimedStep Event) := [.wait (.ofSeconds 12), .task (.act (.answer 0)),
    .task (.act .finish), .task (.act .release), .task .goOn] ++ .task .tick :: pass ++ .task .stop :: pass
  have hone := OneMore.of_run rfl (by decide +kernel)
    (h (fun _ _ => .ok ()) 8 ⟨0⟩ (.ofSeconds 10) (first ++ .resolve :: rest) (by decide))
    (by decide +kernel)
  revert hone
  decide +kernel

end Timed

end Flusher

end FlagSidecar
