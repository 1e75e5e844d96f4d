import FlagSidecar.Proofs.Service.Tasks
import FlagSidecar.Proofs.Shutdown.WakeUp

/-!
# FlagSidecar.Proofs.Service.ShutdownOrder: the acceptor first, then the flushers, then the daemon

The acceptor has returned before the flushers are told to stop. A flusher looks whether it is told, and
until then makes one pass after the other; it makes its last pass after that, and the daemon returns when
both have. So no connection accepts anything while a last pass is made, or later.

Main statements: `DaemonTasks.Ordered.step`, `DaemonTasks.Ordered.run_accepted`.
-/

namespace FlagSidecar

/-! ## Listeners that look -/

namespace Coordinator

variable {c : Coordinator} {listener : Nat}

/-- Looking does not set the flag. -/
@[simp]
theorem initiated_look (c : Coordinator) (listener : Nat) (look : Look) :
    (c.look listener look).initiated = c.initiated := by
  cases look <;> rfl

/-- A listener looks at the flag, and for a reason if it has to wait. -/
def looked (c : Coordinator) (listener : Nat) : Coordinator := (c.look listener .check).look listener .receive

theorem initiated_looked (c : Coordinator) (listener : Nat) : (c.looked listener).initiated = c.initiated :=
  (initiated_look ..).trans (initiated_look ..)

/-- Whoever initiates shutdown, or is told that it was initiated, finds the flag set. -/
theorem initiated_initiate (c : Coordinator) (reason : ShutdownReason) :
    (c.initiate reason).2.initiated = true := by
  obtain ⟨initiated, listeners⟩ := c
  cases initiated <;> rfl

/-- **Those who are to be told**, two of them, where the flag is claimed and the reason is sent at once: while
the flag is clear nobody has got anything, and once it is set nobody waits in vain. -/
structure Tells (c : Coordinator) : Prop where
  two : c.listeners.length = 2
  uncalled : c.initiated = false → ∀ l ∈ c.listeners, l.Uncalled
  provided : c.initiated = true → ∀ l ∈ c.listeners, l.Provided

namespace Tells

theorem start : ((Coordinator.subscribe {}).subscribe).Tells where
  two := rfl
  uncalled _ := forall_mem_subscribe (forall_mem_subscribe nofun .subscribed) .subscribed
  provided := nofun

theorem look (h : c.Tells) (listener : Nat) (look : Look) : (c.look listener look).Tells where
  two := by
    cases look with
    | check => exact (List.length_modify ..).trans h.two
    | receive => exact (List.length_modify ..).trans h.two
  uncalled hclear := by
    rw [initiated_look] at hclear
    cases look with
    | check =>
      refine forall_mem_modify (h.uncalled hclear) (fun l hl => ?_) listener
      rw [hclear]
      exact hl.check
    | receive => exact forall_mem_modify (h.uncalled hclear) (fun l hl => hl.receive) listener
  provided hset := by
    rw [initiated_look] at hset
    cases look with
    | check =>
      refine forall_mem_modify (h.provided hset) (fun l hl => ?_) listener
      rw [hset]
      exact hl.check
    | receive => exact forall_mem_modify (h.provided hset) (fun l hl => hl.receive) listener

theorem initiate (h : c.Tells) (reason : ShutdownReason) : (c.initiate reason).2.Tells := by
  cases hflag : c.initiated with
  | true =>
    have hsame : (c.initiate reason).2 = c := by
      obtain ⟨initiated, listeners⟩ := c
      obtain rfl : initiated = true := hflag
      rfl
    rw [hsame]
    exact h
  | false =>
    have hsent : (c.initiate reason).2 = ({ c with initiated := true } : Coordinator).broadcast reason := by
      obtain ⟨initiated, listeners⟩ := c
      obtain rfl : initiated = false := hflag
      rfl
    rw [hsent]
    refine ⟨(List.length_map _).trans h.two, nofun, fun _ l hl => ?_⟩
    rw [listeners_broadcast] at hl
    obtain ⟨before, hbefore, rfl⟩ := List.mem_map.mp hl
    exact .get (h.uncalled hflag before hbefore).inbox reason

/-- A listener that has resolved has been told. -/
theorem initiated_of_hasResolved (h : c.Tells) (hresolved : c.hasResolved listener = true) :
    c.initiated = true := by
  unfold hasResolved at hresolved
  split at hresolved
  next l hl =>
    by_contra hclear
    exact (h.uncalled (Bool.eq_false_of_not_eq_true hclear) l (List.mem_of_getElem? hl)).unresolved
      (of_decide_eq_true hresolved)
  next => cases hresolved

theorem looked (h : c.Tells) (listener : Nat) : (c.looked listener).Tells :=
  (h.look listener .check).look listener .receive

/-- **Once the flag is set whoever looks resolves.** -/
theorem hasResolved_looked (h : c.Tells) (hset : c.initiated = true) (hlistener : listener < 2) :
    (c.looked listener).hasResolved listener = true := by
  rw [← h.two] at hlistener
  have hget := List.getElem?_eq_getElem hlistener
  have hlooked : (c.looked listener).listeners[listener]? =
      some (c.listeners[listener].check c.initiated).receive := by
    show ((c.listeners.modify listener _).modify listener _)[listener]? = _
    rw [List.getElem?_modify_eq, List.getElem?_modify_eq, hget]
    rfl
  unfold hasResolved
  rw [hlooked, hset]
  exact decide_eq_true (h.provided hset _ (List.getElem_mem hlistener)).state_receive_check

end Tells

end Coordinator

/-! ## Stages -/

namespace DaemonStage

/-- Does the acceptor still run, as far as the daemon knows? -/
def isServing : DaemonStage → Bool
  | serving => true
  | _ => false

/-- Has the daemon joined the flusher of this kind of record? -/
def hasJoined : DaemonStage → RecordKind → Bool
  | flushingEvents, .impressions => true
  | flushed, _ => true
  | returned _, _ => true
  | _, _ => false

/-- Has the daemon told the flushers to stop? -/
def hasTold : DaemonStage → Bool
  | serving => false
  | served => false
  | _ => true

theorem isServing_of_hasTold {stage : DaemonStage} (h : stage.hasTold = true) : stage.isServing = false := by
  cases stage with
  | serving => cases h
  | _ => rfl

theorem isServing_of_hasJoined {stage : DaemonStage} {kind : RecordKind} (h : stage.hasJoined kind = true) :
    stage.isServing = false := by
  cases stage with
  | serving => cases h
  | _ => rfl

end DaemonStage

namespace DaemonTasks

variable {σ : Type} {env : Surroundings σ} {s s' : DaemonTasks σ} {more : List DaemonEvent}

/-- Has the flusher of this kind of record been told to stop? -/
def isLast (s : DaemonTasks σ) : RecordKind → Bool
  | .impressions => s.impressions.stage.isLast
  | .events => s.events.stage.isLast

def hasEnded (s : DaemonTasks σ) : RecordKind → Bool
  | .impressions => s.impressions.stage.hasEnded
  | .events => s.events.stage.hasEnded

/-- **Shutdown has an order**: the acceptor has returned before the flushers are told to stop, they are told
before they make their last passes, and these are over before the daemon returns. -/
structure Ordered (s : DaemonTasks σ) : Prop where
  leaving : s.acceptor.Leaving
  served : s.stage.isServing = false → ∃ failure, s.acceptor.phase = .returned failure
  told : s.flushStop.initiated = true → s.stage.isServing = false
  tells : s.flushStop.Tells
  telling : s.stage.hasTold = true → s.flushStop.initiated = true
  heed : ∀ kind, s.isLast kind = true → s.flushStop.initiated = true
  joined : ∀ kind, s.stage.hasJoined kind = true → s.hasEnded kind = true
  result : ∀ result, s.stage = .returned result → result = s.outcome

namespace Ordered

theorem start (limit : Nat) (impressionsSize eventsSize : UInt64) :
    (start limit impressionsSize eventsSize : DaemonTasks σ).Ordered where
  leaving := .start limit
  served := nofun
  told := nofun
  tells := .start
  telling := nofun
  heed kind hlast := by cases kind <;> cases hlast
  joined := nofun
  result := nofun

/-- Acceptors and tasks take steps only while the daemon serves. -/
theorem isServing_of_steps {step : AcceptorStep} {event : Option AcceptorEvent} {a : Acceptor}
    (h : s.Ordered) (hsteps : s.acceptor.Steps step event a) : s.stage.isServing = true := by
  by_contra hover
  obtain ⟨failure, hphase⟩ := h.served (Bool.eq_false_of_not_eq_true hover)
  exact h.leaving.not_steps hphase hsteps

theorem isServing_of_running {task : Nat} {work : Work σ} (h : s.Ordered)
    (hrunning : s.running? task = some work) : s.stage.isServing = true := by
  by_contra hover
  obtain ⟨failure, hphase⟩ := h.served (Bool.eq_false_of_not_eq_true hover)
  cases (running?_eq_some hrunning).1.symm.trans (h.leaving.isRunning_eq_false hphase task)

/-- As long as the daemon serves, no flusher has been told to stop. -/
theorem isLast_eq_false (h : s.Ordered) (hserving : s.stage.isServing = true) (kind : RecordKind) :
    s.isLast kind = false := by
  by_contra hlast
  cases hserving.symm.trans (h.told (h.heed kind (Bool.eq_true_of_not_eq_false hlast)))

/-- While the daemon serves, nothing matters that leaves the acceptor in order, and what flushers are told
and do as it is. -/
theorem congr (h : s.Ordered) (hserving : s.stage.isServing = true) (hleaving : s'.acceptor.Leaving)
    (hstage : s'.stage = s.stage) (hstop : s'.flushStop = s.flushStop)
    (himpressions : s'.impressions.stage = s.impressions.stage) (hevents : s'.events.stage = s.events.stage) :
    s'.Ordered where
  leaving := hleaving
  served hover := by
    rw [hstage, hserving] at hover
    cases hover
  told := by
    rw [hstage, hstop]
    exact h.told
  tells := by
    rw [hstop]
    exact h.tells
  telling := by
    rw [hstage, hstop]
    exact h.telling
  heed kind := by
    have hsame : s'.isLast kind = s.isLast kind := by
      cases kind
      · exact congrArg Flusher.LoopStage.isLast himpressions
      · exact congrArg Flusher.LoopStage.isLast hevents
    rw [hsame, hstop]
    exact h.heed kind
  joined kind hjoined := by
    have hover := DaemonStage.isServing_of_hasJoined hjoined
    rw [hstage, hserving] at hover
    cases hover
  result result hreturned := by
    rw [← hstage, hreturned] at hserving
    cases hserving

/-- The flusher of one kind of record takes a step. It stops if it was told to, and it has not been joined.
-/
theorem flush (h : s.Ordered) (kind : RecordKind) (hacceptor : s'.acceptor = s.acceptor)
    (hstage : s'.stage = s.stage) (hstop : s'.flushStop = s.flushStop)
    (hlast : s'.isLast kind = true → s.isLast kind = true ∨ s.flushStop.hasResolved kind.listener = true)
    (hrunning : s.hasEnded kind = false)
    (hothers : ∀ other, kind ≠ other →
      s'.isLast other = s.isLast other ∧ s'.hasEnded other = s.hasEnded other) :
    s'.Ordered where
  leaving := by
    rw [hacceptor]
    exact h.leaving
  served := by
    rw [hstage, hacceptor]
    exact h.served
  told := by
    rw [hstage, hstop]
    exact h.told
  tells := by
    rw [hstop]
    exact h.tells
  telling := by
    rw [hstage, hstop]
    exact h.telling
  heed other hother := by
    rw [hstop]
    by_cases hne : kind = other
    · subst hne
      rcases hlast hother with hbefore | hresolved
      · exact h.heed kind hbefore
      · exact h.tells.initiated_of_hasResolved hresolved
    · rw [(hothers other hne).1] at hother
      exact h.heed other hother
  joined other hjoined := by
    rw [hstage] at hjoined
    have hended := h.joined other hjoined
    by_cases hne : kind = other
    · subst hne
      cases hrunning.symm.trans hended
    · rw [(hothers other hne).2]
      exact hended
  result result hreturned := by
    rw [hstage] at hreturned
    have hended := h.joined kind (by rw [hreturned]; rfl)
    cases hrunning.symm.trans hended

/-- When the acceptor has returned, the daemon goes on to a stage at which it has joined what has ended. -/
theorem advance (h : s.Ordered) (htold : s.stage.hasTold = true) {stage : DaemonStage}
    (hstage : stage.isServing = false)
    (hjoined : ∀ kind, stage.hasJoined kind = true → s.hasEnded kind = true)
    (hresult : ∀ result, stage = .returned result → result = s.outcome) : Ordered { s with stage } where
  leaving := h.leaving
  served _ := h.served (DaemonStage.isServing_of_hasTold htold)
  told _ := hstage
  tells := h.tells
  telling _ := h.telling htold
  heed kind hlast := h.heed kind (by cases kind <;> exact hlast)
  joined kind hkind := by cases kind <;> exact hjoined _ hkind
  result := hresult

/-- The daemon itself goes on. -/
theorem goOn (h : s.Ordered) (hnext : GoesOn s s') : s'.Ordered := by
  cases hnext with
  | served hstage hphase c =>
    exact {
      leaving := h.leaving
      served := fun _ => ⟨_, hphase⟩
      told := fun _ => rfl
      tells := h.tells
      telling := nofun
      heed := fun kind hlast => h.heed kind (by cases kind <;> exact hlast)
      joined := nofun
      result := nofun }
  | tell hstage =>
    have hset := Coordinator.initiated_initiate s.flushStop .programmatic
    exact {
      leaving := h.leaving
      served := fun _ => h.served (by rw [hstage]; rfl)
      told := fun _ => rfl
      tells := h.tells.initiate .programmatic
      telling := fun _ => hset
      heed := fun _ _ => hset
      joined := nofun
      result := nofun }
  | joinImpressions hstage hended =>
    refine h.advance (by rw [hstage]; rfl) rfl ?_ nofun
    intro kind hkind
    cases kind with
    | impressions => rw [hasEnded, hended]; rfl
    | events => cases hkind
  | joinEvents hstage hended =>
    refine h.advance (by rw [hstage]; rfl) rfl ?_ nofun
    intro kind hkind
    cases kind with
    | impressions => exact h.joined .impressions (by rw [hstage]; rfl)
    | events => rw [hasEnded, hended]; rfl
  | conclude hstage =>
    refine h.advance (by rw [hstage]; rfl) rfl ?_ ?_
    · intro kind _
      exact h.joined kind (by rw [hstage]; cases kind <;> rfl)
    · intro result hreturned
      cases hreturned
      rfl

/-- **Every step keeps the order.** -/
theorem step (h : s.Ordered) (hstep : Happens env s more s') : s'.Ordered := by
  cases hstep with
  | shutdown c => exact ⟨h.leaving, h.served, h.told, h.tells, h.telling, h.heed, h.joined, h.result⟩
  | spawn hsteps => exact h.congr (h.isServing_of_steps hsteps) (h.leaving.step hsteps) rfl rfl rfl rfl
  | finish hwork hmay hsteps =>
    exact h.congr (h.isServing_of_steps hsteps) (h.leaving.step hsteps) rfl rfl rfl rfl
  | acceptor hspawn hfinish hsteps =>
    exact h.congr (h.isServing_of_steps hsteps) (h.leaving.step hsteps) rfl rfl rfl rfl
  | receive hrunning now => exact h.congr (h.isServing_of_running hrunning) h.leaving rfl rfl rfl rfl
  | record hrunning => exact h.congr (h.isServing_of_running hrunning) h.leaving rfl rfl rfl rfl
  | track hrunning => exact h.congr (h.isServing_of_running hrunning) h.leaving rfl rfl rfl rfl
  | perform hrunning himpressions hevent =>
    exact h.congr (h.isServing_of_running hrunning) h.leaving rfl rfl rfl rfl
  | @count task c reply kind offered result hrunning =>
    cases kind with
    | impressions => exact h.congr (h.isServing_of_running hrunning) h.leaving rfl rfl rfl rfl
    | events => exact h.congr (h.isServing_of_running hrunning) h.leaving rfl rfl rfl rfl
  | answer hrunning => exact h.congr (h.isServing_of_running hrunning) h.leaving rfl rfl rfl rfl
  | flusherLooks kind look =>
    have hsame := Coordinator.initiated_look s.flushStop kind.listener look
    exact {
      leaving := h.leaving
      served := h.served
      told := fun hset => h.told (hsame.symm.trans hset)
      tells := h.tells.look kind.listener look
      telling := fun htold => hsame.trans (h.telling htold)
      heed := fun other hlast => hsame.trans (h.heed other (by cases other <;> exact hlast))
      joined := fun other hjoined => by cases other <;> exact h.joined _ hjoined
      result := h.result }
  | flushImpressions hstop hgoes =>
    refine h.flush .impressions rfl rfl rfl (fun hlast => ?_) hgoes.hasEnded fun other hne => ?_
    · exact (hgoes.isLast hlast).imp id hstop
    · cases other with
      | impressions => exact absurd rfl hne
      | events => exact ⟨rfl, rfl⟩
  | flushEvents hstop hgoes =>
    refine h.flush .events rfl rfl rfl (fun hlast => ?_) hgoes.hasEnded fun other hne => ?_
    · exact (hgoes.isLast hlast).imp id hstop
    · cases other with
      | impressions => exact ⟨rfl, rfl⟩
      | events => exact absurd rfl hne
  | goOn hnext => exact h.goOn hnext

end Ordered

/-! ## After the acceptor -/

/-- **When the acceptor has returned nothing is accepted any more**, and it does not begin again. -/
theorem Ordered.accepted (h : s.Ordered) (hstep : Happens env s more s') {failure : Option IoError}
    (hphase : s.acceptor.phase = .returned failure) : s'.acceptor = s.acceptor ∧
      (impressionEvents more).filterMap Flusher.LoopEvent.accepted? = [] ∧
      (eventEvents more).filterMap Flusher.LoopEvent.accepted? = [] := by
  have hstopped : ∀ {task work}, s.running? task ≠ some work := by
    intro task work hrunning
    cases (running?_eq_some hrunning).1.symm.trans (h.leaving.isRunning_eq_false hphase task)
  cases hstep with
  | spawn hsteps => exact absurd hsteps (h.leaving.not_steps hphase)
  | finish hwork hmay hsteps => exact absurd hsteps (h.leaving.not_steps hphase)
  | acceptor hspawn hfinish hsteps => exact absurd hsteps (h.leaving.not_steps hphase)
  | receive hrunning now => exact absurd hrunning hstopped
  | record hrunning => exact absurd hrunning hstopped
  | track hrunning => exact absurd hrunning hstopped
  | perform hrunning himpressions hevent => exact absurd hrunning hstopped
  | count hrunning => exact absurd hrunning hstopped
  | answer hrunning => exact absurd hrunning hstopped
  | shutdown c => exact ⟨rfl, rfl, rfl⟩
  | flusherLooks kind look => exact ⟨rfl, rfl, rfl⟩
  | flushImpressions hstop hgoes =>
    refine ⟨rfl, ?_, congrArg _ (filterMap_map_eq_nil fun _ => rfl)⟩
    rw [impressionEvents_map]
    exact hgoes.accepted
  | flushEvents hstop hgoes =>
    refine ⟨rfl, congrArg _ (filterMap_map_eq_nil fun _ => rfl), ?_⟩
    rw [eventEvents_map]
    exact hgoes.accepted
  | goOn hnext =>
    cases hnext with
    | _ => exact ⟨rfl, rfl, rfl⟩

theorem Ordered.run_accepted (h : s.Ordered) {failure : Option IoError}
    (hphase : s.acceptor.phase = .returned failure) (schedule : List DaemonStep) :
    (impressionEvents (run env schedule s).1).filterMap Flusher.LoopEvent.accepted? = [] ∧
      (eventEvents (run env schedule s).1).filterMap Flusher.LoopEvent.accepted? = [] := by
  suffices hrun : (run env schedule s).2.Ordered ∧ (run env schedule s).2.acceptor.phase = .returned failure ∧
      (impressionEvents (run env schedule s).1).filterMap Flusher.LoopEvent.accepted? = [] ∧
      (eventEvents (run env schedule s).1).filterMap Flusher.LoopEvent.accepted? = [] from hrun.2.2
  refine run_induction (motive := fun events s => s.Ordered ∧ s.acceptor.phase = .returned failure ∧
    (impressionEvents events).filterMap Flusher.LoopEvent.accepted? = [] ∧
    (eventEvents events).filterMap Flusher.LoopEvent.accepted? = []) ⟨h, hphase, rfl, rfl⟩ ?_ schedule
  rintro events s more s' hstep ⟨hordered, hphase, himpressions, hevents⟩
  obtain ⟨hsame, hmoreImpressions, hmoreEvents⟩ := hordered.accepted hstep hphase
  refine ⟨hordered.step hstep, hsame ▸ hphase, ?_, ?_⟩
  · rw [impressionEvents_append, List.filterMap_append, himpressions, hmoreImpressions]
    rfl
  · rw [eventEvents_append, List.filterMap_append, hevents, hmoreEvents]
    rfl

end DaemonTasks

end FlagSidecar
