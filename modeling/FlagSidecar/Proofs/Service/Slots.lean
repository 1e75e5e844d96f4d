import FlagSidecar.Proofs.Service.Sockets

/-!
# FlagSidecar.Proofs.Service.Slots: the limit holds and every slot comes back

A slot is free, or the acceptor holds it for the socket that it sees to, or a task holds it; every step
moves one slot at most from one of these places to another. The count of active connections is increased
after a slot was got and decreased before it is given back, so it is within the slots that are held.

A task goes through its stages in order and never back, so it gives its slot back once, and an acceptor
that has joined all its tasks has all its slots.

Main statement: `Acceptor.keeps_limit`.
-/

namespace FlagSidecar.Acceptor

variable {a a' : Acceptor} {event : Option AcceptorEvent} {events : List AcceptorEvent}

/-! ## Slots -/

/-- A task that goes to another stage changes a count of tasks if it does itself. -/
theorem countP_withTask (p : ConnectionTask → Bool) {task : Nat} {id : ConnectionId} {before : TaskStage}
    (h : a.tasks[task]? = some ⟨id, before⟩) (after : TaskStage) :
    (a.withTask task id after).tasks.countP p + (if p ⟨id, before⟩ then 1 else 0) =
      a.tasks.countP p + if p ⟨id, after⟩ then 1 else 0 := by
  show (a.tasks.set task ⟨id, after⟩).countP p + _ = _
  generalize a.tasks = tasks at h ⊢
  induction tasks generalizing task with
  | nil => cases h
  | cons t rest ih =>
    cases task with
    | zero =>
      cases h
      rw [List.set_cons_zero, List.countP_cons, List.countP_cons]
      omega
    | succ task =>
      have hget : rest[task]? = some ⟨id, before⟩ := h
      have hrest := ih hget
      rw [List.set_cons_succ, List.countP_cons, List.countP_cons]
      omega

/-- What is counted as active holds a slot. -/
theorem counted_le_slots (phase : AcceptorPhase) : phase.counted ≤ phase.slots := by
  cases phase <;> simp [AcceptorPhase.counted, AcceptorPhase.slots]

theorem holdsSlot_of_isCounted (t : ConnectionTask) (h : t.isCounted = true) : t.holdsSlot = true := by
  obtain ⟨id, stage⟩ := t
  cases stage with
  | running => rfl
  | ended => rfl
  | discounted => cases h
  | released => cases h
  | joined => cases h

/-- **Every slot is somewhere**, and the count of active connections is right. -/
structure Balanced (a : Acceptor) : Prop where
  slots : a.free + a.tasks.countP ConnectionTask.holdsSlot + a.phase.slots = a.limit
  active : a.active = UInt64.ofNat (a.tasks.countP ConnectionTask.isCounted + a.phase.counted)

namespace Balanced

theorem start (limit : Nat) : Balanced { limit } := ⟨rfl, rfl⟩

/-- A step that moves no slot, and leaves the count as it is. -/
theorem congr (h : a.Balanced) (hlimit : a'.limit = a.limit) (hfree : a'.free = a.free)
    (hactive : a'.active = a.active) (htasks : a'.tasks = a.tasks)
    (hslots : a'.phase.slots = a.phase.slots) (hcounted : a'.phase.counted = a.phase.counted) :
    a'.Balanced := by
  constructor
  · rw [hlimit, hfree, htasks, hslots]
    exact h.slots
  · rw [hactive, htasks, hcounted]
    exact h.active

theorem advance {s : AcceptorStep} (h : a.Balanced) (hstep : Advances a s event a') : a'.Balanced := by
  have hslots := h.slots
  have hactive := h.active
  cases hstep with
  | take hphase => exact h.congr rfl rfl rfl rfl (by rw [hphase]; rfl) (by rw [hphase]; rfl)
  | stumble hphase => exact h
  | fail hphase e => exact h.congr rfl rfl rfl rfl (by rw [hphase]; rfl) (by rw [hphase]; rfl)
  | grant hphase hfree =>
    rw [hphase] at hslots hactive
    refine ⟨?_, hactive⟩
    show a.free - 1 + a.tasks.countP ConnectionTask.holdsSlot + 1 = a.limit
    change a.free + a.tasks.countP ConnectionTask.holdsSlot + 0 = a.limit at hslots
    omega
  | expire hphase => exact h.congr rfl rfl rfl rfl (by rw [hphase]; rfl) (by rw [hphase]; rfl)
  | countAccepted hphase => exact h.congr rfl rfl rfl rfl (by rw [hphase]; rfl) (by rw [hphase]; rfl)
  | countActive hphase =>
    rw [hphase] at hslots hactive
    refine ⟨hslots, ?_⟩
    show a.active + 1 = UInt64.ofNat (_ + 1)
    rw [hactive]
    exact (UInt64.ofNat_add _ 1).symm
  | spawn hphase =>
    -- the slot that the acceptor held is the task's now
    rw [hphase] at hslots hactive
    constructor
    · show a.free + (a.tasks ++ [_]).countP _ + 0 = a.limit
      rw [List.countP_append, List.countP_singleton, ← hslots]
      rfl
    · show a.active = UInt64.ofNat ((a.tasks ++ [_]).countP _ + 0)
      rw [List.countP_append, List.countP_singleton, hactive]
      rfl
  | stop hphase => exact h.congr rfl rfl rfl rfl (by rw [hphase]; rfl) (by rw [hphase]; rfl)
  | drop hphase => exact h.congr rfl rfl rfl rfl (by rw [hphase]; rfl) (by rw [hphase]; rfl)
  | close hphase => exact h.congr rfl rfl rfl rfl (by rw [hphase]; rfl) (by rw [hphase]; rfl)
  | giveUp hphase => exact h.congr rfl rfl rfl rfl (by rw [hphase]; rfl) (by rw [hphase]; rfl)
  | conclude hphase hall =>
    obtain hphase | hphase := hphase
    · exact h.congr rfl rfl rfl rfl (by rw [hphase]; rfl) (by rw [hphase]; rfl)
    · exact h.congr rfl rfl rfl rfl (by rw [hphase]; rfl) (by rw [hphase]; rfl)

theorem proceed {s : AcceptorStep} {task : Nat} (h : a.Balanced) (hstep : Proceeds a task s event a') :
    a'.Balanced := by
  have hslots := h.slots
  have hactive := h.active
  cases hstep with
  | @finish id hget how hcut =>
    have hholds := countP_withTask ConnectionTask.holdsSlot hget .ended
    have hcounts := countP_withTask ConnectionTask.isCounted hget .ended
    constructor
    · show a.free + _ + a.phase.slots = a.limit
      rw [Nat.add_right_cancel hholds]
      exact hslots
    · show a.active = UInt64.ofNat (_ + a.phase.counted)
      rw [Nat.add_right_cancel hcounts]
      exact hactive
  | @discount id hget =>
    have hholds := countP_withTask ConnectionTask.holdsSlot hget .discounted
    have hcounts := countP_withTask ConnectionTask.isCounted hget .discounted
    constructor
    · show a.free + _ + a.phase.slots = a.limit
      rw [Nat.add_right_cancel hholds]
      exact hslots
    · -- one less is counted
      show a.active - 1 = UInt64.ofNat ((a.withTask task id .discounted).tasks.countP _ + a.phase.counted)
      change _ + 1 = _ + 0 at hcounts
      rw [hactive, ← Nat.add_zero (a.tasks.countP _), ← hcounts, Nat.add_right_comm, UInt64.ofNat_add]
      exact UInt64.add_sub_cancel _ _
  | @release id hget =>
    have hholds := countP_withTask ConnectionTask.holdsSlot hget .released
    have hcounts := countP_withTask ConnectionTask.isCounted hget .released
    constructor
    · show a.free + 1 + (a.withTask task id .released).tasks.countP _ + a.phase.slots = a.limit
      change _ + 1 = _ + 0 at hholds
      omega
    · show a.active = UInt64.ofNat (_ + a.phase.counted)
      rw [Nat.add_right_cancel hcounts]
      exact hactive
  | @join id hget =>
    have hholds := countP_withTask ConnectionTask.holdsSlot hget .joined
    have hcounts := countP_withTask ConnectionTask.isCounted hget .joined
    constructor
    · show a.free + _ + a.phase.slots = a.limit
      rw [Nat.add_right_cancel hholds]
      exact hslots
    · show a.active = UInt64.ofNat (_ + a.phase.counted)
      rw [Nat.add_right_cancel hcounts]
      exact hactive

theorem step {s : AcceptorStep} (h : a.Balanced) (hstep : Steps a s event a') : a'.Balanced := by
  cases hstep with
  | advance hstep => exact h.advance hstep
  | proceed task hstep => exact h.proceed hstep

/-- What is counted as active is within the slots. -/
theorem counted_le (h : a.Balanced) :
    a.tasks.countP ConnectionTask.isCounted + a.phase.counted ≤ a.limit := by
  have hphase := counted_le_slots a.phase
  have htasks : a.tasks.countP ConnectionTask.isCounted ≤ a.tasks.countP ConnectionTask.holdsSlot :=
    List.countP_mono_left fun t _ => holdsSlot_of_isCounted t
  have hslots := h.slots
  omega

/-- The count of active connections does not wrap. -/
theorem active_le (h : a.Balanced) : a.active.toNat ≤ a.limit := by
  rw [h.active, UInt64.toNat_ofNat']
  exact Nat.le_trans (Nat.mod_le _ _) h.counted_le

/-- A connection that is served is counted as active. -/
theorem serving_le (h : a.Balanced) : a.serving.length ≤ a.limit := by
  have hrunning : a.tasks.countP (·.stage = .running) ≤ a.tasks.countP ConnectionTask.isCounted := by
    refine List.countP_mono_left fun t _ ht => ?_
    rw [ConnectionTask.isCounted, of_decide_eq_true ht]
  have hcounted := h.counted_le
  rw [serving, List.length_map, ← List.countP_eq_length_filter]
  omega

end Balanced

/-! ## Releases -/

theorem returns_withTask_self {task : Nat} {id : ConnectionId} {before : TaskStage}
    (h : a.tasks[task]? = some ⟨id, before⟩) (after : TaskStage) :
    (a.withTask task id after).returns task = if ConnectionTask.holdsSlot ⟨id, after⟩ then 0 else 1 := by
  have hget : (a.withTask task id after).tasks[task]? = some ⟨id, after⟩ :=
    List.getElem?_set_self (List.getElem?_eq_some_iff.mp h).1
  rw [returns, hget]

theorem returns_withTask_of_ne {task other : Nat} (hne : task ≠ other) (id : ConnectionId)
    (after : TaskStage) : (a.withTask task id after).returns other = a.returns other := by
  have hget : (a.withTask task id after).tasks[other]? = a.tasks[other]? := List.getElem?_set_ne hne
  rw [returns, returns, hget]

/-- A task that stays on the same side of its release. -/
theorem returns_withTask {task : Nat} {id : ConnectionId} {before : TaskStage}
    (h : a.tasks[task]? = some ⟨id, before⟩) (after : TaskStage)
    (hsame : ConnectionTask.holdsSlot ⟨id, after⟩ = ConnectionTask.holdsSlot ⟨id, before⟩) (other : Nat) :
    (a.withTask task id after).returns other = a.returns other := by
  by_cases hne : task = other
  · subst hne
    rw [returns_withTask_self h, hsame, returns, h]
  · exact returns_withTask_of_ne hne id after

/-- **A release is in the log once, and from then on.** -/
theorem count_released_step {s : AcceptorStep} (hstep : Steps a s event a')
    (h : ∀ task, events.count (.released task) = a.returns task) (task : Nat) :
    (events ++ event.toList).count (.released task) = a'.returns task := by
  -- a step that is no release, and changes nothing about them
  have hquiet : event.toList.count (.released task) = 0 → a'.returns task = a.returns task →
      (events ++ event.toList).count (.released task) = a'.returns task := by
    intro hcount hreturns
    rw [List.count_append, hcount, hreturns]
    exact h task
  cases hstep with
  | advance hstep =>
    cases hstep with
    | @spawn id hphase =>
      refine hquiet rfl ?_
      -- the new task has given back nothing
      unfold returns
      by_cases hlt : task < a.tasks.length
      · rw [List.getElem?_append_left hlt]
      · have hge := Nat.le_of_not_lt hlt
        rw [List.getElem?_append_right hge, List.getElem?_eq_none hge]
        cases task - a.tasks.length <;> rfl
    | take hphase => exact hquiet rfl rfl
    | stumble hphase => exact hquiet rfl rfl
    | fail hphase e => exact hquiet rfl rfl
    | grant hphase hfree => exact hquiet rfl rfl
    | expire hphase => exact hquiet rfl rfl
    | countAccepted hphase => exact hquiet rfl rfl
    | countActive hphase => exact hquiet rfl rfl
    | stop hphase => exact hquiet rfl rfl
    | drop hphase => exact hquiet rfl rfl
    | close hphase => exact hquiet rfl rfl
    | giveUp hphase => exact hquiet rfl rfl
    | conclude hphase hall => exact hquiet rfl rfl
  | proceed other hstep =>
    cases hstep with
    | finish hget how hcut => exact hquiet rfl (returns_withTask hget .ended rfl task)
    | discount hget => exact hquiet rfl (returns_withTask hget .discounted rfl task)
    | join hget => exact hquiet rfl (returns_withTask hget .joined rfl task)
    | @release id hget =>
      show (events ++ [AcceptorEvent.released other]).count (.released task) =
        (a.withTask other id .released).returns task
      rw [List.count_append, h]
      by_cases hne : other = task
      · subst hne
        rw [returns_withTask_self hget, returns, hget, List.count_singleton_self]
        rfl
      · rw [returns_withTask_of_ne hne, List.count_singleton, if_neg (by simpa using hne)]
        rfl

/-- A task whose handler is gone can give its slot back. -/
theorem run_giveBack {task : Nat} {id : ConnectionId} (h : a.tasks[task]? = some ⟨id, .ended⟩) :
    run [.discount task, .release task] a = ([.released task],
      { a with
        tasks := a.tasks.set task ⟨id, .released⟩
        active := a.active - 1
        free := a.free + 1 }) := by
  have hdiscount : a.step (.discount task) =
      ([], { a.withTask task id .discounted with active := a.active - 1 }) := by
    simp only [step, step?, h, Option.toList_none]
  have hget : (a.tasks.set task ⟨id, .discounted⟩)[task]? = some ⟨id, .discounted⟩ :=
    List.getElem?_set_self (List.getElem?_eq_some_iff.mp h).1
  rw [run, runSteps_cons, hdiscount, runSteps_singleton]
  simp only [step, step?, withTask, hget, List.set_set, Option.toList_some, List.nil_append]

/-! ## Every run -/

/-- The limit is the same all the time. -/
theorem limit_run (steps : List AcceptorStep) (a : Acceptor) : (run steps a).2.limit = a.limit := by
  refine run_induction (motive := fun _ s => s.limit = a.limit) rfl ?_ steps
  intro events s step event s' hstep h
  rw [← h]
  cases hstep with
  | advance hstep => cases hstep <;> rfl
  | proceed task hstep => cases hstep <;> rfl

/-- What holds of an acceptor with these events behind it, if it keeps to its limit. -/
structure KeepsLimit (limit : Nat) (events : List AcceptorEvent) (a : Acceptor) : Prop where
  /-- No more connections are served than there are slots. -/
  serving_le : a.serving.length ≤ limit
  /-- Nor are more counted as active. -/
  active_le : a.active.toNat ≤ limit
  /-- Every slot is free, or held for the socket that is seen to, or held by a task. -/
  slots : a.free + a.phase.slots + a.tasks.countP (·.holdsSlot) = limit
  /-- Every socket that was taken is accepted or rejected, or it waits for that or was dropped at the end. -/
  taken : (taken events).length =
    (admitted events).length + (rejections events).length + (a.phase.pending ++ dropped events).length
  /-- Only one waits or was dropped. -/
  one : (a.phase.pending ++ dropped events).length ≤ 1
  accepted : a.accepted = UInt64.ofNat (admitted events).length
  rejected : a.rejected = UInt64.ofNat (rejections events).length
  /-- Later connections have greater numbers, as long as there are some that were not given. -/
  increasing : (Acceptor.taken events).length < 2 ^ 64 → (admitted events).Pairwise (· < ·)
  /-- Each connection has a task of its own, or will have one. -/
  tasks : admitted events = a.tasks.map (·.connection) ++ a.phase.unassigned
  /-- A task gives its slot back once, and not before its handler is gone. -/
  released : ∀ task, events.count (.released task) = a.returns task
  /-- However its handler went, it can give it back. -/
  goes_on : ∀ task id, a.tasks[task]? = some ⟨id, .ended⟩ →
    run [.discount task, .release task] a = ([.released task],
      { a with
        tasks := a.tasks.set task ⟨id, .released⟩
        active := a.active - 1
        free := a.free + 1 })
  /-- At the end no connection is served, every task is over and has given back its slot, nothing is counted
  as active and the listener is closed, whether the acceptor failed or not. -/
  returned : ∀ failure, a.phase = .returned failure → a.serving = [] ∧
    (∀ t ∈ a.tasks, t.stage = .joined) ∧ (∀ task < a.tasks.length, events.count (.released task) = 1) ∧
    a.free = limit ∧ a.active = 0 ∧ a.listening = false

/-- **The limit holds and every slot comes back**, whatever the limit, in every order of steps. -/
theorem keeps_limit (limit : Nat) (steps : List AcceptorStep) :
    KeepsLimit limit (run steps { limit }).1 (run steps { limit }).2 := by
  have hlimit : (run steps { limit }).2.limit = limit := limit_run steps { limit }
  have hbalanced : (run steps { limit }).2.Balanced :=
    run_induction (motive := fun _ a => a.Balanced) (.start limit) (fun hstep h => h.step hstep) steps
  have haccounted : Accounted (run steps { limit }).1 (run steps { limit }).2 :=
    run_induction (.start limit) (fun hstep h => h.step hstep) steps
  have hnumbered : Numbered (run steps { limit }).1 (run steps { limit }).2 :=
    run_induction (.start limit) (fun hstep h => h.step hstep) steps
  have hreleased : ∀ task, (run steps { limit }).1.count (.released task) =
      (run steps { limit }).2.returns task :=
    run_induction (motive := fun events a => ∀ task, events.count (.released task) = a.returns task)
      (fun _ => rfl) (fun hstep h => count_released_step hstep h) steps
  have hleaving : (run steps { limit }).2.Leaving :=
    run_induction (motive := fun _ a => a.Leaving) (.start limit) (fun hstep h => h.step hstep) steps
  generalize run steps { limit } = result at hlimit hbalanced haccounted hnumbered hreleased hleaving ⊢
  obtain ⟨events, a⟩ := result
  obtain rfl : a.limit = limit := hlimit
  exact {
    serving_le := hbalanced.serving_le
    active_le := hbalanced.active_le
    slots := by
      rw [Nat.add_right_comm]
      exact hbalanced.slots
    taken := haccounted.taken
    one := haccounted.one
    accepted := haccounted.accepted
    rejected := haccounted.rejected
    increasing := by
      intro hfew
      have hsublist := (List.sublist_append_left _ _).trans hnumbered.sublist
      rw [hnumbered.taken] at hsublist
      exact (pairwise_numbers hfew).sublist hsublist
    tasks := hnumbered.tasks
    released := hreleased
    goes_on := fun task id => run_giveBack
    returned := by
      intro failure hphase
      have hjoined := hleaving.joined failure hphase
      have hnone : ∀ {p : ConnectionTask → Bool}, (∀ id, p ⟨id, .joined⟩ = false) → a.tasks.countP p = 0 := by
        intro p hp
        rw [List.countP_eq_zero]
        rintro ⟨id, stage⟩ ht
        obtain rfl : stage = .joined := hjoined _ ht
        rw [hp]
        exact Bool.false_ne_true
      have hslots := hbalanced.slots
      have hactive := hbalanced.active
      rw [hphase, hnone fun _ => rfl] at hslots hactive
      refine ⟨?_, hjoined, ?_, hslots, hactive, ?_⟩
      · rw [serving, List.filter_eq_nil_iff.mpr, List.map_nil]
        intro t ht
        rw [hjoined t ht]
        decide
      · intro task htask
        rw [hreleased, returns, List.getElem?_eq_getElem htask]
        have hstage := hjoined _ (List.getElem_mem htask)
        simp only [ConnectionTask.holdsSlot, hstage, Bool.false_eq_true, if_false]
      · rw [hleaving.closed, hphase]
        rfl }

/-- A limit of one: the second socket is rejected, the first is cut off in the end. -/
example :
    let (events, a) := run
      [.take, .grant, .countAccepted, .countActive, .spawn, .take, .expire, .stop, .close, .giveUp,
        .finish 0 .aborted, .discount 0, .release 0, .join 0, .conclude] { limit := 1 }
    events = [.taken 1, .admitted 1, .taken 2, .rejected 2, .ended 0 .aborted, .released 0] ∧
      a = { limit := 1, nextId := 3, listening := false, tasks := [⟨1, .joined⟩], accepted := 1, rejected := 1,
            phase := .returned none } := by
  decide

end FlagSidecar.Acceptor
