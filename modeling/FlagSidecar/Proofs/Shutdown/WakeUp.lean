import FlagSidecar.Shutdown.Calls

/-!
# FlagSidecar.Proofs.Shutdown.WakeUp: shutdown is initiated once and wakes every listener

However the steps of calls and listeners are interleaved, shutdown comes about in three stages: nobody has
claimed the flag; one call has, and has sent nothing; it has sent its reason. A listener that subscribes
in the last stage finds the flag set when it looks. One that saw the flag clear looked in the first stage,
so it had subscribed before the reason was sent, and has got it.

Main statements: `Coordinator.Calls.stage_run`, `Coordinator.Calls.wakes_everyone`.
-/

namespace FlagSidecar

/-! ## One listener -/

namespace Listener

/-- What a listener gets when a reason is sent. -/
def get (reason : ShutdownReason) (l : Listener) : Listener := { l with inbox := l.inbox ++ [reason] }

/-- Looking at the flag takes nothing that was sent. -/
@[simp]
theorem inbox_check (initiated : Bool) (l : Listener) : (l.check initiated).inbox = l.inbox := by
  obtain ⟨state, inbox⟩ := l
  cases state <;> rfl

/-- A listener whose inbox is empty goes on as it is when it looks for a reason. -/
theorem receive_of_inbox_eq_nil {l : Listener} (h : l.inbox = []) : l.receive = l := by
  obtain ⟨state, inbox⟩ := l
  obtain rfl : inbox = [] := h
  cases state <;> rfl

/-- Nothing was sent to the listener, and it has not resolved. -/
structure Uncalled (l : Listener) : Prop where
  inbox : l.inbox = []
  unresolved : l.state ≠ .resolved

namespace Uncalled

variable {l : Listener}

theorem subscribed : Uncalled ⟨.subscribed, []⟩ := ⟨rfl, nofun⟩

/-- While the flag is clear nobody resolves by looking at it. -/
theorem check (h : l.Uncalled) : (l.check false).Uncalled := by
  obtain ⟨state, inbox⟩ := l
  cases state with
  | subscribed => exact ⟨h.inbox, nofun⟩
  | waiting => exact h
  | resolved => exact absurd rfl h.unresolved

theorem receive (h : l.Uncalled) : l.receive.Uncalled := by
  rw [receive_of_inbox_eq_nil h.inbox]
  exact h

end Uncalled

/-- **Nothing that was sent is awaited in vain**: if the listener waits, there is a reason for it to take,
and there is one at most. -/
structure Provided (l : Listener) : Prop where
  of_waiting : l.state = .waiting → l.inbox ≠ []
  room : l.inbox.length ≤ 1

namespace Provided

variable {l : Listener}

theorem subscribed : Provided ⟨.subscribed, []⟩ := ⟨nofun, Nat.zero_le 1⟩

/-- Whoever gets the first reason has one. -/
theorem get (h : l.inbox = []) (reason : ShutdownReason) : (l.get reason).Provided := by
  have hinbox : (l.get reason).inbox = [reason] := by rw [Listener.get, h, List.nil_append]
  constructor
  · intro _
    rw [hinbox]
    exact List.cons_ne_nil _ _
  · rw [hinbox]
    exact Nat.le_refl 1

/-- Once the flag is set nobody begins to wait. -/
theorem check (h : l.Provided) : (l.check true).Provided := by
  refine ⟨?_, ?_⟩
  · intro hwaits
    rw [inbox_check]
    obtain ⟨state, inbox⟩ := l
    cases state with
    | waiting => exact h.of_waiting rfl
    | subscribed => cases hwaits
    | resolved => cases hwaits
  · rw [inbox_check]
    exact h.room

theorem receive (h : l.Provided) : l.receive.Provided := by
  obtain ⟨state, inbox⟩ := l
  cases state with
  | subscribed => exact h
  | resolved => exact h
  | waiting =>
    cases inbox with
    | nil => exact h
    | cons reason rest => exact ⟨nofun, Nat.le_of_succ_le h.room⟩

/-- **A listener that is provided resolves**: if it has not looked at the flag it does, and if it waits it
takes its reason. -/
theorem state_receive_check (h : l.Provided) : (l.check true).receive.state = .resolved := by
  obtain ⟨state, inbox⟩ := l
  cases state with
  | subscribed => rfl
  | resolved => rfl
  | waiting =>
    cases inbox with
    | nil => exact absurd rfl (h.of_waiting rfl)
    | cons reason rest => rfl

end Provided

end Listener

namespace Coordinator

/-! ## All listeners -/

theorem listeners_broadcast (c : Coordinator) (reason : ShutdownReason) :
    (c.broadcast reason).listeners = c.listeners.map (Listener.get reason) := rfl

/-- What holds of every listener, and of one after it has done something, holds of every listener after one
of them has done it. -/
theorem forall_mem_modify {p : Listener → Prop} {listeners : List Listener} {f : Listener → Listener}
    (h : ∀ l ∈ listeners, p l) (hf : ∀ l, p l → p (f l)) (i : Nat) : ∀ l ∈ listeners.modify i f, p l := by
  intro l hl
  obtain ⟨j, hj⟩ := List.mem_iff_getElem?.mp hl
  rw [List.getElem?_modify] at hj
  obtain ⟨before, hbefore, rfl⟩ := Option.map_eq_some_iff.mp hj
  have hp := h before (List.mem_of_getElem? hbefore)
  show p (if i = j then f before else before)
  split
  · exact hf before hp
  · exact hp

/-- What holds of every listener and of a new one holds of every listener after one has subscribed. -/
theorem forall_mem_subscribe {p : Listener → Prop} {c : Coordinator} (h : ∀ l ∈ c.listeners, p l)
    (hnew : p ⟨.subscribed, []⟩) : ∀ l ∈ c.subscribe.listeners, p l := by
  intro l hl
  rcases List.mem_append.mp hl with hold | hl
  · exact h l hold
  · rw [List.mem_singleton.mp hl]
    exact hnew

namespace Calls

variable {ι : Type} [DecidableEq ι] {reason : ι → ShutdownReason} {s : Calls ι} {id other : ι}

@[simp]
theorem withAttempt_attempt_self (s : Calls ι) (id : ι) (a : Attempt) :
    (s.withAttempt id a).attempt id = a := if_pos rfl

theorem withAttempt_attempt_of_ne (h : other ≠ id) (s : Calls ι) (a : Attempt) :
    (s.withAttempt id a).attempt other = s.attempt other := if_neg h

@[simp]
theorem withAttempt_coordinator (s : Calls ι) (id : ι) (a : Attempt) :
    (s.withAttempt id a).coordinator = s.coordinator := rfl

theorem withAttempt_withAttempt (s : Calls ι) (id : ι) (a b : Attempt) :
    (s.withAttempt id a).withAttempt id b = s.withAttempt id b := by
  unfold withAttempt
  congr 1
  funext other
  by_cases h : other = id
  · simp only [if_pos h]
  · simp only [if_neg h]

/-! ## Steps of a call -/

theorem step_claim_of_clear (hidle : s.attempt id = .idle) (hclear : s.coordinator.initiated = false) :
    s.step reason (.claim id) =
      ([.claimed id],
        { s with coordinator := { s.coordinator with initiated := true } }.withAttempt id .claimed) := by
  simp only [step, hidle, claim, hclear]
  rfl

/-- A call that finds the flag set returns, and changes nothing else. -/
theorem step_claim_of_set (hidle : s.attempt id = .idle) (hset : s.coordinator.initiated = true) :
    s.step reason (.claim id) = ([], s.withAttempt id (.returned false)) := by
  have hclaim : s.coordinator.claim = (false, s.coordinator) := by
    obtain ⟨⟨initiated, listeners⟩, attempt⟩ := s
    obtain rfl : initiated = true := hset
    rfl
  simp only [step, hidle, hclaim]
  rfl

theorem step_claim_of_ne (h : s.attempt id ≠ .idle) : s.step reason (.claim id) = ([], s) := by
  simp only [step]

theorem step_send_of_claimed (h : s.attempt id = .claimed) :
    s.step reason (.send id) =
      ([.sent id (reason id)],
        { s with coordinator := s.coordinator.broadcast (reason id) }.withAttempt id
          (.returned true)) := by
  simp only [step, h]

theorem step_send_of_ne (h : s.attempt id ≠ .claimed) : s.step reason (.send id) = ([], s) := by
  simp only [step]

/-- **A call that nothing interrupts initiates shutdown at once.** -/
theorem run_initiate (hidle : s.attempt id = .idle) :
    (run reason [.claim id, .send id] s).2 =
      { s with coordinator := (s.coordinator.initiate (reason id)).2 }.withAttempt id
        (.returned (s.coordinator.initiate (reason id)).1) := by
  show ((s.step reason (.claim id)).2.step reason (.send id)).2 = _
  cases hflag : s.coordinator.initiated with
  | true =>
    have hinitiate : s.coordinator.initiate (reason id) = (false, s.coordinator) := by
      obtain ⟨⟨initiated, listeners⟩, attempt⟩ := s
      obtain rfl : initiated = true := hflag
      rfl
    rw [step_claim_of_set hidle hflag, step_send_of_ne (by simp), hinitiate]
  | false =>
    have hinitiate : s.coordinator.initiate (reason id) =
        (true, ({ s.coordinator with initiated := true } : Coordinator).broadcast (reason id)) := by
      simp only [initiate, claim, hflag]
      rfl
    rw [step_claim_of_clear hidle hflag, step_send_of_claimed (by simp), hinitiate]
    exact withAttempt_withAttempt { s with coordinator := _ } id _ _

/-! ## Who listens -/

/-- A listener is there from when it has subscribed, and none goes. -/
theorem length_listeners_step (reason : ι → ShutdownReason) (s : Calls ι) (move : Move ι) :
    (s.step reason move).2.coordinator.listeners.length =
      s.coordinator.listeners.length + subscribed [move] := by
  cases move with
  | subscribe => exact List.length_append
  | claim id =>
    by_cases hidle : s.attempt id = .idle
    · cases hflag : s.coordinator.initiated with
      | true => rw [step_claim_of_set hidle hflag]; rfl
      | false => rw [step_claim_of_clear hidle hflag]; rfl
    · rw [step_claim_of_ne hidle]
      rfl
  | send id =>
    by_cases hclaimed : s.attempt id = .claimed
    · rw [step_send_of_claimed hclaimed]
      exact List.length_map _
    · rw [step_send_of_ne hclaimed]
      rfl
  | check i => exact List.length_modify ..
  | receive i => exact List.length_modify ..

theorem length_listeners_run (reason : ι → ShutdownReason) (schedule : List (Move ι)) (s : Calls ι) :
    (run reason schedule s).2.coordinator.listeners.length =
      s.coordinator.listeners.length + subscribed schedule := by
  induction schedule generalizing s with
  | nil => rfl
  | cons move schedule ih =>
    have hsubscribed : subscribed ([move] ++ schedule) = subscribed [move] + subscribed schedule :=
      List.countP_append
    rw [List.singleton_append] at hsubscribed
    rw [run, runSteps_cons]
    exact (ih _).trans (by rw [length_listeners_step, hsubscribed, Nat.add_assoc])

/-! ## The three stages -/

/-- Only `winner` has claimed the flag: every other call has not begun, or found the flag set. -/
def Lost (winner : ι) (s : Calls ι) : Prop :=
  ∀ other, other ≠ winner → s.attempt other = .idle ∨ s.attempt other = .returned false

/-- **How far shutdown is**, with these events behind it. -/
inductive Stage (reason : ι → ShutdownReason) : List (Occurrence ι) → Calls ι → Prop
  | unclaimed {s : Calls ι} (hflag : s.coordinator.initiated = false)
    (hidle : ∀ id, s.attempt id = .idle)
    (hlisteners : ∀ l ∈ s.coordinator.listeners, l.Uncalled) : Stage reason [] s
  | claimed {s : Calls ι} (winner : ι) (hflag : s.coordinator.initiated = true)
    (hwinner : s.attempt winner = .claimed) (hlost : Lost winner s)
    (hlisteners : ∀ l ∈ s.coordinator.listeners, l.inbox = []) :
    Stage reason [.claimed winner] s
  | sent {s : Calls ι} (winner : ι) (hflag : s.coordinator.initiated = true)
    (hwinner : s.attempt winner = .returned true) (hlost : Lost winner s)
    (hlisteners : ∀ l ∈ s.coordinator.listeners, l.Provided) :
    Stage reason [.claimed winner, .sent winner (reason winner)] s

/-- A call that finds the flag set has lost, like those before it. -/
theorem Lost.withAttempt {winner : ι} (h : Lost winner s) (id : ι) :
    Lost winner (s.withAttempt id (.returned false)) := by
  intro other hne
  by_cases hid : other = id
  · subst hid
    exact .inr (withAttempt_attempt_self ..)
  · rw [withAttempt_attempt_of_ne hid]
    exact h other hne

/-- Nobody has returned `true` before the call that has claimed the flag. -/
theorem Lost.ne_returned_true {winner : ι} (h : Lost winner s)
    (hwinner : s.attempt winner ≠ .returned true) (id : ι) : s.attempt id ≠ .returned true := by
  by_cases hid : id = winner
  · rw [hid]
    exact hwinner
  · rcases h id hid with h | h <;> rw [h] <;> nofun

namespace Stage

variable {events : List (Occurrence ι)}

/-- In the first stage a call that claims the flag begins the second; listeners get nothing, and none of
them resolves. -/
theorem step_unclaimed (hflag : s.coordinator.initiated = false) (hidle : ∀ id, s.attempt id = .idle)
    (hlisteners : ∀ l ∈ s.coordinator.listeners, l.Uncalled) (move : Move ι) :
    Stage reason (s.step reason move).1 (s.step reason move).2 := by
  cases move with
  | subscribe => exact .unclaimed hflag hidle (forall_mem_subscribe hlisteners .subscribed)
  | claim id =>
    rw [step_claim_of_clear (hidle id) hflag]
    refine .claimed id rfl (withAttempt_attempt_self ..) ?_ fun l hl => (hlisteners l hl).inbox
    intro other hne
    rw [withAttempt_attempt_of_ne hne]
    exact .inl (hidle other)
  | send id =>
    rw [step_send_of_ne (by rw [hidle]; nofun)]
    exact .unclaimed hflag hidle hlisteners
  | check i =>
    refine .unclaimed hflag hidle (forall_mem_modify hlisteners ?_ i)
    intro l hl
    rw [hflag]
    exact hl.check
  | receive i =>
    exact .unclaimed hflag hidle (forall_mem_modify hlisteners (fun l hl => hl.receive) i)

/-- In the second stage the call that has claimed the flag sends its reason, which begins the third; other
calls find the flag set. -/
theorem step_claimed {winner : ι} (hflag : s.coordinator.initiated = true)
    (hwinner : s.attempt winner = .claimed) (hlost : Lost winner s)
    (hlisteners : ∀ l ∈ s.coordinator.listeners, l.inbox = []) (move : Move ι) :
    Stage reason (.claimed winner :: (s.step reason move).1) (s.step reason move).2 := by
  cases move with
  | subscribe => exact .claimed winner hflag hwinner hlost (forall_mem_subscribe hlisteners rfl)
  | claim id =>
    by_cases hid : s.attempt id = .idle
    · have hne : winner ≠ id := by
        rintro rfl
        cases hwinner.symm.trans hid
      rw [step_claim_of_set hid hflag]
      refine .claimed winner hflag ?_ (hlost.withAttempt id) hlisteners
      rw [withAttempt_attempt_of_ne hne]
      exact hwinner
    · rw [step_claim_of_ne hid]
      exact .claimed winner hflag hwinner hlost hlisteners
  | send id =>
    by_cases hid : id = winner
    · subst hid
      rw [step_send_of_claimed hwinner]
      refine .sent id hflag (withAttempt_attempt_self ..) ?_ ?_
      · intro other hne
        rw [withAttempt_attempt_of_ne hne]
        exact hlost other hne
      · intro l hl
        rw [withAttempt_coordinator, listeners_broadcast] at hl
        obtain ⟨before, hbefore, rfl⟩ := List.mem_map.mp hl
        exact .get (hlisteners before hbefore) _
    · have hne : s.attempt id ≠ .claimed := by
        rcases hlost id hid with h | h <;> rw [h] <;> nofun
      rw [step_send_of_ne hne]
      exact .claimed winner hflag hwinner hlost hlisteners
  | check i =>
    refine .claimed winner hflag hwinner hlost (forall_mem_modify hlisteners ?_ i)
    intro l hl
    rw [Listener.inbox_check]
    exact hl
  | receive i =>
    refine .claimed winner hflag hwinner hlost (forall_mem_modify hlisteners ?_ i)
    intro l hl
    rw [Listener.receive_of_inbox_eq_nil hl]
    exact hl

/-- The third stage lasts: nobody claims the flag again and nothing more is sent. -/
theorem step_sent {winner : ι} (hflag : s.coordinator.initiated = true)
    (hwinner : s.attempt winner = .returned true) (hlost : Lost winner s)
    (hlisteners : ∀ l ∈ s.coordinator.listeners, l.Provided) (move : Move ι) :
    Stage reason ([.claimed winner, .sent winner (reason winner)] ++ (s.step reason move).1)
      (s.step reason move).2 := by
  cases move with
  | subscribe => exact .sent winner hflag hwinner hlost (forall_mem_subscribe hlisteners .subscribed)
  | claim id =>
    by_cases hid : s.attempt id = .idle
    · have hne : winner ≠ id := by
        rintro rfl
        cases hwinner.symm.trans hid
      rw [step_claim_of_set hid hflag]
      refine .sent winner hflag ?_ (hlost.withAttempt id) hlisteners
      rw [withAttempt_attempt_of_ne hne]
      exact hwinner
    · rw [step_claim_of_ne hid]
      exact .sent winner hflag hwinner hlost hlisteners
  | send id =>
    have hne : s.attempt id ≠ .claimed := by
      by_cases hid : id = winner
      · rw [hid, hwinner]
        nofun
      · rcases hlost id hid with h | h <;> rw [h] <;> nofun
    rw [step_send_of_ne hne]
    exact .sent winner hflag hwinner hlost hlisteners
  | check i =>
    refine .sent winner hflag hwinner hlost (forall_mem_modify hlisteners ?_ i)
    intro l hl
    rw [hflag]
    exact hl.check
  | receive i =>
    exact .sent winner hflag hwinner hlost (forall_mem_modify hlisteners (fun l hl => hl.receive) i)

theorem step (h : Stage reason events s) (move : Move ι) :
    Stage reason (events ++ (s.step reason move).1) (s.step reason move).2 := by
  cases h with
  | unclaimed hflag hidle hlisteners => exact step_unclaimed hflag hidle hlisteners move
  | claimed winner hflag hwinner hlost hlisteners =>
    exact step_claimed hflag hwinner hlost hlisteners move
  | sent winner hflag hwinner hlost hlisteners => exact step_sent hflag hwinner hlost hlisteners move

end Stage

/-- **Every schedule is in one of the three stages.** -/
theorem stage_run (reason : ι → ShutdownReason) (schedule : List (Move ι)) :
    Stage reason (run reason schedule start).1 (run reason schedule start).2 := by
  refine runSteps_induction (motive := Stage reason) ?_ (fun move h => h.step move) schedule
  exact .unclaimed rfl (fun _ => rfl) fun l hl => nomatch hl

/-! ## What shutdown promises -/

/-- **Shutdown is initiated once, and wakes everyone**, as far as it has come. -/
structure WakesEveryone (reason : ι → ShutdownReason) (schedule : List (Move ι))
    (events : List (Occurrence ι)) (s : Calls ι) : Prop where
  /-- The listeners are those that have subscribed: each is there since, and none goes. -/
  everyone : s.coordinator.listeners.length = subscribed schedule
  /-- Before a call has begun the flag is clear, and nothing has been sent. -/
  of_none : (∀ id, s.attempt id = .idle) → s.coordinator.initiated = false ∧ events = []
  /-- Of the calls that have begun one has set the flag, and every other one has returned `false`; that one
  is about to send its reason or has sent it and returned `true`, and nobody else has sent anything. -/
  of_some : (∃ id, s.attempt id ≠ .idle) → s.coordinator.initiated = true ∧ ∃ winner, Lost winner s ∧
    (s.attempt winner = .claimed ∧ events = [.claimed winner] ∨
      s.attempt winner = .returned true ∧ events = [.claimed winner, .sent winner (reason winner)])
  /-- The call that has set the flag can send its reason and return. -/
  goes_on : ∀ id, s.attempt id = .claimed → (s.step reason (.send id)).1 = [.sent id (reason id)] ∧
    (s.step reason (.send id)).2.attempt id = .returned true
  /-- When that call has returned, no listener waits with nothing to receive. -/
  not_in_vain : ∀ id, s.attempt id = .returned true →
    ∀ l ∈ s.coordinator.listeners, l.state = .waiting → l.inbox ≠ []
  /-- From then on every listener that looks at the flag, and for a reason if it has to, resolves. -/
  wakes : ∀ id, s.attempt id = .returned true →
    ∀ l ∈ s.coordinator.listeners, (l.check s.coordinator.initiated).receive.state = .resolved
  /-- No listener has resolved before a call has set the flag. -/
  not_early : ∀ l ∈ s.coordinator.listeners, l.state = .resolved → ∃ id, .claimed id ∈ events
  /-- No listener has more to receive than one reason. -/
  room : ∀ l ∈ s.coordinator.listeners, l.inbox.length ≤ 1

/-- **No wake-up is lost**: of any number of calls, one initiates shutdown, and when it has returned every
listener resolves that goes on, whenever it subscribed and looked, in every schedule of their steps. -/
theorem wakes_everyone (reason : ι → ShutdownReason) (schedule : List (Move ι)) :
    WakesEveryone reason schedule (run reason schedule start).1 (run reason schedule start).2 := by
  have hsend : ∀ (s : Calls ι) (id : ι), s.attempt id = .claimed →
      (s.step reason (.send id)).1 = [.sent id (reason id)] ∧
        (s.step reason (.send id)).2.attempt id = .returned true := by
    intro s id hid
    rw [step_send_of_claimed hid]
    exact ⟨rfl, withAttempt_attempt_self ..⟩
  have heveryone := length_listeners_run reason schedule start
  rw [show (start : Calls ι).coordinator.listeners.length = 0 from rfl, Nat.zero_add] at heveryone
  generalize hrun : run reason schedule start = result at heveryone
  have hstage : Stage reason result.1 result.2 := hrun ▸ stage_run reason schedule
  obtain ⟨events, s⟩ := result
  cases hstage with
  | unclaimed hflag hidle hlisteners =>
    refine ⟨heveryone, fun _ => ⟨hflag, rfl⟩, ?_, hsend s, ?_, ?_, ?_, ?_⟩
    · rintro ⟨id, hid⟩
      exact absurd (hidle id) hid
    · intro id hid
      cases (hidle id).symm.trans hid
    · intro id hid
      cases (hidle id).symm.trans hid
    · intro l hl hresolved
      exact absurd hresolved (hlisteners l hl).unresolved
    · intro l hl
      rw [(hlisteners l hl).inbox]
      exact Nat.zero_le 1
  | claimed winner hflag hwinner hlost hlisteners =>
    refine ⟨heveryone, ?_, fun _ => ⟨hflag, winner, hlost, .inl ⟨hwinner, rfl⟩⟩, hsend s, ?_, ?_, ?_, ?_⟩
    · intro hidle
      cases hwinner.symm.trans (hidle winner)
    · intro id hid
      exact absurd hid (hlost.ne_returned_true (by rw [hwinner]; nofun) id)
    · intro id hid
      exact absurd hid (hlost.ne_returned_true (by rw [hwinner]; nofun) id)
    · intro l _ _
      exact ⟨winner, List.mem_cons_self⟩
    · intro l hl
      rw [hlisteners l hl]
      exact Nat.zero_le 1
  | sent winner hflag hwinner hlost hlisteners =>
    refine ⟨heveryone, ?_, fun _ => ⟨hflag, winner, hlost, .inr ⟨hwinner, rfl⟩⟩, hsend s, ?_, ?_, ?_, ?_⟩
    · intro hidle
      cases hwinner.symm.trans (hidle winner)
    · intro _ _ l hl
      exact (hlisteners l hl).of_waiting
    · intro _ _ l hl
      rw [hflag]
      exact (hlisteners l hl).state_receive_check
    · intro l _ _
      exact ⟨winner, List.mem_cons_self⟩
    · intro l hl
      exact (hlisteners l hl).room

end Calls

end Coordinator

end FlagSidecar
