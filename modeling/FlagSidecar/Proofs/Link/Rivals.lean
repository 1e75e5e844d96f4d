import FlagSidecar.Link.Rivals

/-!
# FlagSidecar.Proofs.Link.Rivals: who removes the file of an open listener

An acceptor knows that a file is stale from a look at it, and that a file is its own from having bound the
path. Either may be out of date when it removes the file, and nothing else is wrong with a removal: whoever
removes the file of an open listener was overtaken by it (`Rivals.boundSince_of_removed`). That does happen,
among acceptors that find a stale file at the same time and between one that goes and one that comes
(`Rivals.not_neverClobbers`). It does not happen if nobody is bound in between
(`Rivals.not_removed_of_guarded`).
-/

namespace FlagSidecar.Rivals

variable {flavor : ListenerId → SocketFlavor} {s s' : Rivals} {events more : List RivalEvent}

@[simp]
theorem withStage_stage_self (s : Rivals) (id : ListenerId) (stage : ListenStage) :
    (s.withStage id stage).stage id = stage := if_pos rfl

theorem withStage_stage_of_ne {id other : ListenerId} (h : other ≠ id) (s : Rivals) (stage : ListenStage) :
    (s.withStage id stage).stage other = s.stage other := if_neg h

@[simp]
theorem withStage_path (s : Rivals) (id : ListenerId) (stage : ListenStage) :
    (s.withStage id stage).path = s.path := rfl

/-! ## One step -/

/-- What a stage goes by that an acceptor has found or done before: that it was refused, or that it has bound
the path. -/
def grounds? (id : ListenerId) : ListenStage → Option RivalEvent
  | .clearing => some (.refused id)
  | .listening => some (.bound id)
  | .removing => some (.bound id)
  | _ => none

/-- **What one step can be.** -/
inductive Happens (s : Rivals) : List RivalEvent → Rivals → Prop
  | rest : Happens s [] s
  /-- An acceptor goes on without having found or done anything of note. -/
  | look {id stage} (h : grounds? id stage = none) : Happens s [] (s.withStage id stage)
  | refuse {id} (h : ∀ owner, s.path.entry = .socket owner → s.path.flavorOf? owner = none) :
    Happens s [.refused id] (s.withStage id .clearing)
  | clear {id} (h : s.stage id = .clearing) :
    Happens s (s.removal id) ({ s with path := { s.path with entry := .absent } }.withStage id .binding)
  | bind {id} (hentry : s.path.entry = .absent) (kind : SocketFlavor) :
    Happens s [.bound id]
      ({ s with path :=
        { s.path with entry := .socket id, listeners := (id, kind) :: s.path.listeners } }.withStage id
          .listening)
  | close {id} (h : s.stage id = .listening) :
    Happens s [.closed id] ({ s with path := s.path.close id }.withStage id .removing)
  | remove {id} (h : s.stage id = .removing) :
    Happens s (s.removal id) ({ s with path := s.path.remove.2 }.withStage id .gone)

/-- A socket that refuses is nobody's that is open. -/
theorem flavorOf?_of_refused {p : SocketPath} {kind : SocketFlavor} {owner : ListenerId}
    (howner : p.entry = .socket owner) (h : p.connect kind = .error .connectionRefused) :
    p.flavorOf? owner = none := by
  simp only [SocketPath.connect, howner] at h
  split at h
  next hnone => exact hnone
  next => split at h <;> cases h

theorem IsLive.of_close {p : SocketPath} {id owner : ListenerId} (h : IsLive (p.close id) owner) :
    IsLive p owner := ⟨h.1, List.filter_sublist.lookup_isSome h.2⟩

theorem entry_remove_ne (p : SocketPath) (owner : ListenerId) : p.remove.2.entry ≠ .socket owner := by
  obtain ⟨text, entry, listeners⟩ := p
  cases entry <;> nofun

theorem withStage_eq_self (s : Rivals) (id : ListenerId) : s.withStage id (s.stage id) = s := by
  unfold withStage
  congr 1
  funext other
  split
  next h => rw [h]
  next => rfl

theorem Happens.of_advance (id : ListenerId) :
    Happens s (s.step flavor (.advance id)).1 (s.step flavor (.advance id)).2 := by
  cases hstage : s.stage id with
  | checking =>
    simp only [step, hstage, ListenStage.advance]
    cases s.path.entry with
    | socket owner => exact .look rfl
    | _ => exact .look rfl
  | probing =>
    simp only [step, hstage, ListenStage.advance]
    cases hconnect : s.path.connect (flavor id) with
    | ok owner => exact .look rfl
    | error e =>
      cases e with
      | connectionRefused => exact .refuse fun owner howner => flavorOf?_of_refused howner hconnect
      | _ => exact .look rfl
  | clearing =>
    simp only [step, hstage, ListenStage.advance, SocketPath.remove]
    cases hentry : s.path.entry with
    | socket owner => exact .clear hstage
    | other => exact .clear hstage
    | absent => exact .look rfl
    | orphan => exact .look rfl
    | blocked => exact .look rfl
  | binding =>
    simp only [step, hstage, ListenStage.advance, SocketPath.bind]
    cases hentry : s.path.entry with
    | absent => exact .bind hentry (flavor id)
    | _ => exact .look rfl
  | _ =>
    simp only [step, hstage, ListenStage.advance]
    rw [← hstage, withStage_eq_self]
    exact .rest

theorem Happens.of_retreat (id : ListenerId) :
    Happens s (s.step flavor (.retreat id)).1 (s.step flavor (.retreat id)).2 := by
  cases hstage : s.stage id with
  | listening =>
    simp only [step, hstage, ListenStage.retreat]
    exact .close hstage
  | removing =>
    simp only [step, hstage, ListenStage.retreat]
    exact .remove hstage
  | _ =>
    simp only [step, hstage, ListenStage.retreat]
    rw [← hstage, withStage_eq_self]
    exact .rest

theorem happens_step (flavor : ListenerId → SocketFlavor) (s : Rivals) (move : RivalStep) :
    Happens s (s.step flavor move).1 (s.step flavor move).2 := by
  cases move with
  | advance id => exact .of_advance id
  | retreat id => exact .of_retreat id

/-! ## Who was overtaken -/

namespace BoundSince

variable {earlier : RivalEvent} {owner : ListenerId}

theorem append (h : BoundSince earlier owner events) (more : List RivalEvent) :
    BoundSince earlier owner (events ++ more) := by
  obtain ⟨before, after, rfl, hbound⟩ := h
  exact ⟨before, after ++ more, by rw [List.append_assoc, List.cons_append],
    List.mem_append_left more hbound⟩

/-- What has happened before happened before the listener that is bound now. -/
theorem of_mem (h : earlier ∈ events) : BoundSince earlier owner (events ++ [.bound owner]) := by
  obtain ⟨before, after, rfl⟩ := List.append_of_mem h
  exact ⟨before, after ++ [.bound owner], by rw [List.append_assoc, List.cons_append],
    List.mem_append_right after List.mem_cons_self⟩

end BoundSince

/-- **What an acceptor goes by has happened, and only listeners that were bound since are against it**: no
other one is open whose socket is at the path. -/
structure Grounded (events : List RivalEvent) (s : Rivals) : Prop where
  happened : ∀ id earlier, grounds? id (s.stage id) = some earlier → earlier ∈ events
  since : ∀ id owner earlier, grounds? id (s.stage id) = some earlier → id ≠ owner → IsLive s.path owner →
    BoundSince earlier owner events

namespace Grounded

theorem start (path : SocketPath) : Grounded [] (start path) := ⟨nofun, nofun⟩

/-- No other listener comes to the path, and an acceptor goes by what is true. -/
theorem go (h : Grounded events s) (more : List RivalEvent) {id : ListenerId} {stage : ListenStage}
    {path : SocketPath} (hlive : ∀ owner, IsLive path owner → IsLive s.path owner)
    (hstage : ∀ earlier, grounds? id stage = some earlier → earlier ∈ events ++ more ∧
      ∀ owner, id ≠ owner → IsLive path owner → BoundSince earlier owner (events ++ more)) :
    Grounded (events ++ more) ({ s with path }.withStage id stage) where
  happened other earlier hground := by
    by_cases hid : other = id
    · subst hid
      rw [withStage_stage_self] at hground
      exact (hstage earlier hground).1
    · rw [withStage_stage_of_ne hid] at hground
      exact List.mem_append_left more (h.happened other earlier hground)
  since other owner earlier hground hne howner := by
    by_cases hid : other = id
    · subst hid
      rw [withStage_stage_self] at hground
      exact (hstage earlier hground).2 owner hne howner
    · rw [withStage_stage_of_ne hid] at hground
      exact (h.since other owner earlier hground hne (hlive owner howner)).append more

/-- An acceptor that is bound overtakes the others. -/
theorem bind (h : Grounded events s) (id : ListenerId) {path : SocketPath}
    (hentry : path.entry = .socket id) :
    Grounded (events ++ [.bound id]) ({ s with path }.withStage id .listening) where
  happened other earlier hground := by
    by_cases hid : other = id
    · subst hid
      rw [withStage_stage_self] at hground
      cases hground
      exact List.mem_append_right events List.mem_cons_self
    · rw [withStage_stage_of_ne hid] at hground
      exact List.mem_append_left _ (h.happened other earlier hground)
  since other owner earlier hground hne howner := by
    obtain rfl : id = owner := by
      cases hentry.symm.trans howner.1
      rfl
    rw [withStage_stage_of_ne hne] at hground
    exact .of_mem (h.happened other earlier hground)

/-- **After every step acceptors go by what is true.** -/
theorem step (h : Grounded events s) (hstep : Happens s more s') : Grounded (events ++ more) s' := by
  cases hstep with
  | rest =>
    rw [List.append_nil]
    exact h
  | look hground =>
    exact h.go [] (fun _ => id) fun earlier hearlier => nomatch hground.symm.trans hearlier
  | @refuse id hrefused =>
    refine h.go _ (fun _ howner => howner) fun earlier hearlier => ?_
    cases hearlier
    refine ⟨List.mem_append_right events List.mem_cons_self, fun owner _ howner => ?_⟩
    have hopen := howner.2
    rw [hrefused owner howner.1] at hopen
    cases hopen
  | clear hstage => exact h.go _ (fun _ howner => nomatch howner.1) nofun
  | @bind id hentry kind => exact h.bind id rfl
  | @close id hstage =>
    refine h.go _ (fun _ howner => howner.of_close) fun earlier hearlier => ?_
    have hlistening : grounds? id (s.stage id) = some earlier := by
      rw [hstage]
      exact hearlier
    exact ⟨List.mem_append_left _ (h.happened id earlier hlistening), fun owner hne howner =>
      (h.since id owner earlier hlistening hne howner.of_close).append _⟩
  | remove hstage => exact h.go _ (fun owner howner => absurd howner.1 (entry_remove_ne _ owner)) nofun

end Grounded

/-! ## Every run -/

/-- What an acceptor removes is what is at the path. -/
theorem isLive_of_mem_removal {id other owner : ListenerId}
    (h : .removed id owner true ∈ s.removal other) : id = other ∧ IsLive s.path owner := by
  unfold removal at h
  split at h
  next o hentry =>
    obtain ⟨rfl, rfl, hopen⟩ : id = other ∧ owner = o ∧ true = (s.path.flavorOf? o).isSome := by
      simpa using h
    exact ⟨rfl, hentry, hopen.symm⟩
  next => cases h

theorem grounded_run (flavor : ListenerId → SocketFlavor) (path : SocketPath) (schedule : List RivalStep) :
    Grounded (run flavor schedule (start path)).1 (run flavor schedule (start path)).2 :=
  runSteps_induction (.start path) (fun move h => h.step (happens_step flavor _ move)) schedule

/-- **Whoever removes the file of an open listener was overtaken by it**: that listener was bound after the
acceptor had been refused, or had bound the path itself. -/
theorem boundSince_of_removed (flavor : ListenerId → SocketFlavor) (path : SocketPath)
    (schedule : List RivalStep) (move : RivalStep) {id owner : ListenerId} (hne : id ≠ owner)
    (h : .removed id owner true ∈ ((run flavor schedule (start path)).2.step flavor move).1) :
    BoundSince (.refused id) owner (run flavor schedule (start path)).1 ∨
      BoundSince (.bound id) owner (run flavor schedule (start path)).1 := by
  have hgrounded := grounded_run flavor path schedule
  have hstep := happens_step flavor (run flavor schedule (start path)).2 move
  generalize (run flavor schedule (start path)).2.step flavor move = result at h hstep
  obtain ⟨more, s'⟩ := result
  cases hstep with
  | rest => cases h
  | look hground => cases h
  | refuse hrefused => cases List.mem_singleton.mp h
  | bind hentry kind => cases List.mem_singleton.mp h
  | close hstage => cases List.mem_singleton.mp h
  | clear hstage =>
    obtain ⟨rfl, hlive⟩ := isLive_of_mem_removal h
    exact .inl (hgrounded.since id owner _ (by rw [hstage]; rfl) hne hlive)
  | remove hstage =>
    obtain ⟨rfl, hlive⟩ := isLive_of_mem_removal h
    exact .inr (hgrounded.since id owner _ (by rw [hstage]; rfl) hne hlive)

/-- Two acceptors that find a stale file; the second is refused by it, and removes the file that the first has
left in its place. -/
theorem boundSince_of_removed_stale :
    let flavor : ListenerId → SocketFlavor := fun _ => .stream
    let path := SocketPath.abandoned "splitd.sock"
    let schedule : List RivalStep :=
      [.advance 1, .advance 1, .advance 2, .advance 2, .advance 1, .advance 1]
    (2 : ListenerId) ≠ 1 ∧
      .removed 2 1 true ∈ ((run flavor schedule (start path)).2.step flavor (.advance 2)).1 ∧
      (BoundSince (.refused 2) 1 (run flavor schedule (start path)).1 ∨
        BoundSince (.bound 2) 1 (run flavor schedule (start path)).1) :=
  ⟨by decide, by decide, boundSince_of_removed _ _ _ (.advance 2) (by decide) (by decide)⟩

/-- **The file of an open listener is removed**, both at a path with a stale file, if two acceptors find it at
the same time, and at one with nothing, if one comes between the two steps of another that goes. -/
theorem not_neverClobbers :
    ¬ NeverClobbers (fun _ => .stream) (.abandoned "splitd.sock") ∧
      ¬ NeverClobbers (fun _ => .stream) { text := "splitd.sock" } := by
  constructor
  · intro h
    exact h [.advance 1, .advance 1, .advance 2, .advance 2, .advance 1, .advance 1, .advance 2] 2 1
      (by decide) (by decide)
  · intro h
    exact h [.advance 1, .advance 1, .retreat 1, .advance 2, .advance 2, .advance 2, .advance 2, .retreat 1]
      1 2 (by decide) (by decide)

/-! ## Where nobody is overtaken -/

/-- **Every listener is at the path, and whoever is about to remove a file finds no open listener's.** -/
structure Orderly (s : Rivals) : Prop where
  listening : ∀ id, s.stage id = .listening → IsLive s.path id
  stale : ∀ id, removes (s.stage id) = true → ∀ owner, ¬ IsLive s.path owner

namespace Orderly

theorem start (path : SocketPath) : Orderly (start path) := ⟨nofun, nofun⟩

/-- No open listener's socket is at the path, and nobody listens. -/
theorem of_dead {id : ListenerId} {stage : ListenStage} (hdead : ∀ owner, ¬ IsLive s.path owner)
    (hothers : ∀ other, other ≠ id → s.stage other ≠ .listening) (hstage : stage ≠ .listening) :
    (s.withStage id stage).Orderly where
  listening other hother := by
    by_cases hid : other = id
    · subst hid
      rw [withStage_stage_self] at hother
      exact absurd hother hstage
    · rw [withStage_stage_of_ne hid] at hother
      exact absurd hother (hothers other hid)
  stale _ _ := hdead

/-- An acceptor goes on that neither listens nor is about to remove a file, or has just been refused. -/
theorem go (h : s.Orderly) {id : ListenerId} {stage : ListenStage} (hstage : stage ≠ .listening)
    (hstale : removes stage = true → ∀ owner, ¬ IsLive s.path owner) : (s.withStage id stage).Orderly where
  listening other hother := by
    by_cases hid : other = id
    · subst hid
      rw [withStage_stage_self] at hother
      exact absurd hother hstage
    · rw [withStage_stage_of_ne hid] at hother
      exact h.listening other hother
  stale other hother := by
    by_cases hid : other = id
    · subst hid
      rw [withStage_stage_self] at hother
      exact hstale hother
    · rw [withStage_stage_of_ne hid] at hother
      exact h.stale other hother

/-- A listener is bound to a free path, while nobody else is about to remove a file. -/
theorem bind (h : s.Orderly) {id : ListenerId} (hentry : s.path.entry = .absent) (kind : SocketFlavor)
    (hguard : ∀ other, other ≠ id → removes (s.stage other) = false) :
    Orderly ({ s with path :=
      { s.path with entry := .socket id, listeners := (id, kind) :: s.path.listeners } }.withStage id
        .listening) where
  listening other hother := by
    by_cases hid : other = id
    · subst hid
      exact ⟨rfl, by rw [SocketPath.flavorOf?, withStage_path, List.lookup_cons_self]; rfl⟩
    · rw [withStage_stage_of_ne hid] at hother
      cases hentry.symm.trans (h.listening other hother).1
  stale other hother := by
    by_cases hid : other = id
    · subst hid
      rw [withStage_stage_self] at hother
      cases hother
    · rw [withStage_stage_of_ne hid] at hother
      cases (hguard other hid).symm.trans hother

/-- Nobody listens where no open listener's socket is. -/
theorem ne_listening (h : s.Orderly) (hdead : ∀ owner, ¬ IsLive s.path owner) (id : ListenerId) :
    s.stage id ≠ .listening := fun hstage => hdead id (h.listening id hstage)

/-- **A step removes no open listener's file**, and the next one will not either, if nobody is overtaken. -/
theorem step (h : s.Orderly) (hstep : Happens s more s')
    (hguard : ∀ id, .bound id ∈ more → ∀ other, other ≠ id → removes (s.stage other) = false) :
    s'.Orderly ∧ ∀ id owner, .removed id owner true ∉ more := by
  cases hstep with
  | rest => exact ⟨h, nofun⟩
  | @look id stage hground =>
    refine ⟨h.go ?_ ?_, nofun⟩
    · rintro rfl
      cases hground
    · intro hremoves
      cases stage with
      | clearing => cases hground
      | removing => cases hground
      | _ => cases hremoves
  | refuse hrefused =>
    refine ⟨h.go nofun fun _ owner howner => ?_, nofun⟩
    have hopen := howner.2
    rw [hrefused owner howner.1] at hopen
    cases hopen
  | @clear id hstage =>
    have hdead := h.stale id (by rw [hstage]; rfl)
    refine ⟨of_dead (fun _ howner => nomatch howner.1) (fun other _ => h.ne_listening hdead other) nofun, ?_⟩
    exact fun _ owner hmem => hdead owner (isLive_of_mem_removal hmem).2
  | @bind id hentry kind => exact ⟨h.bind hentry kind (hguard id List.mem_cons_self), nofun⟩
  | @close id hstage =>
    have hown := h.listening id hstage
    refine ⟨of_dead (fun owner howner => ?_) (fun other hne hother => ?_) nofun, nofun⟩
    · obtain rfl : id = owner := PathEntry.socket.inj (hown.1.symm.trans howner.1)
      obtain ⟨listener, hlistener, hid⟩ := List.lookup_isSome_iff.mp howner.2
      exact of_decide_eq_true (List.mem_filter.mp hlistener).2 (eq_of_beq hid).symm
    · exact hne (PathEntry.socket.inj ((h.listening other hother).1.symm.trans hown.1))
  | @remove id hstage =>
    have hdead := h.stale id (by rw [hstage]; rfl)
    refine ⟨of_dead (fun owner howner => entry_remove_ne _ owner howner.1)
      (fun other _ => h.ne_listening hdead other) nofun, ?_⟩
    exact fun _ owner hmem => hdead owner (isLive_of_mem_removal hmem).2

end Orderly

theorem not_removed_of_orderly (h : s.Orderly) {schedule : List RivalStep}
    (hguarded : Guarded flavor schedule s) (id owner : ListenerId) :
    .removed id owner true ∉ (run flavor schedule s).1 := by
  induction schedule generalizing s with
  | nil => exact List.not_mem_nil
  | cons move schedule ih =>
    obtain ⟨horderly, hnot⟩ := h.step (happens_step flavor s move) hguarded.1
    rw [run, runSteps_cons, List.mem_append]
    exact not_or.mpr ⟨hnot id owner, ih horderly hguarded.2⟩

/-- **A live listener is never clobbered** if none is bound while somebody else, who was refused or has
closed its own, is about to remove a file. -/
theorem not_removed_of_guarded {path : SocketPath} {schedule : List RivalStep}
    (h : Guarded flavor schedule (start path)) (id owner : ListenerId) :
    .removed id owner true ∉ (run flavor schedule (start path)).1 :=
  not_removed_of_orderly (.start path) h id owner

end FlagSidecar.Rivals
