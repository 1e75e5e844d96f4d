import FlagSidecar.Proofs.Flush.Loop

/-!
# FlagSidecar.Proofs.Flush.Passes: what each pass of a task takes and hands over

Each pass of the task is a call for a pass that is neither skipped nor cut off. It takes once, namely what
was accepted since the pass before it took, and when it is over the recorder was given exactly what it took,
each batch once, and its report is that of these uploads.

A task that is told to stop comes to its end by steps of its own, wherever it is, if only the recorder
answers.

Main statements: `Flusher.Loop.Waits.step`, `Flusher.Loop.Keeps.act`, `Flusher.Loop.Delivers.canEnd`.
-/

namespace FlagSidecar.Flusher

variable {α : Type}

/-! ## Passes as calls -/

/-- An event of the task, as one of a call that has the number of the pass. -/
def LoopEvent.occurrence? : LoopEvent α → Option (Occurrence Nat α)
  | accepted tag items => some (.accepted tag items)
  | deed pass done => some (.deed pass done)
  | passed _ _ => none

/-- What happened at the queues and with the recorder, each pass a call. -/
def occurrences (events : List (LoopEvent α)) : List (Occurrence Nat α) :=
  events.filterMap LoopEvent.occurrence?

theorem occurrences_append (events more : List (LoopEvent α)) :
    occurrences (events ++ more) = occurrences events ++ occurrences more :=
  List.filterMap_append

theorem occurrences_deeds (pass : Nat) (deeds : List (Deed α)) :
    occurrences (deeds.map (.deed pass)) = deeds.map (.deed pass) := by
  unfold occurrences
  rw [List.filterMap_map]
  exact congrFun List.filterMap_eq_map deeds

/-- What a pass did at once is what it did, and what no other pass did. -/
theorem accounts_deeds (pass other : Nat) (deeds : List (Deed α)) :
    drainsOf (deeds.map (.deed pass)) other = (if pass = other then deeds.filterMap Deed.drained? else []) ∧
      handedBy (deeds.map (.deed pass)) other =
        if pass = other then deeds.filterMap Deed.handed? else [] := by
  unfold drainsOf handedBy
  split
  next h =>
    subst h
    rw [filterMap_deedOf?_self]
    exact ⟨rfl, rfl⟩
  next h =>
    rw [filterMap_deedOf?_of_ne h]
    exact ⟨rfl, rfl⟩

/-- The records under a tag that were accepted since the queues were last emptied. -/
def waitingUnder (events : List (LoopEvent α)) (tag : ClientTag) : List α :=
  (history (occurrences events)).pending tag []

theorem waitingUnder_append (events more : List (LoopEvent α)) (tag : ClientTag) :
    waitingUnder (events ++ more) tag =
      (history (occurrences more)).pending tag (waitingUnder events tag) := by
  unfold waitingUnder FanIn.History.pending
  rw [occurrences_append, history_append, List.foldl_append]

theorem accepted_history (events : List (LoopEvent α)) (tag : ClientTag) :
    (history (occurrences events)).accepted tag = acceptedUnder events tag := by
  unfold history occurrences FanIn.History.accepted acceptedUnder
  induction events with
  | nil => rfl
  | cons event events ih =>
    rw [List.flatMap_cons, ← ih]
    cases event with
    | accepted t items => rfl
    | passed pass outcome => rfl
    | deed pass done => cases done <;> rfl

/-- Everything that was accepted before the queues were last emptied, and then what waits. -/
theorem acceptedUnder_lastDrain {before after : List (LoopEvent α)} {pass : Nat}
    {contents : List (ClientTag × List α)}
    (hlast : ∀ other taken, .deed other (.drained taken) ∉ after) (tag : ClientTag) :
    acceptedUnder (before ++ .deed pass (.drained contents) :: after) tag =
      acceptedUnder before tag ++ waitingUnder (before ++ .deed pass (.drained contents) :: after) tag := by
  have hnone : ∀ taken, FanIn.Entry.drained taken ∉ history (occurrences after) := by
    intro taken hmem
    obtain ⟨occurrence, hoccurrence, hentry⟩ := List.mem_filterMap.mp hmem
    obtain ⟨event, hevent, heq⟩ := List.mem_filterMap.mp hoccurrence
    cases event with
    | accepted t items => cases heq; cases hentry
    | passed other outcome => cases heq
    | deed other done =>
      cases heq
      cases done with
      | drained taken' => exact hlast other taken' hevent
      | handed batch => cases hentry
  rw [List.append_cons, waitingUnder_append, waitingUnder_append,
    FanIn.History.pending_of_not_drained hnone, accepted_history, acceptedUnder_append, acceptedUnder_append]
  show acceptedUnder before tag ++ [] ++ _ = _ ++ ([] ++ _)
  rw [List.append_nil, List.nil_append]

/-! ## What a pass takes -/

namespace Loop

/-- What is queued is what was accepted since the queues were last emptied. -/
def Waits (events : List (LoopEvent α)) (l : Loop α) : Prop :=
  ∀ tag, l.flusher.queues.held tag = waitingUnder events tag

namespace Waits

variable {events : List (LoopEvent α)} {l : Loop α}

theorem start (size : UInt64) : Waits [] (.start size : Loop α) := fun _ => rfl

theorem append (h : Waits events l) (hwell : l.flusher.queues.WellFormed) (tag : ClientTag)
    (items : List α) : Waits (events ++ [(l.append tag items).2.1]) (l.append tag items).2.2 := by
  intro other
  rw [waitingUnder_append, ← h other]
  show (l.flusher.queues.append tag items).2.held other = if tag = other then _ else _
  split
  next htag =>
    subst htag
    exact hwell.held_append tag items
  next htag => exact FanIn.held_append_of_ne htag _ items

/-- A step that changes neither the queues nor what waits. -/
theorem quiet (h : Waits events l) {more : List (LoopEvent α)} {l' : Loop α}
    (hmore : history (occurrences more) = []) (hqueues : l'.flusher.queues = l.flusher.queues) :
    Waits (events ++ more) l' := by
  intro tag
  rw [waitingUnder_append, hmore, hqueues]
  exact h tag

variable [Uploadable α] {recorder : Nat → Recorder}

theorem step {s : LoopStep} {more : List (LoopEvent α)} {l' : Loop α} (h : Waits events l)
    (hstep : Goes recorder l s more l') : Waits (events ++ more) l' := by
  cases hstep with
  | tick hstage => exact h.quiet rfl rfl
  | stop hstage => exact h.quiet rfl rfl
  | goOn hstage => exact h.quiet rfl rfl
  | act hstage hnot hact =>
    cases hact with
    | drain =>
      intro tag
      rw [waitingUnder_append]
      rfl
    | acquire hclear => exact h.quiet rfl rfl
    | skip hset => exact h.quiet rfl rfl
    | hand hwaits => exact h.quiet rfl rfl
    | answer hhanded => exact h.quiet rfl rfl
    | finish hall => exact h.quiet rfl rfl
    | cancelAcquired => exact h.quiet rfl rfl
    | cancelUploading => exact h.quiet rfl rfl
    | release => exact h.quiet rfl rfl

end Waits

end Loop

/-! ## What a pass hands over -/

/-- **A whole pass**: it took once, handed over what it took, each batch once, and this is its report. -/
def Whole [Uploadable α] (recorder : Recorder) (drains : List (List (ClientTag × List α)))
    (handed : List (ClientTag × List α)) (report : FlushReport) : Prop :=
  ∃ contents, drains = [contents] ∧ handed.Perm contents ∧
    report = .ofUploads recorder (contents.map upload)

/-- What a pass has taken and handed over, by where it is, if it is neither skipped nor cut off. -/
def Phase.Keeps [Uploadable α] (recorder : Recorder) (drains : List (List (ClientTag × List α)))
    (handed : List (ClientTag × List α)) : Phase α → Prop
  | .idle => drains = [] ∧ handed = []
  | .acquired => drains = [] ∧ handed = []
  | .uploading batches => drains = [batches.map Batch.content] ∧ handed.Perm (Batch.begun batches)
  | .leaving (some report) => Whole recorder drains handed report
  | .ended (some (.completed report)) => Whole recorder drains handed report
  | _ => False

/-- A pass takes once at most, and hands over what it took. -/
theorem Phase.Keeps.accounts [Uploadable α] {recorder : Recorder}
    {drains : List (List (ClientTag × List α))} {handed : List (ClientTag × List α)} {p : Phase α}
    (h : p.Keeps recorder drains handed) : p.Accounts drains handed := by
  have hwhole {report : FlushReport} (h : Whole recorder drains handed report) :
      drains.length ≤ 1 ∧ handed.Subperm drains.flatten := by
    obtain ⟨contents, rfl, hperm, -⟩ := h
    rw [List.flatten_singleton]
    exact ⟨Nat.le_refl 1, hperm.subperm⟩
  cases p with
  | idle => exact h
  | acquired => exact h
  | uploading batches => exact h
  | leaving report =>
    cases report with
    | none => exact h.elim
    | some report => exact hwhole h
  | ended outcome =>
    match outcome with
    | none => exact h.elim
    | some .skipped => exact h.elim
    | some (.completed report) => exact hwhole h

theorem Batch.begun_of_answered {batches : List (Batch α)} (h : ∀ b ∈ batches, b.stage = .answered) :
    begun batches = batches.map Batch.content := by
  rw [begun, List.filter_eq_self.mpr]
  intro b hb
  rw [h b hb]
  rfl

variable [Uploadable α]

/-- **Every step of a pass keeps account**, if the mark is set exactly while the pass is in flight. -/
theorem Acts.keeps {recorder : Recorder} {f f' : Flusher α} {act : Act} {p p' : Phase α}
    {deed : Option (Deed α)} (h : Acts recorder f p act deed p' f') (hnot : act ≠ .cancel)
    (hrunning : f.running = p.inFlight) {drains : List (List (ClientTag × List α))}
    {handed : List (ClientTag × List α)} (hp : p.Keeps recorder drains handed) :
    p'.Keeps recorder (drains ++ deed.toList.filterMap Deed.drained?)
      (handed ++ deed.toList.filterMap Deed.handed?) := by
  have hsame : p'.Keeps recorder drains handed → p'.Keeps recorder (drains ++ []) (handed ++ []) := by
    rw [List.append_nil, List.append_nil]
    exact id
  cases h with
  | acquire hclear => exact hsame hp
  | skip hset => cases hset.symm.trans hrunning
  | drain =>
    obtain ⟨rfl, rfl⟩ := hp
    exact ⟨congrArg (fun contents => [contents]) (Batch.map_content_ofDrained _).symm,
      by rw [Batch.begun_map_ofDrained]; exact .nil⟩
  | hand hwaits =>
    obtain ⟨rfl, hhanded⟩ := hp
    refine ⟨?_, (hhanded.append_right _).trans (Batch.begun_set_handed hwaits).symm⟩
    rw [Batch.map_content_set hwaits]
    rfl
  | answer hhanded =>
    apply hsame
    show drains = [_] ∧ handed.Perm _
    rw [Batch.map_content_set hhanded, Batch.begun_set_answered hhanded]
    exact hp
  | @finish batches hall =>
    obtain ⟨hdrains, hhanded⟩ := hp
    rw [Batch.begun_of_answered hall] at hhanded
    refine hsame ⟨_, hdrains, hhanded, ?_⟩
    rw [List.map_map]
    rfl
  | cancelAcquired => exact absurd rfl hnot
  | cancelUploading => exact absurd rfl hnot
  | @release report =>
    apply hsame
    cases report with
    | none => exact hp
    | some report => exact hp

/-! ## All passes -/

/-- The phase of the pass at hand. -/
def LoopStage.phase : LoopStage α → Phase α
  | passing _ phase => phase
  | _ => .idle

namespace Loop

/-- The phase of any pass, where those that are over came to these reports. -/
def phaseOf (l : Loop α) (reports : List FlushReport) (pass : Nat) : Phase α :=
  match reports[pass]? with
  | some report => .ended (some (.completed report))
  | none => if pass = l.passes then l.stage.phase else .idle

/-- **Every pass keeps account**: those that are over, the one at hand, and those that are still to come. -/
structure Keeps (recorder : Nat → Recorder) (reports : List FlushReport) (events : List (LoopEvent α))
    (l : Loop α) : Prop where
  length_eq : reports.length = l.passes
  keeps : ∀ pass, (l.phaseOf reports pass).Keeps (recorder pass) (drainsOf (occurrences events) pass)
    (handedBy (occurrences events) pass)

namespace Keeps

variable {recorder : Nat → Recorder} {reports : List FlushReport} {events : List (LoopEvent α)} {l : Loop α}

theorem start (recorder : Nat → Recorder) (size : UInt64) :
    Keeps recorder [] [] (.start size : Loop α) where
  length_eq := rfl
  keeps pass := by
    show Phase.Keeps _ [] [] (if pass = 0 then .idle else .idle)
    rw [ite_self]
    exact ⟨rfl, rfl⟩

/-- What is neither taken nor handed over is of no account, nor is where the task waits. -/
theorem quiet (h : Keeps recorder reports events l) {more : List (LoopEvent α)} {l' : Loop α}
    (hmore : ∀ pass, drainsOf (occurrences more) pass = [] ∧ handedBy (occurrences more) pass = [])
    (hpasses : l'.passes = l.passes) (hphase : l'.stage.phase = l.stage.phase) :
    Keeps recorder reports (events ++ more) l' where
  length_eq := h.length_eq.trans hpasses.symm
  keeps pass := by
    obtain ⟨hdrains, hhanded⟩ := hmore pass
    have hsame : l'.phaseOf reports pass = l.phaseOf reports pass := by
      unfold phaseOf
      rw [hpasses, hphase]
    rw [occurrences_append, drainsOf_append, handedBy_append, hdrains, hhanded, List.append_nil,
      List.append_nil, hsame]
    exact h.keeps pass

theorem act {last : Bool} {phase phase' : Phase α} {a : Act} {deed : Option (Deed α)} {flusher : Flusher α}
    (h : Keeps recorder reports events l) (hrunning : l.flusher.running = phase.inFlight)
    (hstage : l.stage = .passing last phase) (hnot : a ≠ .cancel)
    (hact : Acts (recorder l.passes) l.flusher phase a deed phase' flusher) :
    Keeps recorder reports (events ++ deed.toList.map (.deed l.passes))
      { l with flusher, stage := .passing last phase' } where
  length_eq := h.length_eq
  keeps pass := by
    have hpass := h.keeps pass
    obtain ⟨hdrains, hhanded⟩ := accounts_deeds l.passes pass deed.toList
    rw [occurrences_append, drainsOf_append, handedBy_append, occurrences_deeds, hdrains, hhanded]
    by_cases hown : l.passes = pass
    · subst hown
      have hnone : reports[l.passes]? = none := List.getElem?_eq_none (Nat.le_of_eq h.length_eq)
      unfold phaseOf at hpass ⊢
      rw [hnone] at hpass ⊢
      simp only [if_true, hstage] at hpass ⊢
      exact hact.keeps hnot hrunning hpass
    · -- the pass at hand is another one
      have hother : ({ l with flusher, stage := .passing last phase' } : Loop α).phaseOf reports pass =
          l.phaseOf reports pass := by
        unfold phaseOf
        simp only [if_neg (Ne.symm hown)]
      rw [if_neg hown, if_neg hown, List.append_nil, List.append_nil, hother]
      exact hpass

/-- When a pass is over it is a whole one, and has its report. -/
theorem goOn {last : Bool} {outcome : FlushOutcome} (h : Keeps recorder reports events l)
    (hstage : l.stage = .passing last (.ended (some outcome))) :
    ∃ report, outcome = .completed report ∧
      Keeps recorder (reports ++ [report]) (events ++ [.passed l.passes outcome])
        { l with passes := l.passes + 1, stage := if last then .ended outcome else .waiting } := by
  have hown := h.keeps l.passes
  have hnone : reports[l.passes]? = none := List.getElem?_eq_none (Nat.le_of_eq h.length_eq)
  unfold phaseOf at hown
  rw [hnone, hstage] at hown
  simp only [if_true] at hown
  cases outcome with
  | skipped => exact hown.elim
  | completed report =>
    refine ⟨report, rfl, by rw [List.length_append, h.length_eq]; rfl, fun pass => ?_⟩
    have hpass := h.keeps pass
    rw [occurrences_append, drainsOf_append, handedBy_append]
    show Phase.Keeps _ (_ ++ []) (_ ++ []) _
    rw [List.append_nil, List.append_nil]
    unfold phaseOf at hpass ⊢
    rcases Nat.lt_trichotomy pass l.passes with hlt | rfl | hlt
    · rw [List.getElem?_append_left (by rw [h.length_eq]; exact hlt)]
      have hsome : pass < reports.length := by rw [h.length_eq]; exact hlt
      rw [List.getElem?_eq_getElem hsome] at hpass ⊢
      exact hpass
    · have hreport : (reports ++ [report])[l.passes]? = some report := by
        rw [← h.length_eq]
        exact List.getElem?_concat_length
      rw [hreport]
      exact hown
    · have hbeyond : (reports ++ [report])[pass]? = none := by
        refine List.getElem?_eq_none ?_
        rw [List.length_append, h.length_eq]
        exact hlt
      rw [List.getElem?_eq_none (by rw [h.length_eq]; exact Nat.le_of_lt hlt)] at hpass
      rw [hbeyond]
      simp only [if_neg (Nat.ne_of_gt hlt)] at hpass
      have hidle : LoopStage.phase (if last = true then LoopStage.ended (.completed report) else .waiting) =
          (.idle : Phase α) := by
        cases last <;> rfl
      simp only [hidle, ite_self]
      exact hpass

end Keeps

/-! ## Steps to the end -/

/-- The task comes to its end by these steps. -/
inductive EndsBy (recorder : Nat → Recorder) : Loop α → List LoopStep → Prop
  | ended {l : Loop α} (h : l.stage.hasEnded = true) : EndsBy recorder l []
  | step {l l' : Loop α} {s : LoopStep} {steps : List LoopStep} {events : List (LoopEvent α)}
    (h : l.step? recorder s = some (events, l')) (hrest : EndsBy recorder l' steps) :
    EndsBy recorder l (s :: steps)

/-- The task can come to its end without another tick. -/
def CanEnd (recorder : Nat → Recorder) (l : Loop α) : Prop :=
  ∃ steps, LoopStep.tick ∉ steps ∧ EndsBy recorder l steps

section CanEnd

variable {recorder : Nat → Recorder} {l : Loop α} {last : Bool}

/-- A task that waits can begin a pass, or its last one. -/
theorem step?_begin (hstage : l.stage = .waiting) :
    l.step? recorder .tick = some ([], { l with stage := .passing false .idle }) ∧
      l.step? recorder .stop = some ([], { l with stage := .passing true .idle }) := by
  constructor <;> simp only [step?, hstage]

/-- A step of the pass at hand is one of the task. -/
theorem step?_act {act : Act} {phase phase' : Phase α} {deed : Option (Deed α)} {flusher : Flusher α}
    (hstage : l.stage = .passing last phase) (hnot : act ≠ .cancel)
    (hact : phase.act? (recorder l.passes) l.flusher act = some (deed, phase', flusher)) :
    l.step? recorder (.act act) =
      some (deed.toList.map (.deed l.passes), { l with flusher, stage := .passing last phase' }) := by
  unfold step?
  cases act with
  | cancel => exact absurd rfl hnot
  | _ => simp only [hstage, hact]

/-- When a pass is over the task goes on. -/
theorem step?_goOn {outcome : FlushOutcome} (hstage : l.stage = .passing last (.ended (some outcome))) :
    l.step? recorder .goOn = some ([.passed l.passes outcome],
      { l with passes := l.passes + 1, stage := if last then .ended outcome else .waiting }) := by
  simp only [step?, hstage]

/-- A step that is no tick, and then as before. -/
theorem CanEnd.of_step {l' : Loop α} {s : LoopStep} {events : List (LoopEvent α)} (h : CanEnd recorder l')
    (hstep : l.step? recorder s = some (events, l')) (hnot : s ≠ .tick) : CanEnd recorder l := by
  obtain ⟨steps, htick, hsteps⟩ := h
  refine ⟨s :: steps, ?_, .step hstep hsteps⟩
  simpa [Ne.symm hnot] using htick

/-- A step of the pass at hand. -/
theorem CanEnd.of_act {phase phase' : Phase α} {deed : Option (Deed α)} {flusher : Flusher α}
    (h : CanEnd recorder { l with flusher, stage := .passing last phase' }) (act : Act)
    (hstage : l.stage = .passing last phase) (hnot : act ≠ .cancel)
    (hact : phase.act? (recorder l.passes) l.flusher act = some (deed, phase', flusher)) :
    CanEnd recorder l :=
  h.of_step (step?_act hstage hnot hact) nofun

/-- A task that is making its last pass can end, or one that can end from where it waits next. -/
def Leads (recorder : Nat → Recorder) (last : Bool) : Prop :=
  last = true ∨ ∀ l : Loop α, l.stage = .waiting → l.flusher.running = false → CanEnd recorder l

variable (hnext : Leads (α := α) recorder last)

include hnext

theorem canEnd_of_over {outcome : FlushOutcome} (hstage : l.stage = .passing last (.ended (some outcome)))
    (hclear : l.flusher.running = false) : CanEnd recorder l := by
  refine CanEnd.of_step ?_ (step?_goOn hstage) nofun
  cases last with
  | true => exact ⟨[], List.not_mem_nil, .ended rfl⟩
  | false => exact (hnext.resolve_left Bool.false_ne_true) _ rfl hclear

theorem canEnd_of_leaving {report : FlushReport} (hstage : l.stage = .passing last (.leaving (some report))) :
    CanEnd recorder l :=
  (canEnd_of_over hnext rfl rfl).of_act .release hstage nofun rfl

/-- What is not answered yet is handed over and answered, batch by batch. -/
theorem canEnd_of_uploading (done rest : List (Batch α)) (hdone : ∀ b ∈ done, b.stage = .answered)
    (hstage : l.stage = .passing last (.uploading (done ++ rest))) : CanEnd recorder l := by
  induction rest generalizing l done with
  | nil =>
    have hall : (done ++ []).all (fun b => decide (b.stage = Stage.answered)) = true := by
      rw [List.append_nil, List.all_eq_true]
      exact fun b hb => decide_eq_true (hdone b hb)
    exact (canEnd_of_leaving hnext rfl).of_act .finish hstage nofun (if_pos hall)
  | cons b rest ih =>
    obtain ⟨tag, items, stage⟩ := b
    -- from where the batch is answered, from where it is handed over, and from where it waits
    have hanswered {l : Loop α}
        (hstage : l.stage = .passing last (.uploading (done ++ ⟨tag, items, .answered⟩ :: rest))) :
        CanEnd recorder l := by
      refine ih (done ++ [⟨tag, items, .answered⟩]) (fun b hb => ?_) ?_
      · rcases List.mem_append.mp hb with hb | hb
        · exact hdone b hb
        · rw [List.mem_singleton.mp hb]
      · rw [List.append_assoc, List.singleton_append]
        exact hstage
    have hhanded {l : Loop α}
        (hstage : l.stage = .passing last (.uploading (done ++ ⟨tag, items, .handed⟩ :: rest))) :
        CanEnd recorder l :=
      CanEnd.of_act (hanswered rfl) (.answer done.length) hstage nofun
        (Phase.act?_answer _ _ done rest tag items)
    cases stage with
    | answered => exact hanswered hstage
    | handed => exact hhanded hstage
    | waiting =>
      exact CanEnd.of_act (hhanded rfl) (.hand done.length) hstage nofun
        (Phase.act?_hand _ _ done rest tag items)

theorem canEnd_of_passing {phase : Phase α} (hstage : l.stage = .passing last phase) (hsound : phase.Sound)
    (hrunning : l.flusher.running = phase.inFlight) : CanEnd recorder l := by
  have hacquired {l : Loop α} (hstage : l.stage = .passing last .acquired) : CanEnd recorder l :=
    (canEnd_of_uploading hnext [] (l.flusher.queues.drainAll.1.map .ofDrained) nofun rfl).of_act .drain
      hstage nofun rfl
  cases phase with
  | idle =>
    exact CanEnd.of_act (hacquired rfl) .acquire hstage nofun (if_neg (Bool.eq_false_iff.mp hrunning))
  | acquired => exact hacquired hstage
  | uploading batches => exact canEnd_of_uploading hnext [] batches nofun hstage
  | leaving report =>
    obtain ⟨report, rfl⟩ := Option.isSome_iff_exists.mp hsound
    exact canEnd_of_leaving hnext hstage
  | ended outcome =>
    cases outcome with
    | none => exact hsound.elim
    | some outcome => exact canEnd_of_over hnext hstage hrunning

end CanEnd

/-- A task that waits can be told to stop, and makes its last pass. -/
theorem canEnd_of_waiting {recorder : Nat → Recorder} {l : Loop α} (hstage : l.stage = .waiting)
    (hclear : l.flusher.running = false) : CanEnd recorder l := by
  have hpassing : CanEnd recorder { l with stage := .passing true .idle } :=
    canEnd_of_passing (.inl rfl) rfl trivial hclear
  exact hpassing.of_step (step?_begin hstage).2 nofun

/-- **A task comes to its end** from wherever it is, when it is told to stop and its recorder answers. -/
theorem Delivers.canEnd {events : List (LoopEvent α)} {l : Loop α} (h : Delivers events l)
    (recorder : Nat → Recorder) : CanEnd recorder l := by
  have hrunning := h.running
  have hsound := h.sound
  cases hstage : l.stage with
  | ended outcome => exact ⟨[], List.not_mem_nil, .ended (by rw [hstage]; rfl)⟩
  | waiting =>
    rw [hstage] at hrunning
    exact canEnd_of_waiting hstage hrunning
  | passing last phase =>
    rw [hstage] at hrunning hsound
    exact canEnd_of_passing (.inr fun _ => canEnd_of_waiting) hstage hsound hrunning

end Loop

end FlagSidecar.Flusher
