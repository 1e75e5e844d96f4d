import FlagSidecar.Flush.Calls
import FlagSidecar.Proofs.Queue.History
import Mathlib.Data.List.Induction
import Mathlib.Data.List.Nodup
import Mathlib.Data.List.Pairwise
import Mathlib.Data.List.Perm.Subperm

/-!
# FlagSidecar.Proofs.Flush.Calls: what the steps of concurrent calls keep

A call is in flight from the step with which it sets the mark to the one with which it takes it back. The
mark is set exactly while some call is in flight, and then there is one only; this is kept by every step,
because a call sets the mark where nobody has and takes it back where it was the one who did.

A call takes once, and what it hands to the recorder are batches that it took, each once at most. To the
queues the calls are detachments, so what they took is what was accepted, cut into pieces.

Main statements: `Flusher.Calls.Exclusive.run`, `Flusher.Calls.accounts_run`,
`Flusher.Calls.exists_history_run`, `Flusher.eq_of_taken`.
-/

namespace FlagSidecar.Flusher

variable {ι α : Type}

/-! ## Calls and the mark -/

namespace Calls

section Phases

variable [DecidableEq ι] {other id : ι}

@[simp]
theorem withPhase_phase_self (s : Calls ι α) (id : ι) (p : Phase α) :
    (s.withPhase id p).phase id = p := if_pos rfl

theorem withPhase_phase_of_ne (h : other ≠ id) (s : Calls ι α) (p : Phase α) :
    (s.withPhase id p).phase other = s.phase other := if_neg h

@[simp]
theorem withPhase_flusher (s : Calls ι α) (id : ι) (p : Phase α) :
    (s.withPhase id p).flusher = s.flusher := rfl

end Phases

/-- One call is in flight at most, and the mark is set exactly while one is. -/
structure Exclusive (s : Calls ι α) : Prop where
  alone : ∀ i j, (s.phase i).inFlight → (s.phase j).inFlight → i = j
  running_iff : s.flusher.running = true ↔ ∃ i, (s.phase i).inFlight

namespace Exclusive

variable {s : Calls ι α}

theorem start (size : UInt64) : (Calls.start size : Calls ι α).Exclusive where
  alone _ _ h := by cases h
  running_iff := by
    constructor
    · intro h
      cases h
    · rintro ⟨_, h⟩
      cases h

/-- While the mark is clear no call is in flight. -/
theorem not_inFlight (h : s.Exclusive) (hclear : s.flusher.running = false) (i : ι) :
    (s.phase i).inFlight = false := by
  rw [Bool.eq_false_iff]
  intro hi
  rw [h.running_iff.mpr ⟨i, hi⟩] at hclear
  cases hclear

variable [DecidableEq ι] {id : ι}

/-- A call takes off while no other is in flight. -/
theorem takeOff (h : s.Exclusive) (hclear : s.flusher.running = false) {p : Phase α} {f : Flusher α}
    (hp : p.inFlight = true) (hf : f.running = true) :
    ({ s with flusher := f }.withPhase id p).Exclusive := by
  have honly : ∀ i, (({ s with flusher := f }.withPhase id p).phase i).inFlight → i = id := by
    intro i hi
    by_contra hne
    rw [withPhase_phase_of_ne hne] at hi
    exact Bool.false_ne_true ((h.not_inFlight hclear i).symm.trans hi)
  constructor
  · intro i j hi hj
    rw [honly i hi, honly j hj]
  · rw [withPhase_flusher, hf, eq_self, true_iff]
    exact ⟨id, by rw [withPhase_phase_self, hp]⟩

/-- When the call that is in flight lands, none is. -/
theorem land (h : s.Exclusive) (hid : (s.phase id).inFlight = true) {p : Phase α} {f : Flusher α}
    (hp : p.inFlight = false) (hf : f.running = false) :
    ({ s with flusher := f }.withPhase id p).Exclusive := by
  have hnone : ∀ i, ¬ (({ s with flusher := f }.withPhase id p).phase i).inFlight := by
    intro i hi
    by_cases hne : i = id
    · subst hne
      rw [withPhase_phase_self, hp] at hi
      cases hi
    · rw [withPhase_phase_of_ne hne] at hi
      exact hne (h.alone i id hi hid)
  constructor
  · intro i j hi
    exact absurd hi (hnone i)
  · rw [withPhase_flusher, hf]
    constructor
    · intro h
      cases h
    · rintro ⟨i, hi⟩
      exact absurd hi (hnone i)

/-- Whatever else a call does, it and the mark stay as they are. -/
theorem stay (h : s.Exclusive) {p : Phase α} {f : Flusher α}
    (hp : p.inFlight = (s.phase id).inFlight) (hf : f.running = s.flusher.running) :
    ({ s with flusher := f }.withPhase id p).Exclusive := by
  have hsame : ∀ i, (({ s with flusher := f }.withPhase id p).phase i).inFlight =
      (s.phase i).inFlight := by
    intro i
    by_cases hne : i = id
    · subst hne
      rw [withPhase_phase_self, hp]
    · rw [withPhase_phase_of_ne hne]
  constructor
  · intro i j hi hj
    rw [hsame] at hi hj
    exact h.alone i j hi hj
  · rw [withPhase_flusher, hf, h.running_iff]
    simp only [hsame]

end Exclusive

end Calls

variable [DecidableEq ι] [Uploadable α]

/-! ## One step of a call -/

/-- **What one step of a call can be.** -/
inductive Acts (recorder : Recorder) (f : Flusher α) :
    Phase α → Act → Option (Deed α) → Phase α → Flusher α → Prop
  | acquire (hclear : f.running = false) :
    Acts recorder f .idle .acquire none .acquired { f with running := true }
  /-- The call finds the mark set. -/
  | skip (hset : f.running = true) :
    Acts recorder f .idle .acquire none (.ended (some .skipped)) f
  | drain :
    Acts recorder f .acquired .drain (some (.drained f.queues.drainAll.1))
      (.uploading (f.queues.drainAll.1.map .ofDrained)) { f with queues := f.queues.drainAll.2 }
  | hand {batches index tag items} (hwaits : batches[index]? = some ⟨tag, items, .waiting⟩) :
    Acts recorder f (.uploading batches) (.hand index) (some (.handed (tag, items)))
      (.uploading (batches.set index ⟨tag, items, .handed⟩)) f
  | answer {batches index tag items} (hhanded : batches[index]? = some ⟨tag, items, .handed⟩) :
    Acts recorder f (.uploading batches) (.answer index) none
      (.uploading (batches.set index ⟨tag, items, .answered⟩)) f
  | finish {batches} (hall : ∀ b ∈ batches, b.stage = .answered) :
    Acts recorder f (.uploading batches) .finish none
      (.leaving (some (.ofUploads recorder (batches.map fun b => upload b.content)))) f
  /-- Nothing is taken yet. -/
  | cancelAcquired : Acts recorder f .acquired .cancel none (.leaving none) f
  /-- Some batches may be handed over and some answered. -/
  | cancelUploading {batches} :
    Acts recorder f (.uploading batches) .cancel none (.leaving none) f
  | release {report} :
    Acts recorder f (.leaving report) .release none (.ended (report.map .completed)) f.release

omit [DecidableEq ι] in
theorem Phase.acts_of_act? {recorder : Recorder} {f f' : Flusher α} {act : Act} {p p' : Phase α}
    {deed : Option (Deed α)} (h : p.act? recorder f act = some (deed, p', f')) :
    Acts recorder f p act deed p' f' := by
  unfold Phase.act? at h
  split at h
  next =>
    split at h
    next hset =>
      cases h
      exact .skip hset
    next hclear =>
      cases h
      exact .acquire (Bool.eq_false_iff.mpr hclear)
  next =>
    cases h
    exact .drain
  next index batches =>
    split at h
    next tag items hwaits =>
      cases h
      exact .hand hwaits
    next => cases h
  next index batches =>
    split at h
    next tag items hhanded =>
      cases h
      exact .answer hhanded
    next => cases h
  next batches =>
    split at h
    next hall =>
      cases h
      exact .finish fun b hb => of_decide_eq_true (List.all_eq_true.mp hall b hb)
    next => cases h
  next =>
    cases h
    exact .cancelAcquired
  next =>
    cases h
    exact .cancelUploading
  next =>
    cases h
    exact .release
  next => cases h

/-- **What a step does to the mark**: a call takes off where the mark was clear, lands and clears it, or
neither it nor the mark is changed in this. -/
theorem Acts.mark {recorder : Recorder} {f f' : Flusher α} {act : Act} {p p' : Phase α}
    {deed : Option (Deed α)} (h : Acts recorder f p act deed p' f') :
    (p.inFlight = false ∧ f.running = false ∧ p'.inFlight = true ∧ f'.running = true) ∨
      (p.inFlight = true ∧ p'.inFlight = false ∧ f'.running = false) ∨
      (p'.inFlight = p.inFlight ∧ f'.running = f.running) := by
  cases h with
  | acquire hclear => exact .inl ⟨rfl, hclear, rfl, rfl⟩
  | release => exact .inr (.inl ⟨rfl, rfl, rfl⟩)
  | skip hset => exact .inr (.inr ⟨rfl, rfl⟩)
  | drain => exact .inr (.inr ⟨rfl, rfl⟩)
  | hand hwaits => exact .inr (.inr ⟨rfl, rfl⟩)
  | answer hhanded => exact .inr (.inr ⟨rfl, rfl⟩)
  | finish hall => exact .inr (.inr ⟨rfl, rfl⟩)
  | cancelAcquired => exact .inr (.inr ⟨rfl, rfl⟩)
  | cancelUploading => exact .inr (.inr ⟨rfl, rfl⟩)

/-- A pass that begins while none is in flight takes everything. -/
theorem begin?_of_clear {f : Flusher α} (hclear : f.running = false) :
    f.begin? = some (f.queues.drainAll.1.map upload, ⟨f.queues.drainAll.2, true⟩) :=
  if_neg (Bool.eq_false_iff.mp hclear)

section Batches

variable (recorder : Recorder) (f : Flusher α) (before after : List (Batch α)) (tag : ClientTag)
  (items : List α)

/-- The batch that comes next is handed over. -/
theorem Phase.act?_hand :
    Phase.act? recorder f (.hand before.length) (.uploading (before ++ ⟨tag, items, .waiting⟩ :: after)) =
      some (some (.handed (tag, items)), .uploading (before ++ ⟨tag, items, .handed⟩ :: after), f) := by
  simp [Phase.act?]

/-- The batch that comes next is answered. -/
theorem Phase.act?_answer :
    Phase.act? recorder f (.answer before.length) (.uploading (before ++ ⟨tag, items, .handed⟩ :: after)) =
      some (none, .uploading (before ++ ⟨tag, items, .answered⟩ :: after), f) := by
  simp [Phase.act?]

end Batches

namespace Calls

variable {recorder : ι → Recorder} {s : Calls ι α} {id other : ι}

theorem step_call_of_act? {act : Act} {deed : Option (Deed α)} {p : Phase α} {f : Flusher α}
    (h : (s.phase id).act? (recorder id) s.flusher act = some (deed, p, f)) :
    s.step recorder (.call id act) =
      (deed.toList.map (.deed id), { s with flusher := f }.withPhase id p) := by
  simp only [step, h]

/-- A step that touches neither the queues nor the recorder leaves no event. -/
theorem step_quiet {act : Act} {p : Phase α} {f : Flusher α}
    (h : (s.phase id).act? (recorder id) s.flusher act = some (none, p, f)) :
    s.step recorder (.call id act) = ([], { s with flusher := f }.withPhase id p) :=
  step_call_of_act? h

/-- A step that is noticed leaves its deed. -/
theorem step_noted {act : Act} {deed : Deed α} {p : Phase α} {f : Flusher α}
    (h : (s.phase id).act? (recorder id) s.flusher act = some (some deed, p, f)) :
    s.step recorder (.call id act) =
      ([.deed id deed], { s with flusher := f }.withPhase id p) :=
  step_call_of_act? h

/-- **What one step can be**: a push, a step of a call, or nothing. -/
theorem step_cases (recorder : ι → Recorder) (s : Calls ι α) (move : Move ι α) :
    (∃ tag items, move = .push tag items ∧ s.step recorder move =
      ([.accepted tag (items.take (s.flusher.queues.push tag items).1.moved)],
        { s with flusher := { s.flusher with queues := (s.flusher.queues.push tag items).2 } })) ∨
    (∃ id act deed p f, move = .call id act ∧ Acts (recorder id) s.flusher (s.phase id) act deed p f ∧
      s.step recorder move = (deed.toList.map (.deed id), { s with flusher := f }.withPhase id p)) ∨
    s.step recorder move = ([], s) := by
  cases move with
  | push tag items => exact .inl ⟨tag, items, rfl, rfl⟩
  | call id act =>
    cases hact : (s.phase id).act? (recorder id) s.flusher act with
    | none =>
      right; right
      simp only [step, hact]
    | some r =>
      obtain ⟨deed, p, f⟩ := r
      exact .inr (.inl ⟨id, act, deed, p, f, rfl, Phase.acts_of_act? hact, step_call_of_act? hact⟩)

/-! ## Runs -/

theorem run_cons (move : Move ι α) (schedule : List (Move ι α)) (s : Calls ι α) :
    run recorder (move :: schedule) s =
      ((s.step recorder move).1 ++ (run recorder schedule (s.step recorder move).2).1,
        (run recorder schedule (s.step recorder move).2).2) := rfl

theorem run_append (schedule more : List (Move ι α)) (s : Calls ι α) :
    run recorder (schedule ++ more) s =
      ((run recorder schedule s).1 ++ (run recorder more (run recorder schedule s).2).1,
        (run recorder more (run recorder schedule s).2).2) := by
  induction schedule generalizing s with
  | nil => rfl
  | cons first schedule ih =>
    rw [List.cons_append, run_cons, run_cons, ih, List.append_assoc]

theorem run_singleton (move : Move ι α) (s : Calls ι α) :
    run recorder [move] s = s.step recorder move :=
  congrArg (Prod.mk · (s.step recorder move).2) (List.append_nil _)

/-- **Induction along a run.** What holds at the start and is kept by every step holds after every run. -/
theorem run_induction {motive : List (Occurrence ι α) → Calls ι α → Prop} (start : motive [] s)
    (step : ∀ events s move, motive events s →
      motive (events ++ (s.step recorder move).1) (s.step recorder move).2)
    (schedule : List (Move ι α)) :
    motive (run recorder schedule s).1 (run recorder schedule s).2 := by
  induction schedule using List.reverseRecOn with
  | nil => exact start
  | append_singleton schedule move ih =>
    rw [run_append, run_singleton]
    exact step _ _ move ih

/-! ## The mark along a run -/

namespace Exclusive

/-- **Every step keeps passes apart.** -/
theorem step (h : s.Exclusive) (move : Move ι α) : (s.step recorder move).2.Exclusive := by
  obtain ⟨tag, items, -, heq⟩ | ⟨id, act, deed, p, f, -, hact, heq⟩ | heq :=
    step_cases recorder s move
  · rw [heq]
    exact ⟨h.alone, h.running_iff⟩
  · rw [heq]
    obtain ⟨-, hclear, hp, hf⟩ | ⟨hid, hp, hf⟩ | ⟨hp, hf⟩ := hact.mark
    · exact h.takeOff hclear hp hf
    · exact h.land hid hp hf
    · exact h.stay hp hf
  · rw [heq]
    exact h

theorem run (size : UInt64) (recorder : ι → Recorder) (schedule : List (Move ι α)) :
    (Calls.run recorder schedule (.start size)).2.Exclusive :=
  run_induction (motive := fun _ s => s.Exclusive) (.start size)
    (fun _ _ move h => h.step move) schedule

end Exclusive

end Calls

/-! ## Batches that the recorder has -/

section Batches

omit [Uploadable α]

/-- The batches that were handed over, in the order of their taking. -/
def Batch.begun (batches : List (Batch α)) : List (ClientTag × List α) :=
  (batches.filter fun b => b.stage ≠ .waiting).map Batch.content

namespace Batch

theorem begun_sublist (batches : List (Batch α)) :
    (begun batches).Sublist (batches.map Batch.content) :=
  List.filter_sublist.map _

theorem begun_map_ofDrained (contents : List (ClientTag × List α)) :
    begun (contents.map .ofDrained) = [] := by
  rw [begun, List.filter_eq_nil_iff.mpr, List.map_nil]
  intro b hb
  obtain ⟨drained, -, rfl⟩ := List.mem_map.mp hb
  simp [ofDrained]

theorem map_content_ofDrained (contents : List (ClientTag × List α)) :
    (contents.map Batch.ofDrained).map Batch.content = contents := by
  rw [List.map_map]
  exact List.map_id contents

variable {batches : List (Batch α)} {index : Nat} {tag : ClientTag} {items : List α}

/-- A batch stays what it is, however far its upload has come. -/
theorem map_content_set {before after : Stage} (h : batches[index]? = some ⟨tag, items, before⟩) :
    (batches.set index ⟨tag, items, after⟩).map Batch.content = batches.map Batch.content := by
  induction batches generalizing index with
  | nil => cases h
  | cons b rest ih =>
    cases index with
    | zero =>
      cases h
      rfl
    | succ index => exact congrArg (b.content :: ·) (ih h)

/-- Handing over a batch that waits adds it to those that the recorder has. -/
theorem begun_set_handed (h : batches[index]? = some ⟨tag, items, .waiting⟩) :
    (begun (batches.set index ⟨tag, items, .handed⟩)).Perm (begun batches ++ [(tag, items)]) := by
  induction batches generalizing index with
  | nil => cases h
  | cons b rest ih =>
    cases index with
    | zero =>
      cases h
      exact (List.perm_append_singleton (tag, items) (begun rest)).symm
    | succ index =>
      have hrest : rest[index]? = some ⟨tag, items, .waiting⟩ := h
      rw [List.set_cons_succ]
      unfold begun at ih ⊢
      by_cases hb : b.stage = .waiting
      · rw [List.filter_cons_of_neg (by simpa using hb), List.filter_cons_of_neg (by simpa using hb)]
        exact ih hrest
      · rw [List.filter_cons_of_pos (by simpa using hb), List.filter_cons_of_pos (by simpa using hb)]
        exact (ih hrest).cons b.content

/-- An answer adds nothing to what the recorder has. -/
theorem begun_set_answered (h : batches[index]? = some ⟨tag, items, .handed⟩) :
    begun (batches.set index ⟨tag, items, .answered⟩) = begun batches := by
  induction batches generalizing index with
  | nil => cases h
  | cons b rest ih =>
    cases index with
    | zero =>
      cases h
      rfl
    | succ index =>
      have hrest : rest[index]? = some ⟨tag, items, .handed⟩ := h
      rw [List.set_cons_succ]
      unfold begun at ih ⊢
      by_cases hb : b.stage = .waiting
      · rw [List.filter_cons_of_neg (by simpa using hb), List.filter_cons_of_neg (by simpa using hb)]
        exact ih hrest
      · rw [List.filter_cons_of_pos (by simpa using hb), List.filter_cons_of_pos (by simpa using hb),
          List.map_cons, List.map_cons, ih hrest]

end Batch

/-- What a call has taken and handed over, by where it is. -/
def Phase.Accounts (drains : List (List (ClientTag × List α))) (handed : List (ClientTag × List α)) :
    Phase α → Prop
  | .idle => drains = [] ∧ handed = []
  | .acquired => drains = [] ∧ handed = []
  | .uploading batches =>
    drains = [batches.map Batch.content] ∧ handed.Perm (Batch.begun batches)
  | .leaving _ => drains.length ≤ 1 ∧ handed.Subperm drains.flatten
  | .ended (some .skipped) => drains = [] ∧ handed = []
  | .ended _ => drains.length ≤ 1 ∧ handed.Subperm drains.flatten

/-- Wherever a call is, it took once at most and handed over what it took. -/
theorem Phase.Accounts.subperm {drains : List (List (ClientTag × List α))}
    {handed : List (ClientTag × List α)} {p : Phase α} (h : p.Accounts drains handed) :
    drains.length ≤ 1 ∧ handed.Subperm drains.flatten := by
  have hnothing : drains = [] ∧ handed = [] → drains.length ≤ 1 ∧ handed.Subperm drains.flatten := by
    rintro ⟨rfl, rfl⟩
    exact ⟨Nat.zero_le 1, List.nil_subperm⟩
  cases p with
  | idle => exact hnothing h
  | acquired => exact hnothing h
  | uploading batches =>
    obtain ⟨rfl, hhanded⟩ := h
    refine ⟨Nat.le_refl 1, hhanded.subperm.trans ?_⟩
    rw [List.flatten_singleton]
    exact (Batch.begun_sublist batches).subperm
  | leaving report => exact h
  | ended outcome =>
    match outcome with
    | none => exact h
    | some (.completed _) => exact h
    | some .skipped => exact hnothing h

end Batches

/-- **Every step of a call keeps account** of what it takes and hands over. -/
theorem Acts.accounts {recorder : Recorder} {f f' : Flusher α} {act : Act} {p p' : Phase α}
    {deed : Option (Deed α)} (h : Acts recorder f p act deed p' f')
    {drains : List (List (ClientTag × List α))} {handed : List (ClientTag × List α)}
    (hp : p.Accounts drains handed) :
    p'.Accounts (drains ++ deed.toList.filterMap Deed.drained?)
      (handed ++ deed.toList.filterMap Deed.handed?) := by
  have hsame : p'.Accounts drains handed →
      p'.Accounts (drains ++ []) (handed ++ []) := by
    rw [List.append_nil, List.append_nil]
    exact id
  cases h with
  | acquire hclear => exact hsame hp
  | skip hset => exact hsame hp
  | drain =>
    obtain ⟨rfl, rfl⟩ := hp
    exact ⟨congrArg (fun contents => [contents]) (Batch.map_content_ofDrained _).symm,
      by rw [Batch.begun_map_ofDrained]; exact .nil⟩
  | hand hwaits =>
    obtain ⟨rfl, hhanded⟩ := hp
    refine ⟨?_, (hhanded.append_right _).trans (Batch.begun_set_handed hwaits).symm⟩
    rw [Batch.map_content_set hwaits]
    rfl
  | answer hhanded =>
    apply hsame
    show drains = [_] ∧ handed.Perm _
    rw [Batch.map_content_set hhanded, Batch.begun_set_answered hhanded]
    exact hp
  | finish hall => exact hsame hp.subperm
  | cancelAcquired => exact hsame hp.subperm
  | cancelUploading => exact hsame hp.subperm
  | @release report =>
    apply hsame
    cases report with
    | none => exact hp
    | some report => exact hp

/-! ## What a run has come to -/

section Events

omit [Uploadable α]

variable (events more : List (Occurrence ι α)) (id : ι)

theorem drainsOf_append : drainsOf (events ++ more) id = drainsOf events id ++ drainsOf more id := by
  simp only [drainsOf, List.filterMap_append]

theorem handedBy_append : handedBy (events ++ more) id = handedBy events id ++ handedBy more id := by
  simp only [handedBy, List.filterMap_append]

omit [DecidableEq ι] in
theorem history_append : history (events ++ more) = history events ++ history more :=
  List.filterMap_append

theorem filterMap_deedOf?_self (deeds : List (Deed α)) :
    (deeds.map (Occurrence.deed id)).filterMap (Occurrence.deedOf? id) = deeds := by
  rw [List.filterMap_map]
  have hself : Occurrence.deedOf? id ∘ Occurrence.deed id = (some : Deed α → Option (Deed α)) := by
    funext deed
    exact if_pos rfl
  rw [hself, List.filterMap_some]

theorem filterMap_deedOf?_of_ne {id other : ι} (h : id ≠ other) (deeds : List (Deed α)) :
    (deeds.map (Occurrence.deed id)).filterMap (Occurrence.deedOf? other) = [] := by
  rw [List.filterMap_eq_nil_iff]
  intro event hevent
  obtain ⟨deed, -, rfl⟩ := List.mem_map.mp hevent
  exact if_neg h

end Events

namespace Calls

variable (recorder : ι → Recorder)

/-- **Every call took once at most and handed over what it took.** -/
theorem accounts_run (size : UInt64) (schedule : List (Move ι α)) (i : ι) :
    (((run recorder schedule (.start size)).2).phase i).Accounts
      (drainsOf (run recorder schedule (.start size)).1 i)
      (handedBy (run recorder schedule (.start size)).1 i) := by
  have hstart : Phase.Accounts (α := α) [] [] .idle := ⟨rfl, rfl⟩
  refine run_induction (s := start size) (motive := fun events s =>
    (s.phase i).Accounts (drainsOf events i) (handedBy events i)) hstart ?_ schedule
  intro events s move ih
  rw [drainsOf_append, handedBy_append]
  obtain ⟨tag, items, -, heq⟩ | ⟨id, act, deed, p, f, -, hact, heq⟩ | heq :=
    step_cases recorder s move
  · rw [heq]
    show (s.phase i).Accounts (_ ++ []) (_ ++ [])
    rw [List.append_nil, List.append_nil]
    exact ih
  · rw [heq]
    by_cases hid : id = i
    · subst hid
      unfold drainsOf handedBy at ih ⊢
      rw [withPhase_phase_self, filterMap_deedOf?_self]
      exact hact.accounts ih
    · -- the step of another call
      unfold drainsOf handedBy at ih ⊢
      rw [withPhase_phase_of_ne (Ne.symm hid), filterMap_deedOf?_of_ne hid, List.filterMap_nil,
        List.filterMap_nil, List.append_nil, List.append_nil]
      exact ih
  · rw [heq]
    show (s.phase i).Accounts (_ ++ []) (_ ++ [])
    rw [List.append_nil, List.append_nil]
    exact ih

/-- **The queues go through what the history says.** -/
theorem exists_history_run (size : UInt64) (schedule : List (Move ι α)) :
    ∃ steps : List (FanIn.Step ClientTag α), FanIn.run steps (.new size) =
      (history (run recorder schedule (.start size)).1,
        (run recorder schedule (.start size)).2.flusher.queues) := by
  refine run_induction (s := start size) (motive := fun events s => ∃ steps, FanIn.run steps (.new size) =
    (history events, s.flusher.queues)) ⟨[], rfl⟩ ?_ schedule
  rintro events s move ⟨steps, hsteps⟩
  rw [history_append]
  -- a step that the queues do not notice
  have hsame : ∀ {more : List (Occurrence ι α)} {f : Flusher α}, history more = [] →
      f.queues = s.flusher.queues →
      ∃ steps, FanIn.run steps (.new size) = (history events ++ history more, f.queues) := by
    intro more f hmore hf
    rw [hmore, hf, List.append_nil]
    exact ⟨steps, hsteps⟩
  obtain ⟨tag, items, -, heq⟩ | ⟨id, act, deed, p, f, -, hact, heq⟩ | heq :=
    step_cases recorder s move
  · rw [heq]
    refine ⟨steps ++ [.push tag items], ?_⟩
    rw [FanIn.run_append, hsteps]
    rfl
  · rw [heq]
    generalize s.phase id = before at hact
    cases hact with
    | drain =>
      refine ⟨steps ++ [.drain], ?_⟩
      rw [FanIn.run_append, hsteps]
      rfl
    | acquire hclear => exact hsame rfl rfl
    | skip hset => exact hsame rfl rfl
    | hand hwaits => exact hsame rfl rfl
    | answer hhanded => exact hsame rfl rfl
    | finish hall => exact hsame rfl rfl
    | cancelAcquired => exact hsame rfl rfl
    | cancelUploading => exact hsame rfl rfl
    | release => exact hsame rfl rfl
  · rw [heq]
    exact hsame rfl rfl

end Calls

/-! ## Whose a record is -/

section Taken

omit [DecidableEq ι] [Uploadable α]

/-- The records that an event took from under a tag. -/
def Occurrence.taken (tag : ClientTag) : Occurrence ι α → List α
  | .accepted _ _ => []
  | .deed _ (.drained contents) => FanIn.itemsUnder tag contents
  | .deed _ (.handed _) => []

theorem flatten_handed_history (events : List (Occurrence ι α)) (tag : ClientTag) :
    ((history events).handed tag).flatten = events.flatMap (Occurrence.taken tag) := by
  unfold history FanIn.History.handed
  induction events with
  | nil => rfl
  | cons event rest ih =>
    rw [List.flatMap_cons, ← ih]
    cases event with
    | accepted t items => rfl
    | deed id deed =>
      cases deed with
      | handed batch => rfl
      | drained contents =>
        show (((contents.filter (·.1 = tag)).map (·.2)) ++ _).flatten = _
        rw [List.flatten_append]
        rfl

/-- What a call took from under a tag, some event took from under it. -/
theorem exists_taken [DecidableEq ι] {events : List (Occurrence ι α)} {id : ι} {tag : ClientTag}
    {items : List α} (h : (tag, items) ∈ (drainsOf events id).flatten) {item : α} (hitem : item ∈ items) :
    ∃ contents, .deed id (.drained contents) ∈ events ∧
      item ∈ Occurrence.taken tag (.deed id (.drained contents) : Occurrence ι α) := by
  obtain ⟨contents, hcontents, hmem⟩ := List.mem_flatten.mp h
  obtain ⟨deed, hdeed, hdrained⟩ := List.mem_filterMap.mp hcontents
  obtain ⟨event, hevent, hof⟩ := List.mem_filterMap.mp hdeed
  cases deed with
  | handed batch => cases hdrained
  | drained taken =>
    cases hdrained
    cases event with
    | accepted t items => cases hof
    | deed other done =>
      simp only [Occurrence.deedOf?] at hof
      split at hof
      next hid =>
        cases hof
        subst hid
        refine ⟨contents, hevent, List.mem_flatMap.mpr ⟨(tag, items), ?_, hitem⟩⟩
        exact List.mem_filter.mpr ⟨hmem, decide_eq_true rfl⟩
      next => cases hof

/-- A record that two calls took was accepted twice. -/
theorem eq_of_taken [DecidableEq ι] {events : List (Occurrence ι α)} {tag : ClientTag}
    (hnodup : (((history events).handed tag).flatten).Nodup) {i j : ι} {taken taken' : List α}
    (hi : (tag, taken) ∈ (drainsOf events i).flatten) (hj : (tag, taken') ∈ (drainsOf events j).flatten)
    {item : α} (hitem : item ∈ taken) (hitem' : item ∈ taken') : i = j := by
  by_contra hne
  obtain ⟨contents, hevent, htaken⟩ := exists_taken hi hitem
  obtain ⟨contents', hevent', htaken'⟩ := exists_taken hj hitem'
  rw [flatten_handed_history, List.nodup_flatMap] at hnodup
  have : Std.Symm (Function.onFun List.Disjoint (Occurrence.taken (ι := ι) (α := α) tag)) :=
    ⟨fun _ _ h => List.disjoint_symm h⟩
  have hdisjoint := hnodup.2.forall hevent hevent' (by simp [hne])
  exact hdisjoint htaken htaken'

end Taken

end FlagSidecar.Flusher
