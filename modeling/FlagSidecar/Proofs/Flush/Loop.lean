import FlagSidecar.Flush.Loop
import FlagSidecar.Proofs.Flush.Calls
import FlagSidecar.Proofs.Queue.Offers
import FlagSidecar.Proofs.Queue.Threads

/-!
# FlagSidecar.Proofs.Flush.Loop: a task that makes passes hands over what was accepted

The task makes one pass after the other, so none of them finds the mark set and is skipped, and nobody cuts
one off. What was accepted under a tag is at every moment what the recorder was given under it, then what
the pass at hand has taken and not handed over yet, then what is queued. What is counted as accepted lags
behind by what some pushes have still to count.

Main statements: `Flusher.Loop.Delivers.step`, `Flusher.Loop.Replays.step`.
-/

namespace FlagSidecar

/-! ## A push in two steps -/

namespace FanIn

variable {κ α : Type} [DecidableEq κ] {f : FanIn κ α}

theorem WellFormed.append (h : f.WellFormed) (tag : κ) (items : List α) :
    (f.append tag items).2.WellFormed := ⟨(h.push tag items).nodup, (h.push tag items).holds⟩

/-- Appending makes the list of its tag longer by what it says it accepted. -/
theorem WellFormed.held_append (h : f.WellFormed) (tag : κ) (items : List α) :
    (f.append tag items).2.held tag = f.held tag ++ items.take (f.append tag items).1.moved :=
  h.held_push tag items

theorem acceptances_append (calls more : List (Call κ α)) (f : FanIn κ α) :
    acceptances (calls ++ more) f =
      acceptances calls f ++ acceptances more (runCalls call calls f).2 := by
  induction calls generalizing f with
  | nil => rfl
  | cons c rest ih =>
    rw [List.cons_append, runCalls_cons]
    cases c with
    | push tag items => exact congrArg _ (ih _)
    | _ => exact ih _

theorem held_append_of_ne {tag other : κ} (hne : tag ≠ other) (f : FanIn κ α) (items : List α) :
    (f.append tag items).2.held other = f.held other := held_push_of_ne hne f items

end FanIn

namespace Flusher

variable {α : Type}

/-! ## Batches that are not handed over yet -/

namespace Batch

/-- The records under a tag that are still to be handed over. -/
def left (tag : ClientTag) (batches : List (Batch α)) : List α :=
  FanIn.itemsUnder tag ((batches.filter (·.stage = .waiting)).map content)

/-- How many records are still to be handed over. -/
def leftCount (batches : List (Batch α)) : Nat :=
  total (·.items.length) (batches.filter (·.stage = .waiting))

theorem left_cons (tag : ClientTag) (b : Batch α) (rest : List (Batch α)) :
    left tag (b :: rest) = (if b.stage = .waiting ∧ b.tag = tag then b.items else []) ++ left tag rest := by
  unfold left FanIn.itemsUnder
  by_cases hstage : b.stage = .waiting
  · by_cases htag : b.tag = tag
    · simp [hstage, htag, content]
    · simp [hstage, htag, content]
  · simp [hstage]

theorem leftCount_cons (b : Batch α) (rest : List (Batch α)) :
    leftCount (b :: rest) = (if b.stage = .waiting then b.items.length else 0) + leftCount rest := by
  unfold leftCount
  by_cases hstage : b.stage = .waiting
  · simp [hstage, total]
  · simp [hstage]

theorem left_map_ofDrained (tag : ClientTag) (contents : List (ClientTag × List α)) :
    left tag (contents.map .ofDrained) = FanIn.itemsUnder tag contents := by
  unfold left
  rw [List.filter_eq_self.mpr, map_content_ofDrained]
  intro b hb
  obtain ⟨drained, -, rfl⟩ := List.mem_map.mp hb
  rfl

theorem leftCount_map_ofDrained (contents : List (ClientTag × List α)) :
    leftCount (contents.map .ofDrained) = total (·.2.length) contents := by
  unfold leftCount
  rw [List.filter_eq_self.mpr, total_map]
  · rfl
  intro b hb
  obtain ⟨drained, -, rfl⟩ := List.mem_map.mp hb
  rfl

variable {batches : List (Batch α)} {index : Nat} {tag : ClientTag} {items : List α}

theorem map_tag_set {before after : Stage} (h : batches[index]? = some ⟨tag, items, before⟩) :
    (batches.set index ⟨tag, items, after⟩).map (·.tag) = batches.map (·.tag) :=
  FanIn.map_set_of_eq h rfl

/-- Of batches with different tags, the one that is handed over is all that waits under its tag. -/
theorem left_eq_of_hand (hnodup : (batches.map (·.tag)).Nodup)
    (h : batches[index]? = some ⟨tag, items, .waiting⟩) (other : ClientTag) :
    left other batches =
      (if tag = other then items else []) ++ left other (batches.set index ⟨tag, items, .handed⟩) := by
  induction batches generalizing index with
  | nil => cases h
  | cons b rest ih =>
    rw [List.map_cons, List.nodup_cons] at hnodup
    cases index with
    | zero =>
      cases h
      rw [List.set_cons_zero, left_cons, left_cons]
      simp
    | succ index =>
      have hrest : rest[index]? = some ⟨tag, items, .waiting⟩ := h
      -- the first batch is under another tag
      have hne : b.tag ≠ tag := by
        rintro rfl
        exact hnodup.1 (List.mem_map.mpr ⟨_, List.mem_of_getElem? hrest, rfl⟩)
      rw [List.set_cons_succ, left_cons, left_cons, ih hnodup.2 hrest]
      by_cases htag : tag = other
      · subst htag
        simp [hne]
      · simp [htag]

theorem leftCount_eq_of_hand (h : batches[index]? = some ⟨tag, items, .waiting⟩) :
    leftCount batches = items.length + leftCount (batches.set index ⟨tag, items, .handed⟩) := by
  induction batches generalizing index with
  | nil => cases h
  | cons b rest ih =>
    cases index with
    | zero =>
      cases h
      rw [List.set_cons_zero, leftCount_cons, leftCount_cons]
      simp
    | succ index =>
      have hrest : rest[index]? = some ⟨tag, items, .waiting⟩ := h
      rw [List.set_cons_succ, leftCount_cons, leftCount_cons, ih hrest]
      omega

/-- An answer changes nothing of what waits. -/
theorem filter_set_answered (h : batches[index]? = some ⟨tag, items, .handed⟩) :
    (batches.set index ⟨tag, items, .answered⟩).filter (·.stage = .waiting) =
      batches.filter (·.stage = .waiting) := by
  induction batches generalizing index with
  | nil => cases h
  | cons b rest ih =>
    cases index with
    | zero =>
      cases h
      rfl
    | succ index =>
      have hrest : rest[index]? = some ⟨tag, items, .handed⟩ := h
      rw [List.set_cons_succ, List.filter_cons, List.filter_cons, ih hrest]

/-- Where all are answered none waits. -/
theorem filter_of_answered (h : ∀ b ∈ batches, b.stage = .answered) :
    batches.filter (·.stage = .waiting) = [] := by
  rw [List.filter_eq_nil_iff]
  intro b hb
  rw [h b hb]
  decide

end Batch

/-! ## One step -/

namespace Loop

/-- What one step of the task can be. -/
inductive Goes [Uploadable α] (recorder : Nat → Recorder) (l : Loop α) :
    LoopStep → List (LoopEvent α) → Loop α → Prop
  | tick (h : l.stage = .waiting) : Goes recorder l .tick [] { l with stage := .passing false .idle }
  | stop (h : l.stage = .waiting) : Goes recorder l .stop [] { l with stage := .passing true .idle }
  | act {last phase act deed phase' flusher} (h : l.stage = .passing last phase) (hnot : act ≠ .cancel)
    (hact : Acts (recorder l.passes) l.flusher phase act deed phase' flusher) :
    Goes recorder l (.act act) (deed.toList.map (.deed l.passes))
      { l with flusher, stage := .passing last phase' }
  | goOn {last outcome} (h : l.stage = .passing last (.ended (some outcome))) :
    Goes recorder l .goOn [.passed l.passes outcome]
      { l with passes := l.passes + 1, stage := if last then .ended outcome else .waiting }

theorem goes_of_step? [Uploadable α] {recorder : Nat → Recorder} {l l' : Loop α} {s : LoopStep}
    {events : List (LoopEvent α)} (h : l.step? recorder s = some (events, l')) :
    Goes recorder l s events l' := by
  unfold step? at h
  split at h
  next =>
    split at h
    next hstage => cases h; exact .tick hstage
    next => cases h
  next =>
    split at h
    next hstage => cases h; exact .stop hstage
    next => cases h
  next => cases h
  next act hnot =>
    split at h
    next last phase hstage =>
      split at h
      next hact => cases h; exact .act hstage hnot (Phase.acts_of_act? hact)
      next => cases h
    next => cases h
  next =>
    split at h
    next hstage => cases h; exact .goOn hstage
    next => cases h

end Loop

/-! ## What is delivered -/

/-- A pass that was neither skipped nor cut off, over batches with different tags. -/
def Phase.Sound : Phase α → Prop
  | .uploading batches => (batches.map (·.tag)).Nodup
  | .leaving report => report.isSome
  | .ended (some (.completed _)) => True
  | .ended _ => False
  | _ => True

namespace LoopStage

/-- Is a pass in flight? -/
def inFlight : LoopStage α → Bool
  | passing _ phase => phase.inFlight
  | _ => false

def Sound : LoopStage α → Prop
  | passing _ phase => phase.Sound
  | _ => True

/-- Has the last pass taken what was queued? -/
def swept : LoopStage α → Bool
  | passing last (.uploading _) => last
  | passing last (.leaving _) => last
  | passing last (.ended _) => last
  | ended _ => true
  | _ => false

/-- The records under a tag that the pass at hand has taken and not handed over yet. -/
def left (tag : ClientTag) : LoopStage α → List α
  | passing _ (.uploading batches) => Batch.left tag batches
  | _ => []

def leftCount : LoopStage α → Nat
  | passing _ (.uploading batches) => Batch.leftCount batches
  | _ => 0

def hasEnded : LoopStage α → Bool
  | ended _ => true
  | _ => false

theorem hasEnded_iff {stage : LoopStage α} :
    stage.hasEnded = true ↔ ∃ outcome, stage = .ended outcome := by
  cases stage with
  | ended outcome => exact iff_of_true rfl ⟨outcome, rfl⟩
  | _ => exact iff_of_false nofun nofun

/-- A task that has ended has nothing left to take or to hand over. -/
theorem of_hasEnded {stage : LoopStage α} (h : stage.hasEnded = true) :
    stage.swept = true ∧ stage.leftCount = 0 ∧ ∀ tag, stage.left tag = [] := by
  cases stage with
  | waiting => cases h
  | passing last phase => cases h
  | ended outcome => exact ⟨rfl, rfl, fun _ => rfl⟩

theorem isLast_of_swept {stage : LoopStage α} (h : stage.swept = true) : stage.isLast = true := by
  cases stage with
  | waiting => cases h
  | ended outcome => rfl
  | passing last phase =>
    cases phase with
    | idle => cases h
    | acquired => cases h
    | uploading batches => exact h
    | leaving report => exact h
    | ended outcome => exact h

end LoopStage

section Events

variable (events more : List (LoopEvent α)) (tag : ClientTag)

@[simp]
theorem acceptedUnder_append :
    acceptedUnder (events ++ more) tag = acceptedUnder events tag ++ acceptedUnder more tag :=
  List.flatMap_append

@[simp]
theorem recorderCalls_append :
    recorderCalls (events ++ more) = recorderCalls events ++ recorderCalls more :=
  List.filterMap_append

end Events

theorem total_concat {β : Type} (count : β → Nat) (xs : List β) (x : β) :
    total count (xs ++ [x]) = total count xs + count x := by
  induction xs with
  | nil => exact Nat.add_comm _ _
  | cons y rest ih => rw [List.cons_append, total, total, ih, Nat.add_assoc]

theorem itemsUnder_append (tag : ClientTag) (xs ys : List (ClientTag × List α)) :
    FanIn.itemsUnder tag (xs ++ ys) = FanIn.itemsUnder tag xs ++ FanIn.itemsUnder tag ys := by
  unfold FanIn.itemsUnder
  rw [List.filter_append, List.flatMap_append]

namespace Loop

/-- **What was accepted is delivered**, or is about to be. -/
structure Delivers (events : List (LoopEvent α)) (l : Loop α) : Prop where
  wellFormed : l.flusher.queues.WellFormed
  running : l.flusher.running = l.stage.inFlight
  sound : l.stage.Sound
  conserved : ∀ tag, acceptedUnder events tag =
    FanIn.itemsUnder tag (recorderCalls events) ++ l.stage.left tag ++ l.flusher.queues.held tag

namespace Delivers

variable {events : List (LoopEvent α)} {l : Loop α}

theorem start (size : UInt64) : Delivers [] (.start size : Loop α) where
  wellFormed := FanIn.wellFormed_of_queues_eq_nil rfl
  running := rfl
  sound := trivial
  conserved _ := rfl

theorem append (h : Delivers events l) (tag : ClientTag) (items : List α) :
    Delivers (events ++ [(l.append tag items).2.1]) (l.append tag items).2.2 where
  wellFormed := h.wellFormed.append tag items
  running := h.running
  sound := h.sound
  conserved other := by
    have hheld : (l.append tag items).2.2.flusher.queues.held other = l.flusher.queues.held other ++
        if tag = other then items.take (l.append tag items).1.moved else [] := by
      split
      next htag =>
        subst htag
        exact h.wellFormed.held_append tag items
      next htag =>
        rw [List.append_nil]
        exact FanIn.held_append_of_ne htag _ items
    rw [acceptedUnder_append, recorderCalls_append, hheld, h.conserved other]
    show _ ++ [_].flatMap _ = FanIn.itemsUnder other (_ ++ []) ++ l.stage.left other ++ _
    rw [List.flatMap_singleton, List.append_nil, ← List.append_assoc]
    rfl

/-- Counting changes nothing of what is delivered. -/
theorem tally (h : Delivers events l) (offered : Nat) (result : QueueResult) :
    Delivers events (l.tally offered result) :=
  ⟨⟨h.wellFormed.nodup, h.wellFormed.holds⟩, h.running, h.sound, h.conserved⟩

/-- A step that changes neither the queues nor what is left. -/
theorem quiet (h : Delivers events l) {more : List (LoopEvent α)} {l' : Loop α}
    (haccepted : ∀ tag, acceptedUnder more tag = []) (hcalls : recorderCalls more = [])
    (hqueues : l'.flusher.queues = l.flusher.queues) (hrunning : l'.flusher.running = l'.stage.inFlight)
    (hsound : l'.stage.Sound) (hleft : ∀ tag, l'.stage.left tag = l.stage.left tag) :
    Delivers (events ++ more) l' where
  wellFormed := by
    rw [hqueues]
    exact h.wellFormed
  running := hrunning
  sound := hsound
  conserved tag := by
    rw [acceptedUnder_append, recorderCalls_append, haccepted, hcalls, List.append_nil, List.append_nil,
      hqueues, hleft]
    exact h.conserved tag

variable [Uploadable α] {recorder : Nat → Recorder}

theorem act {last : Bool} {phase phase' : Phase α} {a : Act} {deed : Option (Deed α)} {flusher : Flusher α}
    (h : Delivers events l) (hstage : l.stage = .passing last phase) (hnot : a ≠ .cancel)
    (hact : Acts (recorder l.passes) l.flusher phase a deed phase' flusher) :
    Delivers (events ++ deed.toList.map (.deed l.passes))
      { l with flusher, stage := .passing last phase' } := by
  have hrunning := h.running
  have hsound := h.sound
  have hconserved := h.conserved
  rw [hstage] at hrunning hsound hconserved
  cases hact with
  | acquire hclear => exact h.quiet (fun _ => rfl) rfl rfl rfl trivial fun _ => by rw [hstage]; rfl
  | skip hset => cases hset.symm.trans hrunning
  | drain =>
    refine ⟨FanIn.wellFormed_of_queues_eq_nil rfl, hrunning, ?_, ?_⟩
    · show ((l.flusher.queues.drainAll.1.map Batch.ofDrained).map (·.tag)).Nodup
      rw [List.map_map]
      exact h.wellFormed.nodup_drainAll
    · intro tag
      -- what was held under the tag is what the pass has taken
      have hheld := h.wellFormed.held_append_accepts .drain tag
      replace hheld : l.flusher.queues.held tag ++ [] =
          FanIn.itemsUnder tag l.flusher.queues.drainAll.1 ++ [] := hheld
      rw [List.append_nil, List.append_nil] at hheld
      rw [acceptedUnder_append, recorderCalls_append, hconserved, hheld]
      show _ ++ [] ++ _ ++ [] = FanIn.itemsUnder tag (_ ++ []) ++ Batch.left tag _ ++ []
      simp only [List.append_nil, Batch.left_map_ofDrained]
  | @hand batches index tag items hwaits =>
    refine ⟨h.wellFormed, hrunning, ?_, ?_⟩
    · show ((batches.set index ⟨tag, items, .handed⟩).map (·.tag)).Nodup
      rw [Batch.map_tag_set hwaits]
      exact hsound
    · intro other
      have hleft := Batch.left_eq_of_hand hsound hwaits other
      rw [acceptedUnder_append, recorderCalls_append, hconserved, itemsUnder_append]
      show _ ++ Batch.left other batches ++ _ ++ [] =
        _ ++ FanIn.itemsUnder other [(tag, items)] ++ Batch.left other _ ++ _
      rw [hleft, List.append_nil, ← List.append_assoc (FanIn.itemsUnder other (recorderCalls events))]
      congr 3
      by_cases htag : tag = other
      · simp [FanIn.itemsUnder, htag]
      · simp [FanIn.itemsUnder, htag]
  | @answer batches index tag items hhanded =>
    refine h.quiet (fun _ => rfl) rfl rfl hrunning ?_ fun other => ?_
    · show ((batches.set index ⟨tag, items, .answered⟩).map (·.tag)).Nodup
      rw [Batch.map_tag_set hhanded]
      exact hsound
    · show Batch.left other _ = _
      rw [hstage, Batch.left, Batch.filter_set_answered hhanded]
      rfl
  | finish hall =>
    refine h.quiet (fun _ => rfl) rfl rfl hrunning rfl fun other => ?_
    show [] = _
    rw [hstage, LoopStage.left, Batch.left, Batch.filter_of_answered hall]
    rfl
  | cancelAcquired => exact absurd rfl hnot
  | cancelUploading => exact absurd rfl hnot
  | @release report =>
    obtain ⟨report, rfl⟩ := Option.isSome_iff_exists.mp hsound
    exact h.quiet (fun _ => rfl) rfl rfl rfl trivial fun other => by rw [hstage]; rfl

/-- **Every step of the task goes on delivering.** -/
theorem step {s : LoopStep} {more : List (LoopEvent α)} {l' : Loop α} (h : Delivers events l)
    (hstep : Goes recorder l s more l') : Delivers (events ++ more) l' := by
  cases hstep with
  | tick hstage =>
    have hrunning := h.running
    rw [hstage] at hrunning
    exact h.quiet (fun _ => rfl) rfl rfl hrunning trivial fun tag => by rw [hstage]; rfl
  | stop hstage =>
    have hrunning := h.running
    rw [hstage] at hrunning
    exact h.quiet (fun _ => rfl) rfl rfl hrunning trivial fun tag => by rw [hstage]; rfl
  | act hstage hnot hact => exact h.act hstage hnot hact
  | @goOn last outcome hstage =>
    have hrunning := h.running
    rw [hstage] at hrunning
    cases last with
    | false => exact h.quiet (fun _ => rfl) rfl rfl hrunning trivial fun tag => by rw [hstage]; rfl
    | true => exact h.quiet (fun _ => rfl) rfl rfl hrunning trivial fun tag => by rw [hstage]; rfl

/-- **Once the last pass has taken what was queued nothing is**, if nothing more is appended. -/
theorem swept {s : LoopStep} {more : List (LoopEvent α)} {l' : Loop α} (h : Delivers events l)
    (hstep : Goes recorder l s more l') (hbefore : l.stage.swept = true → l.flusher.queues.queues = [])
    (hafter : l'.stage.swept = true) : l'.flusher.queues.queues = [] := by
  cases hstep with
  | tick hstage => cases hafter
  | stop hstage => cases hafter
  | @goOn last outcome hstage =>
    rw [hstage] at hbefore
    cases last with
    | false => cases hafter
    | true => exact hbefore rfl
  | @act last phase a deed phase' flusher hstage hnot hact =>
    rw [hstage] at hbefore
    obtain rfl : last = true := LoopStage.isLast_of_swept hafter
    cases hact with
    | acquire hclear => cases hafter
    | skip hset =>
      have hrunning := h.running
      rw [hstage] at hrunning
      cases hset.symm.trans hrunning
    | drain => rfl
    | hand hwaits => exact hbefore rfl
    | answer hhanded => exact hbefore rfl
    | finish hall => exact hbefore rfl
    | cancelAcquired => exact absurd rfl hnot
    | cancelUploading => exact absurd rfl hnot
    | release => exact hbefore rfl

end Delivers

/-- The task is told to stop once, while it waits. -/
theorem Goes.isLast [Uploadable α] {recorder : Nat → Recorder} {l l' : Loop α} {s : LoopStep}
    {events : List (LoopEvent α)} (h : Goes recorder l s events l') (hafter : l'.stage.isLast = true) :
    l.stage.isLast = true ∨ s = .stop := by
  cases h with
  | tick hstage => cases hafter
  | stop hstage => exact .inr rfl
  | act hstage hnot hact =>
    rw [hstage]
    exact .inl hafter
  | @goOn last outcome hstage =>
    rw [hstage]
    cases last with
    | false => cases hafter
    | true => exact .inl rfl

/-- A task that has ended takes no more steps. -/
theorem Goes.hasEnded [Uploadable α] {recorder : Nat → Recorder} {l l' : Loop α} {s : LoopStep}
    {events : List (LoopEvent α)} (h : Goes recorder l s events l') : l.stage.hasEnded = false := by
  cases h with
  | tick hstage => rw [hstage]; rfl
  | stop hstage => rw [hstage]; rfl
  | act hstage hnot hact => rw [hstage]; rfl
  | goOn hstage => rw [hstage]; rfl

/-- The task accepts nothing. -/
theorem Goes.accepted [Uploadable α] {recorder : Nat → Recorder} {l l' : Loop α} {s : LoopStep}
    {events : List (LoopEvent α)} (h : Goes recorder l s events l') :
    events.filterMap LoopEvent.accepted? = [] := by
  cases h with
  | tick hstage => rfl
  | stop hstage => rfl
  | @act last phase a deed phase' flusher hstage hnot hact => cases deed <;> rfl
  | goOn hstage => rfl

/-! ## What is counted -/

/-- **The queues are as if every batch had been pushed in one call**, with the passes in between, but for
what is still to be counted. -/
structure Replays (size : UInt64) (calls : List (FanIn.Call ClientTag α)) (uncounted : QueueStats)
    (events : List (LoopEvent α)) (l : Loop α) : Prop where
  fanIn : (runCalls FanIn.call calls (.new size)).2 =
    { l.flusher.queues with stats := l.flusher.queues.stats + uncounted }
  accepted : events.filterMap LoopEvent.accepted? = FanIn.acceptances calls (.new size)
  handed : total FanIn.Answer.handed (runCalls FanIn.call calls (.new size)).1 =
    total (·.2.length) (recorderCalls events) + l.stage.leftCount

namespace Replays

variable {size : UInt64} {calls : List (FanIn.Call ClientTag α)} {uncounted : QueueStats}
  {events : List (LoopEvent α)} {l : Loop α}

theorem start (size : UInt64) : Replays size [] 0 [] (.start size : Loop α) := ⟨rfl, rfl, rfl⟩

/-- What is appended is still to be counted. -/
theorem append (h : Replays size calls uncounted events l) (tag : ClientTag) (items : List α) :
    Replays size (calls ++ [.push tag items]) (uncounted + FanIn.count 0 items.length (l.append tag items).1)
      (events ++ [(l.append tag items).2.1]) (l.append tag items).2.2 := by
  constructor
  · rw [runCalls_append]
    show ((runCalls FanIn.call calls (.new size)).2.push tag items).2 = _
    rw [h.fanIn, ← add_assoc, ← FanIn.count_eq]
    rfl
  · rw [List.filterMap_append, FanIn.acceptances_append, h.accepted, h.fanIn]
    rfl
  · rw [runCalls_append, recorderCalls_append]
    show total _ (_ ++ [FanIn.Answer.pushed _]) = total _ (recorderCalls events ++ []) + _
    rw [total_concat, List.append_nil]
    exact h.handed

/-- What is counted is not to be counted any more. -/
theorem tally {offered : Nat} {result : QueueResult}
    (h : Replays size calls (FanIn.count 0 offered result + uncounted) events l) :
    Replays size calls uncounted events (l.tally offered result) := by
  refine ⟨?_, h.accepted, h.handed⟩
  rw [h.fanIn, ← add_assoc, ← FanIn.count_eq]
  rfl

/-- A step that neither takes nor hands over. -/
theorem quiet (h : Replays size calls uncounted events l) {more : List (LoopEvent α)} {l' : Loop α}
    (haccepted : more.filterMap LoopEvent.accepted? = []) (hdrain : more.filterMap LoopEvent.drain? = [])
    (hcalls : recorderCalls more = []) (hqueues : l'.flusher.queues = l.flusher.queues)
    (hleft : l'.stage.leftCount = l.stage.leftCount) :
    Replays size (calls ++ more.filterMap LoopEvent.drain?) uncounted (events ++ more) l' := by
  rw [hdrain, List.append_nil]
  constructor
  · rw [hqueues]
    exact h.fanIn
  · rw [List.filterMap_append, haccepted, List.append_nil]
    exact h.accepted
  · rw [recorderCalls_append, hcalls, List.append_nil, hleft]
    exact h.handed

theorem act [Uploadable α] {recorder : Nat → Recorder} {last : Bool} {phase phase' : Phase α} {a : Act}
    {deed : Option (Deed α)} {flusher : Flusher α} (h : Replays size calls uncounted events l)
    (hstage : l.stage = .passing last phase) (hnot : a ≠ .cancel)
    (hact : Acts (recorder l.passes) l.flusher phase a deed phase' flusher) :
    Replays size (calls ++ (deed.toList.map (.deed l.passes)).filterMap LoopEvent.drain?) uncounted
      (events ++ deed.toList.map (.deed l.passes)) { l with flusher, stage := .passing last phase' } := by
  have hhanded := h.handed
  rw [hstage] at hhanded
  cases hact with
  | acquire hclear => exact h.quiet rfl rfl rfl rfl (by rw [hstage]; rfl)
  | skip hset => exact h.quiet rfl rfl rfl rfl (by rw [hstage]; rfl)
  | drain =>
    show Replays size (calls ++ [.drainAll]) _ _ _
    constructor
    · rw [runCalls_append, h.fanIn]
      rfl
    · rw [List.filterMap_append, FanIn.acceptances_append, h.accepted]
      rfl
    · rw [runCalls_append, recorderCalls_append, h.fanIn]
      show total _ (_ ++ [FanIn.Answer.drained l.flusher.queues.drainAll.1]) =
        total _ (recorderCalls events ++ []) + Batch.leftCount _
      rw [total_concat, List.append_nil, Batch.leftCount_map_ofDrained, hhanded]
      rfl
  | @hand batches index tag items hwaits =>
    show Replays size (calls ++ []) _ _ _
    rw [List.append_nil]
    constructor
    · exact h.fanIn
    · rw [List.filterMap_append, h.accepted]
      exact List.append_nil _
    · rw [recorderCalls_append, hhanded]
      show _ + Batch.leftCount batches = total _ (recorderCalls events ++ [(tag, items)]) + Batch.leftCount _
      rw [total_concat, Nat.add_assoc, ← Batch.leftCount_eq_of_hand hwaits]
  | answer hgiven =>
    refine h.quiet rfl rfl rfl rfl ?_
    show Batch.leftCount _ = _
    rw [hstage, Batch.leftCount, Batch.filter_set_answered hgiven]
    rfl
  | finish hall =>
    refine h.quiet rfl rfl rfl rfl ?_
    show 0 = _
    rw [hstage, LoopStage.leftCount, Batch.leftCount, Batch.filter_of_answered hall]
    rfl
  | cancelAcquired => exact absurd rfl hnot
  | cancelUploading => exact absurd rfl hnot
  | release => exact h.quiet rfl rfl rfl rfl (by rw [hstage]; rfl)

/-- **A step of the task empties the queues or leaves them as they are**, and counts nothing. -/
theorem step [Uploadable α] {recorder : Nat → Recorder} {s : LoopStep} {more : List (LoopEvent α)}
    {l' : Loop α} (h : Replays size calls uncounted events l) (hstep : Goes recorder l s more l') :
    Replays size (calls ++ more.filterMap LoopEvent.drain?) uncounted (events ++ more) l' := by
  cases hstep with
  | tick hstage => exact h.quiet rfl rfl rfl rfl (by rw [hstage]; rfl)
  | stop hstage => exact h.quiet rfl rfl rfl rfl (by rw [hstage]; rfl)
  | act hstage hnot hact => exact h.act hstage hnot hact
  | @goOn last outcome hstage =>
    cases last with
    | false => exact h.quiet rfl rfl rfl rfl (by rw [hstage]; rfl)
    | true => exact h.quiet rfl rfl rfl rfl (by rw [hstage]; rfl)

/-- When everything is counted and nothing is queued, what is counted is what the recorder was given. -/
theorem queued_eq (h : Replays size calls 0 events l) (hqueues : l.flusher.queues.queues = [])
    (hleft : l.stage.leftCount = 0) :
    l.flusher.queues.stats.queued = UInt64.ofNat (total (·.2.length) (recorderCalls events)) := by
  have hnew : (FanIn.new size : FanIn ClientTag α).Counts 0 0 := ⟨rfl, rfl⟩
  have hqueued := (FanIn.runCalls_follows (.new size) hnew calls).2.queued_eq
  rw [h.handed, h.fanIn, add_zero, hleft, Nat.add_zero, Nat.zero_add] at hqueued
  have hlength : l.flusher.queues.length = 0 := by
    rw [FanIn.length, hqueues]
    rfl
  rw [hqueued]
  show (l.flusher.queues.length + _).toUInt64 = _
  rw [hlength, Nat.zero_add]

end Replays

end Loop

end Flusher

end FlagSidecar
