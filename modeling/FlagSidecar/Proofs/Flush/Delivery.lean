import FlagSidecar.Flush.Log
import FlagSidecar.Proofs.Queue.History
import FlagSidecar.Proofs.Record.Grouping
import Mathlib.Data.List.Forall2

/-!
# FlagSidecar.Proofs.Flush.Delivery: every accepted record is handed to the recorder once

To its queues a flusher is a fan-in to which pushes and detachments are made, and its log tells what the
history of that fan-in tells, with an upload for each batch that was handed out. So what is known of
fan-ins holds of flushers: a pass makes one upload for each tag under which something was accepted since
the last pass, of exactly that; and over a whole run the uploads of a tag and what is still queued under it
are what was accepted under it, cut into pieces.

What the recorder answers goes into the reports only. A failed upload is not made again, and the rest of
the run is what it would be had the upload not failed.

What an upload carries is said by itself: of events one record each, field by field, and of impressions
their partition by feature. Everything else holds of any kind of record whose uploads carry what they are
made of.

Main statement: `Flusher.delivered_once`.
-/

namespace FlagSidecar

/-! ## What an upload carries -/

namespace UploadBody

/-- **The body carries these events**: one record for each, in their order. -/
def CarriesEvents (items : List Event) (body : UploadBody) : Prop :=
  body = .events (items.map fun e => {
    key := e.key, trafficType := e.trafficType, eventType := e.eventType, value := e.value
    timestamp := e.timestamp, properties := e.properties })

/-- **The body carries these impressions**: a group for each feature, in the order in which the features
first occur, with the impressions of the feature in their order. -/
def CarriesImpressions (items : List Impression) (body : UploadBody) : Prop :=
  ∃ batch, body = .impressions batch ∧ ImpressionBatch.Partitions items batch

theorem carriesEvents_ofEvents (items : List Event) : CarriesEvents items (ofEvents items) := rfl

theorem carriesImpressions_ofImpressions (items : List Impression) :
    CarriesImpressions items (ofImpressions items) :=
  ⟨_, rfl, ImpressionBatch.partitions_ofImpressions items⟩

end UploadBody

/-- **The upload is of these records**, under their tag. -/
structure Upload.Of {α : Type} (carries : List α → UploadBody → Prop) (tag : ClientTag) (items : List α)
    (u : Upload) : Prop where
  tag_eq : u.tag = tag
  items_eq : u.items = items.length
  carries : carries items u.body

/-! ## Reports -/

namespace FlushReport

variable (recorder : Recorder) (uploads : List Upload)

/-- The failures in a report are those of the uploads. -/
theorem mem_failures {failure : FlushFailure} :
    failure ∈ (ofUploads recorder uploads).failures ↔
      ∃ u ∈ uploads, recorder u = .error failure.failure ∧
        failure.tag = u.tag ∧ failure.items = u.items := by
  unfold ofUploads
  rw [List.mem_filterMap]
  constructor
  · rintro ⟨u, hu, hsome⟩
    cases hanswer : recorder u with
    | ok _ =>
      rw [hanswer] at hsome
      cases hsome
    | error reason =>
      rw [hanswer] at hsome
      cases hsome
      exact ⟨u, hu, hanswer, rfl, rfl⟩
  · rintro ⟨u, hu, hanswer, htag, hitems⟩
    refine ⟨u, hu, ?_⟩
    rw [hanswer, ← htag, ← hitems]

/-- Failures are listed in the order of the uploads, each upload once at most. -/
theorem map_tag_failures_sublist :
    ((ofUploads recorder uploads).failures.map (·.tag)).Sublist (uploads.map (·.tag)) := by
  induction uploads with
  | nil => exact List.Sublist.slnil
  | cons u rest ih =>
    unfold ofUploads at ih ⊢
    rw [List.filterMap_cons]
    cases recorder u with
    | ok _ => exact ih.cons u.tag
    | error reason => exact ih.cons_cons u.tag

end FlushReport

namespace Flusher

variable {α : Type}

/-! ## What a flusher does to its queues -/

/-- What a step does to the queues: a pass is a detachment, and then come the pushes meanwhile. -/
def Step.onQueues : Step α → List (FanIn.Step ClientTag α)
  | push tag items => [.push tag items]
  | pass _ meanwhile => .drain :: meanwhile.map fun (tag, items) => .push tag items

variable [Uploadable α]

/-- An entry of the log tells what an entry of the queues' history tells. A pass that handed out these
batches made an upload of each. -/
inductive Entry.Tells : FanIn.Entry ClientTag α → Entry α → Prop
  | accepted (tag : ClientTag) (items : List α) : Tells (.accepted tag items) (.accepted tag items)
  | passed (recorder : Recorder) (contents : List (ClientTag × List α)) :
    Tells (.drained contents)
      (.passed recorder (.completed (.ofUploads recorder (contents.map upload)))
        (contents.map upload))

/-- A log tells a history, entry by entry. -/
abbrev Log.Tells (history : FanIn.History ClientTag α) (log : Log α) : Prop :=
  List.Forall₂ Entry.Tells history log

namespace Log.Tells

variable {history : FanIn.History ClientTag α} {log : Log α}

theorem pending_eq (h : Log.Tells history log) (tag : ClientTag) :
    log.pending tag = history.pending tag [] := by
  unfold Log.pending FanIn.History.pending
  generalize ([] : List α) = start
  induction h generalizing start with
  | nil => rfl
  | cons hentry hrest ih =>
    cases hentry with
    | accepted t items => exact ih _
    | passed recorder contents => exact ih _

theorem accepted_eq (h : Log.Tells history log) (tag : ClientTag) :
    log.accepted tag = history.accepted tag := by
  unfold Log.accepted FanIn.History.accepted
  induction h with
  | nil => rfl
  | cons hentry hrest ih =>
    rw [List.flatMap_cons, List.flatMap_cons, ih]
    cases hentry with
    | accepted t items => rfl
    | passed recorder contents => rfl

/-- The uploads for a tag are those of the batches that were handed out under it. -/
theorem calls_eq (h : Log.Tells history log) (tag : ClientTag) :
    log.calls tag = (history.handed tag).map fun items => upload (tag, items) := by
  unfold Log.calls FanIn.History.handed
  induction h with
  | nil => rfl
  | cons hentry hrest ih =>
    rw [List.flatMap_cons, List.flatMap_cons, List.map_append, ih]
    cases hentry with
    | accepted t items => rfl
    | passed recorder contents =>
      show (contents.map upload).filter (·.tag = tag) ++ _ =
        ((contents.filter (·.1 = tag)).map (·.2)).map (fun items => upload (tag, items)) ++ _
      rw [List.filter_map, List.map_map]
      congr 1
      apply List.map_congr_left
      rintro ⟨t, items⟩ hmem
      have ht : t = tag := of_decide_eq_true (List.mem_filter.mp hmem).2
      subst ht
      rfl

end Log.Tells

/-- Pushes go to the queues and leave the mark of a pass as it is. -/
theorem pushAll_tells (pushes : List (ClientTag × List α)) (f : Flusher α) :
    ∃ history log queues,
      FanIn.run (pushes.map fun (tag, items) => .push tag items) f.queues = (history, queues) ∧
      f.pushAll pushes = (log, { f with queues }) ∧ Log.Tells history log := by
  induction pushes generalizing f with
  | nil => exact ⟨[], [], f.queues, rfl, rfl, .nil⟩
  | cons p rest ih =>
    obtain ⟨tag, items⟩ := p
    obtain ⟨history, log, queues, hrun, hpush, htells⟩ := ih (f.push tag items).2
    -- the queues after the push are the fan-in after its step
    replace hrun : FanIn.run _ (f.queues.step (.push tag items)).2 = _ := hrun
    refine ⟨(f.queues.step (.push tag items)).1 :: history, (f.push tag items).1 :: log, queues,
      ?_, ?_, .cons (.accepted tag _) htells⟩
    · rw [List.map_cons, FanIn.run_cons, hrun]
    · show ((f.push tag items).1 :: (pushAll rest (f.push tag items).2).1,
        (pushAll rest (f.push tag items).2).2) = _
      rw [hpush]
      rfl

/-- **A step of a flusher in which no pass is in flight is what it does to the queues**, and afterwards
there is no pass in flight. -/
theorem step_tells (s : Step α) (queues : FanIn ClientTag α) :
    ∃ history log after, FanIn.run s.onQueues queues = (history, after) ∧
      step ⟨queues, false⟩ s = (log, ⟨after, false⟩) ∧ Log.Tells history log := by
  cases s with
  | push tag items => exact ⟨_, _, _, rfl, rfl, .cons (.accepted tag _) .nil⟩
  | pass recorder meanwhile =>
    -- the pushes meanwhile find the queues detached and the mark of the pass set
    obtain ⟨history, log, after, hrun, hpush, htells⟩ :=
      pushAll_tells meanwhile (⟨queues.drainAll.2, true⟩ : Flusher α)
    replace hrun : FanIn.run _ (queues.step .drain).2 = _ := hrun
    refine ⟨_, _, after, ?_, ?_, .cons (.passed recorder queues.drainAll.1) htells⟩
    · unfold Step.onQueues
      rw [FanIn.run_cons, hrun]
      rfl
    · show (_ :: (pushAll meanwhile ⟨queues.drainAll.2, true⟩).1,
        (pushAll meanwhile ⟨queues.drainAll.2, true⟩).2.release) = _
      rw [hpush]
      rfl

theorem run_cons (s : Step α) (steps : List (Step α)) (f : Flusher α) :
    run (s :: steps) f =
      ((f.step s).1 ++ (run steps (f.step s).2).1, (run steps (f.step s).2).2) := rfl

theorem run_append (steps more : List (Step α)) (f : Flusher α) :
    run (steps ++ more) f =
      ((run steps f).1 ++ (run more (run steps f).2).1, (run more (run steps f).2).2) := by
  induction steps generalizing f with
  | nil => rfl
  | cons s steps ih => rw [List.cons_append, run_cons, run_cons, ih, List.append_assoc]

/-- **A run of a flusher is what it does to the queues.** -/
theorem run_tells (steps : List (Step α)) (queues : FanIn ClientTag α) :
    ∃ history log after, FanIn.run (steps.flatMap Step.onQueues) queues = (history, after) ∧
      run steps ⟨queues, false⟩ = (log, ⟨after, false⟩) ∧ Log.Tells history log := by
  induction steps generalizing queues with
  | nil => exact ⟨[], [], queues, rfl, rfl, .nil⟩
  | cons s steps ih =>
    obtain ⟨history₁, log₁, middle, hrun₁, hstep, htells₁⟩ := step_tells s queues
    obtain ⟨history₂, log₂, after, hrun₂, hrest, htells₂⟩ := ih middle
    refine ⟨history₁ ++ history₂, log₁ ++ log₂, after, ?_, ?_, List.rel_append htells₁ htells₂⟩
    · rw [List.flatMap_cons, FanIn.run_append, hrun₁, hrun₂]
    · rw [run_cons, hstep, hrest]

/-! ## Passes -/

/-- A pass that nobody pushes into is `synchronize`. -/
theorem pass_nil (recorder : Recorder) (f : Flusher α) :
    f.pass recorder [] =
      ([.passed recorder (f.synchronize recorder).1 (f.synchronize recorder).2.1],
        (f.synchronize recorder).2.2) := by
  unfold pass synchronize
  cases f.begin? with
  | none => rfl
  | some p => rfl

/-- **What a pass does** when these records are pending: one upload for each tag that has some, of all of
them; and a report of the uploads. -/
structure Pass (carries : List α → UploadBody → Prop) (pending : ClientTag → List α)
    (recorder : Recorder) (report : FlushReport) (uploads : List Upload) : Prop where
  nodup : (uploads.map (·.tag)).Nodup
  of_mem : ∀ u ∈ uploads, pending u.tag ≠ [] ∧ u.Of carries u.tag (pending u.tag)
  exists_mem : ∀ tag, pending tag ≠ [] → ∃ u ∈ uploads, u.tag = tag
  tags_eq : report.tags = uploads.length
  items_eq : report.items = total (·.items) uploads
  nodup_failures : (report.failures.map (·.tag)).Nodup
  mem_failures_iff : ∀ failure, failure ∈ report.failures ↔
    ∃ u ∈ uploads, recorder u = .error failure.failure ∧
      failure.tag = u.tag ∧ failure.items = u.items

/-- The upload that is made of records is of them, if what they become carries them. -/
theorem upload_of {carries : List α → UploadBody → Prop}
    (hcarries : ∀ items, carries items (Uploadable.body items)) (tag : ClientTag) (items : List α) :
    (upload (tag, items)).Of carries tag items :=
  ⟨rfl, rfl, hcarries items⟩

/-- A pass uploads what is held under the tags. -/
theorem pass_of_wellFormed {carries : List α → UploadBody → Prop}
    (hcarries : ∀ items, carries items (Uploadable.body items)) {queues : FanIn ClientTag α}
    (h : queues.WellFormed) (recorder : Recorder) :
    Pass carries queues.held recorder
      (.ofUploads recorder (queues.drainAll.1.map upload)) (queues.drainAll.1.map upload) := by
  have hnodup : ((queues.drainAll.1.map upload).map (·.tag)).Nodup := by
    rw [List.map_map]
    exact h.nodup_drainAll
  refine ⟨hnodup, ?_, ?_, rfl, rfl, hnodup.sublist (FlushReport.map_tag_failures_sublist _ _), ?_⟩
  · intro u hu
    obtain ⟨⟨tag, items⟩, hmem, rfl⟩ := List.mem_map.mp hu
    obtain ⟨rfl, hne⟩ := h.mem_drainAll.mp hmem
    exact ⟨hne, upload_of hcarries tag _⟩
  · intro tag hne
    exact ⟨_, List.mem_map_of_mem (h.mem_drainAll.mpr ⟨rfl, hne⟩), rfl⟩
  · intro failure
    exact FlushReport.mem_failures recorder _

/-! ## Other recorders -/

omit [Uploadable α] in
/-- Pushes do not ask a recorder. -/
theorem map_withRecorder_pushAll (recorder : Recorder) (pushes : List (ClientTag × List α))
    (f : Flusher α) :
    (f.pushAll pushes).1.map (Entry.withRecorder recorder) = (f.pushAll pushes).1 := by
  induction pushes generalizing f with
  | nil => rfl
  | cons p rest ih =>
    obtain ⟨tag, items⟩ := p
    show Entry.withRecorder recorder (f.push tag items).1 ::
      (pushAll rest (f.push tag items).2).1.map _ = _
    rw [ih]
    rfl

theorem step_withRecorder (recorder : Recorder) (s : Step α) (f : Flusher α) :
    f.step (s.withRecorder recorder) =
      ((f.step s).1.map (Entry.withRecorder recorder), (f.step s).2) := by
  cases s with
  | push tag items => rfl
  | pass other meanwhile =>
    show f.pass recorder meanwhile = ((f.pass other meanwhile).1.map _, (f.pass other meanwhile).2)
    unfold pass
    cases f.begin? with
    | none =>
      show (_ :: (f.pushAll meanwhile).1, _) = (_ :: (f.pushAll meanwhile).1.map _, _)
      rw [map_withRecorder_pushAll]
      rfl
    | some p =>
      obtain ⟨uploads, f⟩ := p
      show (_ :: (f.pushAll meanwhile).1, _) = (_ :: (f.pushAll meanwhile).1.map _, _)
      rw [map_withRecorder_pushAll]
      rfl

/-- **With another recorder the log differs in how the uploads went**, and nothing else differs. -/
theorem run_withRecorder (recorder : Recorder) (steps : List (Step α)) (f : Flusher α) :
    run (steps.map (Step.withRecorder recorder)) f =
      ((run steps f).1.map (Entry.withRecorder recorder), (run steps f).2) := by
  induction steps generalizing f with
  | nil => rfl
  | cons s steps ih =>
    rw [List.map_cons, run_cons, run_cons, step_withRecorder, ih, List.map_append]

/-! ## Whole runs -/

/-- **Every accepted record is handed to the recorder once**, in a run from empty queues. -/
structure Delivery (carries : List α → UploadBody → Prop) (size : UInt64) (steps : List (Step α)) :
    Prop where
  /-- Each pass is completed, and uploads what was accepted since the last one. -/
  passes : ∀ before recorder meanwhile after, steps = before ++ .pass recorder meanwhile :: after →
    ∃ report uploads rest,
      (run steps (new size)).1 =
        (run before (new size)).1 ++ .passed recorder (.completed report) uploads :: rest ∧
      Pass carries (fun tag => (run before (new size)).1.pending tag) recorder report uploads
  /-- A pass that nobody pushes into is `synchronize`, and leaves nothing. -/
  cleared : ∀ before recorder, steps = before ++ [.pass recorder []] →
    let (outcome, uploads, after) := (run before (new size)).2.synchronize recorder
    run steps (new size) =
        ((run before (new size)).1 ++ [.passed recorder outcome uploads], after) ∧
      after.queues.isEmpty = true ∧ after.queues.tagCount = 0
  /-- The uploads of a tag are of consecutive pieces of what was accepted under it. What comes after the
  last piece is still queued. -/
  once : ∀ tag, ∃ batches : List (List α),
    List.Forall₂ (Upload.Of carries tag) batches ((run steps (new size)).1.calls tag) ∧
    (run steps (new size)).1.accepted tag =
      batches.flatten ++ (run steps (new size)).2.queues.held tag
  /-- Had the uploads gone otherwise, the same would have been accepted and uploaded. -/
  recorders : ∀ recorder, run (steps.map (Step.withRecorder recorder)) (new size) =
    ((run steps (new size)).1.map (Entry.withRecorder recorder), (run steps (new size)).2)

/-- New queues are well formed and hold nothing. So a flusher holds what is pending, and what was handed
out and what it holds is what was accepted. -/
theorem run_new (size : UInt64) (steps : List (Step α)) :
    ∃ history log queues, run steps (new size) = (log, ⟨queues, false⟩) ∧
      Log.Tells history log ∧ queues.WellFormed ∧
      (queues.held = fun tag => log.pending tag) ∧
      ∀ tag, log.accepted tag = (history.handed tag).flatten ++ queues.held tag := by
  have hnew : (FanIn.new size : FanIn ClientTag α).WellFormed :=
    FanIn.wellFormed_of_queues_eq_nil rfl
  obtain ⟨history, log, queues, hqueues, hrun, htells⟩ := run_tells steps (.new size)
  have hwell := hnew.run (steps.flatMap Step.onQueues)
  have hheld := hnew.held_run (steps.flatMap Step.onQueues)
  have honce := hnew.held_append_accepted (steps.flatMap Step.onQueues)
  rw [hqueues] at hwell hheld honce
  refine ⟨history, log, queues, hrun, htells, hwell, ?_, ?_⟩
  · funext tag
    rw [hheld tag, FanIn.held_new, htells.pending_eq]
  · intro tag
    rw [htells.accepted_eq, ← honce tag, FanIn.held_new]
    rfl

theorem delivery {carries : List α → UploadBody → Prop}
    (hcarries : ∀ items, carries items (Uploadable.body items)) (size : UInt64)
    (steps : List (Step α)) : Delivery carries size steps where
  passes := by
    rintro before recorder meanwhile after rfl
    obtain ⟨history, log, queues, hbefore, -, hwell, hheld, -⟩ := run_new size before
    have hpass := pass_of_wellFormed hcarries hwell recorder
    rw [hheld] at hpass
    rw [run_append, hbefore, run_cons]
    exact ⟨_, _, _, rfl, hpass⟩
  cleared := by
    rintro before recorder rfl
    obtain ⟨history, log, queues, hbefore, -⟩ := run_new size before
    have hpass := pass_nil recorder (⟨queues, false⟩ : Flusher α)
    rw [run_append, hbefore]
    refine ⟨?_, rfl, rfl⟩
    show (log ++ ((pass recorder [] ⟨queues, false⟩).1 ++ []),
      (pass recorder [] ⟨queues, false⟩).2) = _
    rw [hpass, List.append_nil]
    rfl
  once := by
    intro tag
    obtain ⟨history, log, queues, hrun, htells, -, -, honce⟩ := run_new size steps
    rw [hrun]
    refine ⟨history.handed tag, ?_, honce tag⟩
    rw [htells.calls_eq tag, List.forall₂_map_right_iff, List.forall₂_same]
    exact fun items _ => upload_of hcarries tag items
  recorders := by
    intro recorder
    exact run_withRecorder recorder steps _

/-- **Impressions are delivered in groups by feature and events one for one**, each record once, whatever
becomes of the uploads. -/
theorem delivered_once (size : UInt64) :
    (∀ steps : List (Step Impression), Delivery UploadBody.CarriesImpressions size steps) ∧
      ∀ steps : List (Step Event), Delivery UploadBody.CarriesEvents size steps :=
  ⟨delivery UploadBody.carriesImpressions_ofImpressions size,
    delivery UploadBody.carriesEvents_ofEvents size⟩

/-- The first upload fails and is not made again; what comes while it is made is in the second. -/
example :
    let tag : ClientTag := ⟨"shop", "sdk-1"⟩
    let event (key : String) : Event := ⟨key, "visitor", "click", none, none, 0⟩
    let failing : Recorder := fun u => .error ⟨u.body.kind, u.tag, "status 500"⟩
    let steps : List (Step Event) :=
      [.push tag [event "ada", event "bob"], .pass failing [(tag, [event "cem"])],
        .pass (fun _ => .ok ()) []]
    let record (key : String) : EventRecord := ⟨key, "visitor", "click", none, 0, none⟩
    (run steps (new 2)).1.calls tag =
      [⟨tag, 2, .events [record "ada", record "bob"]⟩, ⟨tag, 1, .events [record "cem"]⟩] := by
  decide

end Flusher

end FlagSidecar
