import FlagSidecar.Flush.Log
import FlagSidecar.Queue.Threads

/-!
# FlagSidecar.Flush.Calls: calls for passes that are made at once

Any number of calls may ask for a pass over the same flusher. A call sets the mark that a pass is in
flight, or finds it set and is skipped. One that has set it takes everything that is queued, hands each
batch to its recorder, and is completed when all are answered. Whatever way it ends, also when it is cut
off, the mark is taken back.

What a call does at once is one step. Between two of its steps producers push and other calls take theirs,
so a schedule is a list that says what happens next. A step that its call cannot take now does nothing.
Taking what is queued is one step, because it takes effect at one moment however the pushes are cut into
steps of their own.
-/

namespace FlagSidecar.Flusher

/-- How far the upload of a batch has come. -/
inductive Stage where
  | waiting
  /-- The recorder has it. -/
  | handed
  | answered
deriving DecidableEq

/-- What a call took under a tag. -/
structure Batch (α : Type) where
  tag : ClientTag
  items : List α
  stage : Stage

namespace Batch

variable {α : Type}

def ofDrained (drained : ClientTag × List α) : Batch α := ⟨drained.1, drained.2, .waiting⟩

def content (b : Batch α) : ClientTag × List α := (b.tag, b.items)

end Batch

/-- Where a call is. -/
inductive Phase (α : Type) where
  /-- It has not begun. -/
  | idle
  /-- It has set the mark and taken nothing yet. -/
  | acquired
  | uploading (batches : List (Batch α))
  /-- It has this report, or was cut off, and has still to take back the mark. -/
  | leaving (report : Option FlushReport)
  /-- It has come to this outcome, or was cut off. -/
  | ended (outcome : Option FlushOutcome)

/-- It has set the mark and not taken it back. -/
def Phase.inFlight {α : Type} : Phase α → Bool
  | idle => false
  | acquired => true
  | uploading _ => true
  | leaving _ => true
  | ended _ => false

/-- A step of a call. -/
inductive Act where
  /-- Sets the mark, or finds it set. -/
  | acquire
  /-- Takes everything that is queued. -/
  | drain
  /-- Hands the batch with this index to the recorder. -/
  | hand (index : Nat)
  /-- The recorder answers for the batch with this index. -/
  | answer (index : Nat)
  /-- All uploads are answered. -/
  | finish
  /-- The call is cut off. -/
  | cancel
  /-- Takes back the mark. -/
  | release

/-- What a call does to the queues and with the recorder. -/
inductive Deed (α : Type) where
  | drained (contents : List (ClientTag × List α))
  | handed (batch : ClientTag × List α)

variable {ι α : Type} [DecidableEq ι] [Uploadable α]

/-- A step of a call whose uploads `recorder` answers, or `none` if the call cannot take it now. -/
def Phase.act? (recorder : Recorder) (f : Flusher α) :
    Act → Phase α → Option (Option (Deed α) × Phase α × Flusher α)
  | .acquire, .idle =>
    if f.running then some (none, .ended (some .skipped), f)
    else some (none, .acquired, { f with running := true })
  | .drain, .acquired =>
    let (contents, queues) := f.queues.drainAll
    some (some (.drained contents), .uploading (contents.map .ofDrained), { f with queues })
  | .hand index, .uploading batches =>
    match batches[index]? with
    | some ⟨tag, items, .waiting⟩ =>
      some (some (.handed (tag, items)), .uploading (batches.set index ⟨tag, items, .handed⟩), f)
    | _ => none
  | .answer index, .uploading batches =>
    match batches[index]? with
    | some ⟨tag, items, .handed⟩ =>
      some (none, .uploading (batches.set index ⟨tag, items, .answered⟩), f)
    | _ => none
  | .finish, .uploading batches =>
    if batches.all (·.stage = .answered) then
      some (none, .leaving (some (.ofUploads recorder (batches.map fun b => upload b.content))), f)
    else none
  | .cancel, .acquired => some (none, .leaving none, f)
  | .cancel, .uploading _ => some (none, .leaving none, f)
  | .release, .leaving report => some (none, .ended (report.map .completed), f.release)
  | _, _ => none

/-- Calls by their ids, and the flusher that they share. -/
structure Calls (ι α : Type) where
  flusher : Flusher α
  phase : ι → Phase α

/-- What happens next. -/
inductive Move (ι α : Type) where
  | push (tag : ClientTag) (items : List α)
  | call (id : ι) (act : Act)

/-- What has come of it. -/
inductive Occurrence (ι α : Type) where
  /-- These records of a batch were accepted under the tag. -/
  | accepted (tag : ClientTag) (items : List α)
  | deed (id : ι) (deed : Deed α)

namespace Calls

/-- Calls over new queues that have not begun. -/
def start (size : UInt64) : Calls ι α := ⟨.new size, fun _ => .idle⟩

def withPhase (s : Calls ι α) (id : ι) (phase : Phase α) : Calls ι α :=
  { s with phase := fun other => if other = id then phase else s.phase other }

/-- Each call has a recorder of its own, so that any upload may fail or not. -/
def step (recorder : ι → Recorder) (s : Calls ι α) : Move ι α → List (Occurrence ι α) × Calls ι α
  | .push tag items =>
    let (result, queues) := s.flusher.queues.push tag items
    ([.accepted tag (items.take result.moved)], { s with flusher := { s.flusher with queues } })
  | .call id act =>
    match (s.phase id).act? (recorder id) s.flusher act with
    | none => ([], s)
    | some (deed, phase, flusher) =>
      (deed.toList.map (.deed id), { s with flusher }.withPhase id phase)

/-- Takes steps as a schedule says; gives what has come of them, in order. -/
def run (recorder : ι → Recorder) : List (Move ι α) → Calls ι α → List (Occurrence ι α) × Calls ι α
  | [], s => ([], s)
  | move :: schedule, s =>
    let (events, s) := s.step recorder move
    let (rest, s) := run recorder schedule s
    (events ++ rest, s)

/-- Hands over so many batches from an index on, each answered before the next. -/
def uploadEach (id : ι) : (first count : Nat) → List (Move ι α)
  | _, 0 => []
  | first, count + 1 =>
    .call id (.hand first) :: .call id (.answer first) :: uploadEach id (first + 1) count

/-- The steps of a call that nothing interrupts, if it takes so many batches. -/
def whole (id : ι) (batches : Nat) : List (Move ι α) :=
  .call id .acquire :: .call id .drain :: uploadEach id 0 batches ++
    [.call id .finish, .call id .release]

end Calls

namespace Occurrence

/-- What the history of the queues says of an event. -/
def ofQueues? : Occurrence ι α → Option (FanIn.Entry ClientTag α)
  | .accepted tag items => some (.accepted tag items)
  | .deed _ (.drained contents) => some (.drained contents)
  | .deed _ (.handed _) => none

/-- What a call did. -/
def deedOf? (id : ι) : Occurrence ι α → Option (Deed α)
  | .accepted _ _ => none
  | .deed other done => if other = id then some done else none

end Occurrence

/-- What a call took, if this is what it did. -/
def Deed.drained? {α : Type} : Deed α → Option (List (ClientTag × List α))
  | drained contents => some contents
  | handed _ => none

/-- The batch that a call handed to the recorder, if this is what it did. -/
def Deed.handed? {α : Type} : Deed α → Option (ClientTag × List α)
  | drained _ => none
  | handed batch => some batch

section Events

variable (events : List (Occurrence ι α))

/-- What the queues went through. -/
def history : FanIn.History ClientTag α := events.filterMap Occurrence.ofQueues?

/-- What a call took, each time that it did. -/
def drainsOf (id : ι) : List (List (ClientTag × List α)) :=
  (events.filterMap (Occurrence.deedOf? id)).filterMap Deed.drained?

/-- The batches that a call handed to the recorder. -/
def handedBy (id : ι) : List (ClientTag × List α) :=
  (events.filterMap (Occurrence.deedOf? id)).filterMap Deed.handed?

end Events

end FlagSidecar.Flusher
