import FlagSidecar.Flush.Calls
import FlagSidecar.Queue.Offers

/-!
# FlagSidecar.Flush.Loop: passes made again and again until shutdown

A task owns a flusher and waits for its next tick or for shutdown. At a tick it makes a pass and waits
again; when it is told to stop it makes a last one and ends with the outcome of that. Nobody else makes
passes over the flusher, and nobody cuts them off.

Producers push all the while. A push has two steps here: the batch is appended, which takes effect at one
moment however the locks are taken, and what became of it is counted after that.

When ticks come is not decided here, nor whether shutdown or a tick is seen first. `Loop.step?` says what
each step does and when it is possible.
-/

namespace FlagSidecar

namespace FanIn

variable {κ α : Type} [DecidableEq κ]

/-- Appends a batch under a tag. What became of it is still to be counted. -/
def append (f : FanIn κ α) (tag : κ) (items : List α) : QueueResult × FanIn κ α :=
  let (result, queues) := pushTo (.forSize f.queueSize) tag items f.queues
  (result, { f with queues })

omit [DecidableEq κ] in
/-- Counts what became of a batch. -/
def tally (f : FanIn κ α) (offered : Nat) (result : QueueResult) : FanIn κ α :=
  { f with stats := count f.stats offered result }

/-- What of each batch is accepted when calls are made one after the other. -/
def acceptances : List (Call κ α) → FanIn κ α → List (κ × List α)
  | [], _ => []
  | .push tag items :: rest, f =>
    (tag, items.take (f.push tag items).1.moved) :: acceptances rest (f.push tag items).2
  | c :: rest, f => acceptances rest (f.call c).2

/-- A push appends and counts. -/
theorem push_eq_append_tally (f : FanIn κ α) (tag : κ) (items : List α) :
    f.push tag items =
      ((f.append tag items).1, (f.append tag items).2.tally items.length (f.append tag items).1) := rfl

end FanIn

namespace Flusher

/-- Where a task is that makes passes. -/
inductive LoopStage (α : Type) where
  | waiting
  /-- A pass is being made; is it the last one? -/
  | passing (last : Bool) (phase : Phase α)
  | ended (outcome : FlushOutcome)

/-- Has the task been told to stop? -/
def LoopStage.isLast {α : Type} : LoopStage α → Bool
  | waiting => false
  | passing last _ => last
  | ended _ => true

/-- A flusher and the task that makes passes over it. -/
structure Loop (α : Type) where
  flusher : Flusher α
  /-- How many passes are over. -/
  passes : Nat := 0
  stage : LoopStage α := .waiting

/-- A step of the task. -/
inductive LoopStep where
  /-- A tick has come. -/
  | tick
  /-- Shutdown has come. -/
  | stop
  /-- The pass takes a step. -/
  | act (act : Act)
  /-- The pass is over. -/
  | goOn

/-- What comes of pushes and passes. -/
inductive LoopEvent (α : Type) where
  /-- These records of a batch were accepted under the tag. -/
  | accepted (tag : ClientTag) (items : List α)
  /-- The pass with this number did this. -/
  | deed (pass : Nat) (deed : Deed α)
  | passed (pass : Nat) (outcome : FlushOutcome)

namespace Loop

variable {α : Type}

/-- A task over new queues that waits for its first tick. -/
def start (size : UInt64) : Loop α := { flusher := .new size }

/-- A batch is appended. -/
def append (l : Loop α) (tag : ClientTag) (items : List α) : QueueResult × LoopEvent α × Loop α :=
  let (result, queues) := l.flusher.queues.append tag items
  (result, .accepted tag (items.take result.moved), { l with flusher := { l.flusher with queues } })

/-- What became of a batch is counted. -/
def tally (l : Loop α) (offered : Nat) (result : QueueResult) : Loop α :=
  { l with flusher := { l.flusher with queues := l.flusher.queues.tally offered result } }

/-- What a step of the task does; nothing if it is not possible. Each pass has a recorder of its own, so that
any upload may fail or not. -/
def step? [Uploadable α] (recorder : Nat → Recorder) (l : Loop α) :
    LoopStep → Option (List (LoopEvent α) × Loop α)
  | .tick =>
    match l.stage with
    | .waiting => some ([], { l with stage := .passing false .idle })
    | _ => none
  | .stop =>
    match l.stage with
    | .waiting => some ([], { l with stage := .passing true .idle })
    | _ => none
  | .act .cancel => none
  | .act act =>
    match l.stage with
    | .passing last phase =>
      match phase.act? (recorder l.passes) l.flusher act with
      | some (deed, phase, flusher) =>
        some (deed.toList.map (.deed l.passes), { l with flusher, stage := .passing last phase })
      | none => none
    | _ => none
  | .goOn =>
    match l.stage with
    | .passing last (.ended (some outcome)) =>
      some ([.passed l.passes outcome],
        { l with passes := l.passes + 1, stage := if last then .ended outcome else .waiting })
    | _ => none

end Loop

/-! ## What has come of a run -/

namespace LoopEvent

variable {α : Type}

/-- The records accepted under a tag. -/
def accepts (tag : ClientTag) : LoopEvent α → List α
  | accepted t items => if t = tag then items else []
  | _ => []

/-- The records that were accepted, if these were some. -/
def accepted? : LoopEvent α → Option (ClientTag × List α)
  | accepted tag items => some (tag, items)
  | _ => none

/-- The queues were emptied, if this is what a pass did. -/
def drain? : LoopEvent α → Option (FanIn.Call ClientTag α)
  | deed _ (.drained _) => some .drainAll
  | _ => none

/-- The batch that the recorder was given, if this was a call of it. -/
def handed? : LoopEvent α → Option (ClientTag × List α)
  | deed _ d => d.handed?
  | _ => none

end LoopEvent

section Events

variable {α : Type} (events : List (LoopEvent α))

/-- The records accepted under a tag, in the order of their acceptance. -/
def acceptedUnder (tag : ClientTag) : List α := events.flatMap (LoopEvent.accepts tag)

/-- The batches that the recorder was given, one for each call of it. -/
def recorderCalls : List (ClientTag × List α) := events.filterMap LoopEvent.handed?

end Events

end Flusher

end FlagSidecar
