import FlagSidecar.Queue.History
import FlagSidecar.Queue.Offers

/-!
# FlagSidecar.Queue.Threads: threads that share a fan-in

The queues of a fan-in are under a lock that readers share and a writer has alone. A push looks for the
queue of its tag as a reader, and appends its batch there before it gives up the lock. If there is no
queue, it gives up the lock and asks for it again as a writer; then it looks once more, makes the queue if
there is still none, and appends. A drain takes all queues as a writer and empties them one by one after
it has given up the lock. What was accepted of a batch, and what was not, is counted after the batch is
appended, by one counter and then by the other.

What a thread does without giving up a lock is one step. Between two steps of a thread the others may take
any number of steps, so a schedule is a list that says whose step is next.
-/

namespace FlagSidecar.FanIn

/-- Where a thread is in a call. -/
inductive Phase (κ α : Type) where
  /-- Between two calls. -/
  | idle
  /-- There was no queue for the tag, and the lock is given up. -/
  | missed (tag : κ) (items : List α)
  /-- So many items were offered with this result, and nothing is counted yet. -/
  | appended (offered : Nat) (result : QueueResult)
  /-- What was accepted is counted, and these items are still to be counted as dropped. -/
  | counting (refused : Nat) (result : QueueResult)
  /-- The queues that this detachment took are being emptied. -/
  | draining (detachment : Nat)

/-- A thread with the calls that it will make and the answers that it has. -/
structure Thread (κ α : Type) where
  calls : List (Step κ α)
  phase : Phase κ α
  answers : List (Answer κ α)

/-- The queues that a drain took and has not emptied yet, and the items of those that it has. -/
structure Detachment (κ α : Type) where
  queues : List (κ × Ring α)
  delivered : List (κ × List α)

/-- What threads share. The detachments are in the order in which they were made; only the thread that
made one works on it. -/
structure Shared (κ α : Type) where
  fanIn : FanIn κ α
  detachments : List (Detachment κ α)

/-- A call of a thread took effect: a batch was appended, or the queues were detached. -/
structure Effect (ι κ α : Type) where
  thread : ι
  step : Step κ α
  answer : Answer κ α

/-- Threads by their ids, and what they share. -/
structure Threads (ι κ α : Type) where
  shared : Shared κ α
  thread : ι → Thread κ α

variable {ι κ α : Type} [DecidableEq ι] [DecidableEq κ]

/-- Pushes a batch to the queue of a tag, if there is one. -/
def pushFound? (tag : κ) (items : List α) :
    List (κ × Ring α) → Option (QueueResult × List (κ × Ring α))
  | [] => none
  | (t, ring) :: rest =>
    if t = tag then
      let (result, ring) := ring.push items
      some (result, (t, ring) :: rest)
    else
      match pushFound? tag items rest with
      | some (result, rest) => some (result, (t, ring) :: rest)
      | none => none

namespace Shared

def withQueues (s : Shared κ α) (queues : List (κ × Ring α)) : Shared κ α :=
  { s with fanIn := { s.fanIn with queues } }

def withStats (s : Shared κ α) (stats : QueueStats) : Shared κ α :=
  { s with fanIn := { s.fanIn with stats } }

end Shared

/-- One step of a thread; also says whether a call took effect, and how it will be answered. -/
def Thread.step (t : Thread κ α) (s : Shared κ α) :
    Option (Step κ α × Answer κ α) × Thread κ α × Shared κ α :=
  match t.phase with
  | .idle =>
    match t.calls with
    | [] => (none, t, s)
    | .push tag items :: rest =>
      match pushFound? tag items s.fanIn.queues with
      | some (result, queues) =>
        (some (.push tag items, .pushed result), ⟨rest, .appended items.length result, t.answers⟩,
          s.withQueues queues)
      | none => (none, ⟨rest, .missed tag items, t.answers⟩, s)
    | .drain :: rest =>
      let (queues, fanIn) := s.fanIn.detach
      (some (.drain, .drained (contents queues)), ⟨rest, .draining s.detachments.length, t.answers⟩,
        ⟨fanIn, s.detachments ++ [⟨queues, []⟩]⟩)
  | .missed tag items =>
    let (result, queues) := pushTo (.forSize s.fanIn.queueSize) tag items s.fanIn.queues
    (some (.push tag items, .pushed result), { t with phase := .appended items.length result },
      s.withQueues queues)
  | .appended offered result =>
    match result with
    | .ok pushed =>
      (none, ⟨t.calls, .idle, t.answers ++ [.pushed result]⟩,
        s.withStats (s.fanIn.stats.recordQueued pushed))
    | .error (.full pushed) =>
      (none, { t with phase := .counting (offered - pushed) result },
        s.withStats (s.fanIn.stats.recordQueued pushed))
    | .error (.empty _) => (none, ⟨t.calls, .idle, t.answers ++ [.pushed result]⟩, s)
  | .counting refused result =>
    (none, ⟨t.calls, .idle, t.answers ++ [.pushed result]⟩,
      s.withStats (s.fanIn.stats.recordDropped refused))
  | .draining detachment =>
    match s.detachments[detachment]? with
    | none => (none, t, s)
    | some ⟨[], delivered⟩ => (none, ⟨t.calls, .idle, t.answers ++ [.drained delivered]⟩, s)
    | some ⟨queue :: rest, delivered⟩ =>
      (none, t, { s with
        detachments := s.detachments.set detachment ⟨rest, delivered ++ contents [queue]⟩ })

namespace Threads

/-- Threads over a new fan-in that have made no call yet. -/
def start (size : UInt64) (calls : ι → List (Step κ α)) : Threads ι κ α where
  shared := ⟨new size, []⟩
  thread id := ⟨calls id, .idle, []⟩

/-- One step of one of the threads. -/
def step (s : Threads ι κ α) (id : ι) : List (Effect ι κ α) × Threads ι κ α :=
  let (effect, t, shared) := (s.thread id).step s.shared
  (effect.toList.map fun (step, answer) => ⟨id, step, answer⟩,
    ⟨shared, fun other => if other = id then t else s.thread other⟩)

/-- Takes steps as a schedule says; gives what took effect, in order. -/
def run : List ι → Threads ι κ α → List (Effect ι κ α) × Threads ι κ α
  | [], s => ([], s)
  | id :: schedule, s =>
    let (effects, s) := s.step id
    let (rest, s) := run schedule s
    (effects ++ rest, s)

end Threads

/-- The call of a thread, as a call to a fan-in. -/
def Step.call : Step κ α → Call κ α
  | push tag items => .push tag items
  | drain => .drainAll

namespace Effect

def isDrain (e : Effect ι κ α) : Bool :=
  match e.step with
  | .push _ _ => false
  | .drain => true

/-- The items that were accepted under a tag. -/
def accepted (tag : κ) (e : Effect ι κ α) : List α :=
  match e.step, e.answer with
  | .push t items, .pushed result => if t = tag then items.take result.moved else []
  | _, _ => []

end Effect

/-- The items under a tag, of all that are under tags. -/
def itemsUnder (tag : κ) (contents : List (κ × List α)) : List α :=
  (contents.filter (·.1 = tag)).flatMap (·.2)

namespace Detachment

/-- All items that a drain took. -/
def contents (d : Detachment κ α) : List (κ × List α) := d.delivered ++ FanIn.contents d.queues

/-- The items under a tag that were delivered, and those that still are in a queue. -/
def itemsOf (tag : κ) (d : Detachment κ α) : List α :=
  itemsUnder tag d.delivered ++ itemsUnder tag (FanIn.contents d.queues)

end Detachment

namespace Thread

/-- The calls that have not taken effect. -/
def due (t : Thread κ α) : List (Step κ α) :=
  match t.phase with
  | .missed tag items => .push tag items :: t.calls
  | _ => t.calls

/-- The answer to a call that has taken effect and is not answered yet. -/
def promised (t : Thread κ α) (s : Shared κ α) : List (Answer κ α) :=
  match t.phase with
  | .appended _ result => [.pushed result]
  | .counting _ result => [.pushed result]
  | .draining detachment => (s.detachments[detachment]?.toList).map fun d => .drained d.contents
  | _ => []

/-- What is still to be counted. -/
def uncounted (t : Thread κ α) : QueueStats :=
  match t.phase with
  | .appended offered result => count {} offered result
  | .counting refused _ => QueueStats.recordDropped {} refused
  | _ => {}

end Thread

/-- Where the items are that were accepted under a tag: with the detachments, in their order, and in the
live queue. -/
def Shared.places (tag : κ) (s : Shared κ α) : List (List α) :=
  s.detachments.map (Detachment.itemsOf tag) ++ [s.fanIn.held tag]

end FlagSidecar.FanIn
