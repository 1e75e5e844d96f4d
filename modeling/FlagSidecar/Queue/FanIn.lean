import FlagSidecar.Queue.Ring
import FlagSidecar.Queue.Stats

/-!
# FlagSidecar.Queue.FanIn: one bounded queue per tag

Producers push batches under a tag; the first batch of a tag creates its queue, even if the batch is
empty. The consumer detaches all queues at once: what is pushed afterwards goes to new queues and is
seen by the next detachment.

Every item offered is counted once, as queued or as dropped.
-/

namespace FlagSidecar

/-- Bounded queues under their tags. -/
structure FanIn (κ α : Type) where
  queueSize : UInt64
  /-- The live queues, in the order of their creation. -/
  queues : List (κ × Ring α)
  stats : QueueStats

namespace FanIn

variable {κ α : Type} [DecidableEq κ]

/-- No queues yet; each will hold `queueSize` items at least. -/
def new (queueSize : UInt64) : FanIn κ α := ⟨queueSize, [], {}⟩

/-- Counts what became of a batch. -/
def count (stats : QueueStats) (offered : Nat) : QueueResult → QueueStats
  | .ok pushed => stats.recordQueued pushed
  | .error (.full pushed) => (stats.recordQueued pushed).recordDropped (offered - pushed)
  | .error (.empty _) => stats

/-- Pushes a batch to the queue of a tag, which is created by `fresh` if there is none. -/
def pushTo (fresh : Ring α) (tag : κ) (items : List α) :
    List (κ × Ring α) → QueueResult × List (κ × Ring α)
  | [] =>
    let (result, ring) := fresh.push items
    (result, [(tag, ring)])
  | (t, ring) :: rest =>
    if t = tag then
      let (result, ring) := ring.push items
      (result, (t, ring) :: rest)
    else
      let (result, rest) := pushTo fresh tag items rest
      (result, (t, ring) :: rest)

/-- Offers a batch under a tag. What does not fit is dropped and counted. -/
def push (f : FanIn κ α) (tag : κ) (items : List α) : QueueResult × FanIn κ α :=
  let (result, queues) := pushTo (.forSize f.queueSize) tag items f.queues
  (result, { f with queues, stats := count f.stats items.length result })

/-- Detaches all queues. -/
def detach (f : FanIn κ α) : List (κ × Ring α) × FanIn κ α := (f.queues, { f with queues := [] })

/-- The items of detached queues; queues without items are left out. -/
def contents (queues : List (κ × Ring α)) : List (κ × List α) :=
  queues.filterMap fun (tag, ring) =>
    let items := ring.toList
    if items.isEmpty then none else some (tag, items)

/-- Detaches all queues and takes their items. -/
def drainAll (f : FanIn κ α) : List (κ × List α) × FanIn κ α :=
  let (queues, f) := f.detach
  (contents queues, f)

/-- How many items are queued. -/
def length (f : FanIn κ α) : Nat := total (fun q => q.2.length) f.queues

def isEmpty (f : FanIn κ α) : Bool := f.length == 0

def tagCount (f : FanIn κ α) : Nat := f.queues.length

/-- The items queued under a tag. -/
def held (f : FanIn κ α) (tag : κ) : List α :=
  match f.queues.find? (·.1 = tag) with
  | some (_, ring) => ring.toList
  | none => []

end FanIn

end FlagSidecar
