import FlagSidecar.Queue.Calls
import FlagSidecar.Queue.FanIn

/-!
# FlagSidecar.Queue.Offers: a fan-in as its callers see it

A fan-in is called to push a batch under a tag, to hand out what it holds, and to say how much that is.
What it holds can be told from what it was offered, without rings and counters: `OfferLog` keeps the
batches since the last drain, and of what a tag was offered the first items are held, up to a limit.
-/

namespace FlagSidecar

namespace FanIn

/-- A call to a fan-in. -/
inductive Call (κ α : Type) where
  | push (tag : κ) (items : List α)
  | drainAll
  /-- Takes the queues themselves, also those without items. -/
  | detach
  | length
  | isEmpty
  | tagCount
  | stats

/-- What a fan-in answers to a call. -/
inductive Answer (κ α : Type) where
  | pushed (result : QueueResult)
  | drained (contents : List (κ × List α))
  | detached (queues : List (κ × Ring α))
  | length (count : Nat)
  | isEmpty (empty : Bool)
  | tagCount (count : Nat)
  | stats (stats : QueueStats)

variable {κ α : Type} [DecidableEq κ]

def call (f : FanIn κ α) : Call κ α → Answer κ α × FanIn κ α
  | .push tag items =>
    let (result, f) := f.push tag items
    (.pushed result, f)
  | .drainAll =>
    let (contents, f) := f.drainAll
    (.drained contents, f)
  | .detach =>
    let (queues, f) := f.detach
    (.detached queues, f)
  | .length => (.length f.length, f)
  | .isEmpty => (.isEmpty f.isEmpty, f)
  | .tagCount => (.tagCount f.tagCount, f)
  | .stats => (.stats f.stats, f)

/-- How many items a call offers. -/
def Call.offered : Call κ α → Nat
  | push _ items => items.length
  | _ => 0

/-- How many items an answer hands out. -/
def Answer.handed : Answer κ α → Nat
  | drained contents => total (·.2.length) contents
  | detached queues => total (·.2.toList.length) queues
  | _ => 0

end FanIn

/-- The batches offered since the last drain, in their order, and how many items are held of what is
offered under one tag. -/
structure OfferLog (κ α : Type) where
  limit : Nat
  offers : List (κ × List α)

namespace OfferLog

variable {κ α : Type} [DecidableEq κ]

/-- The log after a call. -/
def after (log : OfferLog κ α) : FanIn.Call κ α → OfferLog κ α
  | .push tag items => { log with offers := log.offers ++ [(tag, items)] }
  | .drainAll => { log with offers := [] }
  | .detach => { log with offers := [] }
  | .length => log
  | .isEmpty => log
  | .tagCount => log
  | .stats => log

/-- The items offered under a tag. -/
def offered (log : OfferLog κ α) (tag : κ) : List α :=
  (log.offers.filter (·.1 = tag)).flatMap (·.2)

/-- The first items offered under a tag, as many as the limit allows. -/
def held (log : OfferLog κ α) (tag : κ) : List α := (log.offered tag).take log.limit

/-- How many more items are held under a tag. -/
def room (log : OfferLog κ α) (tag : κ) : Nat := log.limit - (log.held tag).length

/-- The tags with another one, unless it is there. -/
def addTag (tags : List κ) (tag : κ) : List κ := if tag ∈ tags then tags else tags ++ [tag]

/-- The tags under which batches were offered, each once, in the order of their first batches. -/
def tags (log : OfferLog κ α) : List κ := (log.offers.map (·.1)).foldl addTag []

/-- How many items are held under all tags. -/
def length (log : OfferLog κ α) : Nat := total (fun tag => (log.held tag).length) log.tags

end OfferLog

end FlagSidecar
