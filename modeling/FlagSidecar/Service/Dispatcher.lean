import FlagSidecar.Service.Connection

/-!
# FlagSidecar.Service.Dispatcher: connections that share their queues

A dispatcher serves any number of connections with one evaluator and one pair of queues. The connections
take their turns in any order, and between the turns whoever uploads the records detaches the queues.

A turn offers something to the queues once at most, and nothing else in it touches what is shared. So
the turns of connections that are served at the same time can be told one after the other, in the order
of their offers.
-/

namespace FlagSidecar

/-- Detaches the queues of one kind of record. -/
def Records.drain (r : Records) : RecordKind → Records
  | .impressions => { r with impressions := r.impressions.drainAll.2 }
  | .events => { r with events := r.events.drainAll.2 }

/-- Connections by their ids, and the queues that they share. -/
structure Dispatcher (ι σ : Type) where
  connections : ι → Connection σ
  records : Records

namespace Dispatcher

/-- What happens at a dispatcher. -/
inductive Step (ι : Type) where
  /-- A connection has a turn, at this reading of the clock. -/
  | turn (id : ι) (now : Int64)
  | drain (kind : RecordKind)

variable {ι σ : Type} [DecidableEq ι]

/-- One step. A connection that has ended takes no turn. -/
def step (wire : Wire σ) (evaluator : Evaluator) (d : Dispatcher ι σ) : Step ι → Dispatcher ι σ
  | .turn id now =>
    let t := (d.connections id).serve wire evaluator [now] d.records
    { connections := fun other => if other = id then t.connection else d.connections other
      records := t.records }
  | .drain kind => { d with records := d.records.drain kind }

/-- Takes steps one after the other. -/
def run (wire : Wire σ) (evaluator : Evaluator) : List (Step ι) → Dispatcher ι σ → Dispatcher ι σ
  | [], d => d
  | s :: steps, d => run wire evaluator steps (d.step wire evaluator s)

/-- The readings of the clock at which a connection has its turns. -/
def readings (id : ι) : List (Step ι) → List Int64
  | [] => []
  | .turn other now :: steps => if other = id then now :: readings id steps else readings id steps
  | .drain _ :: steps => readings id steps

end Dispatcher

end FlagSidecar
