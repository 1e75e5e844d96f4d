import FlagSidecar.Schedule
import FlagSidecar.Shutdown.Coordinator

/-!
# FlagSidecar.Shutdown.Calls: many initiate shutdown and many wait for it

Any number of calls may initiate shutdown, while any number of listeners subscribe and wait. A call claims
the flag, and if it was the first it sends its reason after that, as a step of its own. A listener that
has subscribed looks at the flag at some later time, and if it was clear it looks for a reason, later
still and as often as it takes.

A schedule is a list that says whose step is next. A step that cannot be taken now does nothing: a
listener that looks for a reason where there is none goes on waiting.
-/

namespace FlagSidecar.Coordinator

/-- How far a call is that initiates shutdown. -/
inductive Attempt where
  | idle
  /-- It was the first to claim the flag, and has still to send its reason. -/
  | claimed
  /-- It has returned: was it the first? -/
  | returned (first : Bool)
deriving DecidableEq

/-- Calls by their ids, and the coordinator that they share with the listeners. -/
structure Calls (ι : Type) where
  coordinator : Coordinator
  attempt : ι → Attempt

/-- What happens next. -/
inductive Move (ι : Type) where
  | subscribe
  /-- A call tries to claim the flag. -/
  | claim (id : ι)
  /-- A call sends its reason. -/
  | send (id : ι)
  /-- The listener with this index looks at the flag. -/
  | check (listener : Nat)
  /-- The listener with this index looks for a reason. -/
  | receive (listener : Nat)

/-- The listeners that subscribe when the moves of a schedule are made. -/
def subscribed {ι : Type} (schedule : List (Move ι)) : Nat :=
  schedule.countP fun
    | .subscribe => true
    | _ => false

/-- What calls do that others notice. -/
inductive Occurrence (ι : Type) where
  | claimed (id : ι)
  | sent (id : ι) (reason : ShutdownReason)
deriving DecidableEq

variable {ι : Type} [DecidableEq ι]

namespace Calls

/-- No listener yet, and calls that have not begun. -/
def start : Calls ι := ⟨{}, fun _ => .idle⟩

def withAttempt (s : Calls ι) (id : ι) (attempt : Attempt) : Calls ι :=
  { s with attempt := fun other => if other = id then attempt else s.attempt other }

/-- One step. Each call has a reason of its own. -/
def step (reason : ι → ShutdownReason) (s : Calls ι) : Move ι → List (Occurrence ι) × Calls ι
  | .subscribe => ([], { s with coordinator := s.coordinator.subscribe })
  | .claim id =>
    match s.attempt id with
    | .idle =>
      let (first, coordinator) := s.coordinator.claim
      if first then ([.claimed id], { s with coordinator }.withAttempt id .claimed)
      else ([], { s with coordinator }.withAttempt id (.returned false))
    | _ => ([], s)
  | .send id =>
    match s.attempt id with
    | .claimed =>
      ([.sent id (reason id)],
        { s with coordinator := s.coordinator.broadcast (reason id) }.withAttempt id (.returned true))
    | _ => ([], s)
  | .check listener => ([], { s with coordinator := s.coordinator.check listener })
  | .receive listener => ([], { s with coordinator := s.coordinator.receive listener })

/-- Takes steps as a schedule says; gives what others notice of them, in order. -/
def run (reason : ι → ShutdownReason) : List (Move ι) → Calls ι → List (Occurrence ι) × Calls ι :=
  runSteps (step reason)

end Calls

end FlagSidecar.Coordinator
