import FlagSidecar.Flush.Pass
import FlagSidecar.Time.Span

/-!
# FlagSidecar.Flush.Schedule: passes in the course of time

Passes are begun from outside, in the background, and periodically. A periodic task makes a pass at
every tick until shutdown is initiated, and then one more. It is not disturbed by its own passes: ticks
that came while one was in flight are made up for by a single tick, and the next one is counted from
there. A pass that is in flight at shutdown is completed before the last one begins.

Uploads can be held up by a gate. A pass that begins while the gate is shut is in flight until it is
let through.
-/

namespace FlagSidecar

/-- The outcome of a pass in the background, as far as it is known. -/
inductive Background where
  | absent
  | pending
  | done (outcome : FlushOutcome)
  | aborted
deriving DecidableEq

/-- What a periodic task is at. -/
inductive PeriodicPhase where
  /-- It waits for its next tick, or for shutdown. -/
  | waiting
  /-- The pass of a tick is in flight. -/
  | passing
  /-- The last pass is in flight. -/
  | closing
  | ended (outcome : FlushOutcome)
deriving DecidableEq

/-- A periodic task. -/
structure Periodic where
  period : Span
  nextTick : Span
  phase : PeriodicPhase
deriving DecidableEq

namespace Periodic

/-- How late a tick may be before it counts as missed. -/
def tolerance : Span := .ofMillis 5

/-- The tick after the one that has come: a period later, counted from now if this one was missed. -/
def afterTick (p : Periodic) (now : Span) : Periodic :=
  let missed := p.nextTick.nanos + tolerance.nanos < now.nanos
  { p with nextTick := if missed then now.add p.period else p.nextTick.add p.period }

end Periodic

/-- Who began the pass that is in flight. -/
inductive Starter where
  | background
  | periodic
  /-- A task in the background that nobody asks about any more. -/
  | forgotten
deriving DecidableEq

/-- A flusher, its tasks and their clock. -/
structure Schedule (α : Type) where
  flusher : Flusher α
  recorder : Recorder
  clock : Span := ⟨0⟩
  gated : Bool := false
  stopped : Bool := false
  /-- The pass that is held up, and its uploads. -/
  inFlight : Option (Starter × List Upload) := none
  background : Background := .absent
  periodic : Option Periodic := none
  /-- All uploads that were begun. -/
  made : List Upload := []

namespace Schedule

variable {α : Type} [Uploadable α]

/-- Notes the outcome of a pass with the task that began it. -/
def settleTask (starter : Starter) (outcome : FlushOutcome) (s : Schedule α) : Schedule α :=
  match starter with
  | .background => { s with background := .done outcome }
  | .forgotten => s
  | .periodic =>
    { s with
      periodic := s.periodic.map fun p =>
        { p with
          phase := match p.phase with
            | .closing => .ended outcome
            | .ended outcome => .ended outcome
            | _ => .waiting } }

/-- Begins a pass. It is over at once unless its uploads are held up. -/
def beginPass (starter : Starter) (s : Schedule α) : Schedule α :=
  match s.flusher.begin? with
  | none => s.settleTask starter .skipped
  | some (uploads, flusher) =>
    let s := { s with flusher, made := s.made ++ uploads }
    if s.gated ∧ ¬ uploads.isEmpty then { s with inFlight := some (starter, uploads) }
    else
      { s with flusher := s.flusher.release }.settleTask starter
        (.completed (.ofUploads s.recorder uploads))

/-- Completes the pass that is held up. -/
def completePass (s : Schedule α) : Schedule α :=
  match s.inFlight with
  | none => s
  | some (starter, uploads) =>
    { s with inFlight := none, flusher := s.flusher.release }.settleTask starter
      (.completed (.ofUploads s.recorder uploads))

/-- One step of the periodic task, if it can make one now. Shutdown comes before a tick. -/
def periodicStep? (s : Schedule α) : Option (Schedule α) :=
  match s.periodic with
  | none => none
  | some p =>
    if p.phase ≠ .waiting then none
    else if s.stopped then
      some ({ s with periodic := some { p with phase := .closing } }.beginPass .periodic)
    else if p.nextTick.nanos ≤ s.clock.nanos then
      let p := p.afterTick s.clock
      some ({ s with periodic := some { p with phase := .passing } }.beginPass .periodic)
    else none

/-- Lets the periodic task go on until it waits, for so many steps at most. -/
def run : (steps : Nat) → Schedule α → Schedule α
  | 0, s => s
  | steps + 1, s =>
    match s.periodicStep? with
    | none => s
    | some s => run steps s

/-- A tick that is due brings the next one into the future, so few steps are due at one moment. -/
def settle (s : Schedule α) : Schedule α := s.run 4

/-- Offers records. -/
def push (s : Schedule α) (tag : ClientTag) (items : List α) : QueueResult × Schedule α :=
  let (result, queues) := s.flusher.queues.push tag items
  (result, { s with flusher := { s.flusher with queues } })

/-- A pass made from outside, which is not held up. -/
def synchronize (s : Schedule α) : FlushOutcome × Schedule α :=
  let (outcome, uploads, flusher) := s.flusher.synchronize s.recorder
  (outcome, { s with flusher, made := s.made ++ uploads })

/-- Begins a pass in the background. -/
def start (s : Schedule α) : Schedule α :=
  let inFlight := s.inFlight.map fun (starter, uploads) =>
    (if starter = .background then Starter.forgotten else starter, uploads)
  { s with inFlight, background := .pending }.beginPass .background

/-- Lets through what the gate holds up now. -/
def letThrough (s : Schedule α) : Schedule α := s.completePass.settle

/-- Cuts off the pass in the background. What it has taken from the queues is lost. -/
def abort (s : Schedule α) : Schedule α :=
  if s.background ≠ .pending then s
  else
    match s.inFlight with
    | some (.background, _) =>
      { s with background := .aborted, inFlight := none, flusher := s.flusher.release }.settle
    | _ => { s with background := .aborted }

/-- Begins a periodic task, whose first tick is a period away. -/
def startPeriodic (s : Schedule α) (period : Span) : Schedule α :=
  { s with periodic := some ⟨period, s.clock.add period, .waiting⟩ }.settle

/-- Initiates shutdown. -/
def stop (s : Schedule α) : Schedule α := { s with stopped := true }.settle

/-- Moves the clock on, tick by tick; so many ticks at most. -/
def advanceTo (time : Span) : (ticks : Nat) → Schedule α → Schedule α
  | 0, s => { s with clock := time }.settle
  | ticks + 1, s =>
    match s.periodic with
    | some ⟨_, nextTick, .waiting⟩ =>
      if nextTick.nanos ≤ time.nanos then
        advanceTo time ticks { s with clock := ⟨max s.clock.nanos nextTick.nanos⟩ }.settle
      else { s with clock := time }
    | _ => { s with clock := time }

/-- Moves the clock on by a span. Ticks are a period apart, which bounds their number. -/
def advance (s : Schedule α) (span : Span) : Schedule α :=
  let time := s.clock.add span
  let ticks := match s.periodic with
    | some p => span.nanos / max 1 p.period.nanos + 2
    | none => 0
  s.advanceTo time ticks

/-! ## Waiting for tasks -/

/-- Waits for the pass in the background, which then is asked about no more. One that is still pending
after so long has been waited for in vain. -/
def join (patience : Span) (s : Schedule α) : Background × Schedule α :=
  let waited := { s with background := .absent }
  (s.background, if s.background = .pending then waited.advance patience else waited)

/-- What the periodic task has come to. -/
def periodicOutcome (s : Schedule α) : Background :=
  match s.periodic with
  | none => .absent
  | some ⟨_, _, .ended outcome⟩ => .done outcome
  | some _ => .pending

/-- Initiates shutdown and waits for the periodic task; one that is still pending after so long has been
waited for in vain. -/
def stopAndJoin (patience : Span) (s : Schedule α) : Background × Schedule α :=
  let s := s.stop
  match s.periodicOutcome with
  | .done outcome => (.done outcome, { s with periodic := none })
  | outcome => (outcome, if outcome = .pending then s.advance patience else s)

end Schedule

end FlagSidecar
