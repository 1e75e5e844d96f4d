import FlagSidecar.Flush.Loop
import FlagSidecar.Flush.Schedule
import FlagSidecar.Part
import FlagSidecar.Schedule

/-!
# FlagSidecar.Flush.Periodic: passes at the ticks of a timer

The task of `Flusher.Loop` with what decides when it may go on: a clock, a timer, and shutdown. While it
waits it looks at two things, in no particular order: whether shutdown has resolved and whether a tick is
due. It goes by the first of the two that it finds, so where both are there it may go by either. During a
pass it looks at neither.

Time passes, records are pushed and shutdown resolves between any two steps of the task, and each of its
passes has a recorder of its own. A schedule says all of this, step by step. When shutdown resolves is no
step of the task: what it does then it does when it looks.

A timer that cannot be set is a panic, which ends the task before its first pass.
-/

namespace FlagSidecar

/-- A timer, set to its next tick. -/
structure Ticker where
  period : Span
  nextTick : Span
deriving DecidableEq

namespace Ticker

/-- A timer whose first tick is a period away, or a panic. -/
def set? (clock period : Span) : Option Ticker :=
  if (Part.timer clock period).Fits then some ⟨period, clock.add period⟩ else none

def isDue (t : Ticker) (now : Span) : Bool := decide (t.nextTick.nanos ≤ now.nanos)

/-- The timer when its tick has come. -/
def after (t : Ticker) (now : Span) : Ticker :=
  let p := (Periodic.mk t.period t.nextTick .waiting).afterTick now
  ⟨p.period, p.nextTick⟩

end Ticker

namespace Flusher

/-- A task that makes passes, and what it goes by. -/
structure Timed (α : Type) where
  loop : Loop α
  clock : Span
  /-- There is none if it could not be set. -/
  ticker : Option Ticker
  /-- Has shutdown resolved? -/
  resolved : Bool := false

/-- What happens next. -/
inductive TimedStep (α : Type) where
  /-- A batch is appended to the queues. -/
  | append (tag : ClientTag) (items : List α)
  /-- What became of a batch is counted. -/
  | tally (offered : Nat) (result : QueueResult)
  | wait (span : Span)
  /-- Shutdown resolves. -/
  | resolve
  | task (step : LoopStep)

/-- What comes of it. -/
inductive TimedEvent (α : Type) where
  /-- Shutdown has resolved. -/
  | resolved
  /-- The task goes by a tick for this time, at this reading of the clock. -/
  | ticked (time clock : Span)
  /-- The task goes by shutdown. -/
  | stopped
  | began (pass : Nat)
  | loop (event : LoopEvent α)

namespace Timed

variable {α : Type}

/-- A task over new queues, which sets its timer at this reading of the clock. -/
def start (size : UInt64) (clock period : Span) : Timed α :=
  { loop := .start size, clock, ticker := Ticker.set? clock period }

/-- What the task finds when it looks. -/
def finds (s : Timed α) (ticker : Ticker) : LoopStep → Bool
  | .tick => ticker.isDue s.clock
  | .stop => s.resolved
  | _ => true

/-- The beginning of a pass, if the step is one, and what the task goes by. -/
def opening (s : Timed α) (ticker : Ticker) : LoopStep → List (TimedEvent α)
  | .tick => [.ticked ticker.nextTick s.clock, .began s.loop.passes]
  | .stop => [.stopped, .began s.loop.passes]
  | _ => []

/-- The timer after a step of the task. -/
def tickerAfter (s : Timed α) (ticker : Ticker) : LoopStep → Ticker
  | .tick => ticker.after s.clock
  | _ => ticker

/-- A step of the task, if it can take it now. -/
def task? [Uploadable α] (recorder : Nat → Recorder) (s : Timed α) (step : LoopStep) :
    Option (List (TimedEvent α) × Timed α) := do
  let ticker ← s.ticker
  if s.finds ticker step then
    let (events, loop) ← s.loop.step? recorder step
    some (s.opening ticker step ++ events.map .loop,
      { s with loop, ticker := some (s.tickerAfter ticker step) })
  else none

def step [Uploadable α] (recorder : Nat → Recorder) (s : Timed α) :
    TimedStep α → List (TimedEvent α) × Timed α
  | .append tag items =>
    let (_, event, loop) := s.loop.append tag items
    ([.loop event], { s with loop })
  | .tally offered result => ([], { s with loop := s.loop.tally offered result })
  | .wait span => ([], { s with clock := s.clock.add span })
  | .resolve => if s.resolved then ([], s) else ([.resolved], { s with resolved := true })
  | .task step => (s.task? recorder step).getD ([], s)

/-- Takes steps as a schedule says. -/
def run [Uploadable α] (recorder : Nat → Recorder) :
    List (TimedStep α) → Timed α → List (TimedEvent α) × Timed α :=
  runSteps (step recorder)

/-- What the task returns: the report of its last pass, or nothing if that was skipped. -/
def result? (s : Timed α) : Option (Option FlushReport) :=
  match s.loop.stage with
  | .ended (.completed report) => some (some report)
  | .ended .skipped => some none
  | _ => none

end Timed

/-! ## What has come of a run -/

/-- Where a pass begins and where it is over. -/
inductive Bound where
  | began (pass : Nat)
  | over (pass : Nat) (outcome : FlushOutcome)
deriving DecidableEq

namespace TimedEvent

variable {α : Type}

def loop? : TimedEvent α → Option (LoopEvent α)
  | loop event => some event
  | _ => none

def began? : TimedEvent α → Option Nat
  | began pass => some pass
  | _ => none

def ticked? : TimedEvent α → Option Span
  | ticked time _ => some time
  | _ => none

def bound? : TimedEvent α → Option Bound
  | began pass => some (.began pass)
  | loop (.passed pass outcome) => some (.over pass outcome)
  | _ => none

end TimedEvent

section Events

variable {α : Type} (events : List (TimedEvent α))

/-- What happened at the queues and with the recorder. -/
def loopEvents : List (LoopEvent α) := events.filterMap TimedEvent.loop?

/-- Where passes began and were over, in order. -/
def bounds : List Bound := events.filterMap TimedEvent.bound?

/-- The passes that began. -/
def beginnings : List Nat := events.filterMap TimedEvent.began?

/-- The ticks that the task went by, by the times that they were for. -/
def ticksServed : List Span := events.filterMap TimedEvent.ticked?

end Events

end Flusher

end FlagSidecar
