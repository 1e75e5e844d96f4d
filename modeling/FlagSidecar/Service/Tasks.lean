import FlagSidecar.Flush.Loop
import FlagSidecar.Service.Daemon

/-!
# FlagSidecar.Service.Tasks: what the tasks of a daemon do at the same time

A daemon that has taken its path has an acceptor, a task for each connection, a task that makes passes over
the impressions and one that does over the events. When its acceptor has returned it tells both flushers to
stop, waits for the one and then for the other, and reports what was counted.

A turn of a connection has several steps here: a message is received and what it leads to is decided; that
is carried out, where records are appended to their queue; what became of them is counted; and the answer
is sent. The task waits for its peer while it receives and while it answers, and nowhere else, so it is cut
off there only.

A schedule is a list that says what happens next. A step that is not possible does nothing.

Main statement, in the proof modules: nothing that was accepted is left behind.
-/

namespace FlagSidecar

/-- What the task of a connection is doing. -/
inductive Work (σ : Type) where
  /-- It waits for a message, or the connection is over. -/
  | listening (c : Connection σ)
  /-- It knows what a message leads to. -/
  | deciding (c : Connection σ) (action : Action)
  /-- It has appended records, and has still to count what became of them. -/
  | counting (c : Connection σ) (reply : Reply) (kind : RecordKind) (offered : Nat) (result : QueueResult)
  | answering (c : Connection σ) (reply : Reply)

/-- Can a task end in this way now? It can be cut off where it waits for its peer. It can panic there and
where it evaluates. -/
def Work.mayEnd {σ : Type} : Work σ → TaskEnding → Bool
  | listening c, .completed => !c.isOpen
  | listening _, _ => true
  | deciding _ _, .panicked => true
  | answering _ _, .panicked => true
  | answering _ _, .aborted => true
  | _, _ => false

/-- How far a daemon is. -/
inductive DaemonStage where
  | serving
  /-- The acceptor has returned. -/
  | served
  /-- The flushers are told to stop. -/
  | flushing
  /-- The flusher of the impressions has ended. -/
  | flushingEvents
  /-- That of the events has too. -/
  | flushed
  | returned (result : Except DaemonError DaemonReport)

/-- What the tasks of a daemon work with. -/
structure Surroundings (σ : Type) where
  wire : Wire σ
  evaluator : Evaluator
  /-- The sockets of the connections, in the order in which their tasks begin. -/
  socket : Nat → σ
  /-- Each pass over each kind of record has a recorder of its own, so that any upload may fail or not. -/
  recorder : RecordKind → Nat → Recorder

/-- The tasks of a daemon, and what they share. -/
structure DaemonTasks (σ : Type) where
  acceptor : Acceptor
  /-- What the task of each connection is doing, or was when it ended. -/
  work : List (Work σ) := []
  impressions : Flusher.Loop Impression
  events : Flusher.Loop Event
  /-- Tells the acceptor, its first listener. -/
  shutdown : Coordinator
  /-- Tells the flushers, its first and its second listener. -/
  flushStop : Coordinator
  stage : DaemonStage := .serving

/-- What a listener does. -/
inductive Look where
  | check
  | receive

/-- What happens next. -/
inductive DaemonStep where
  /-- Somebody initiates shutdown. -/
  | initiate (reason : ShutdownReason)
  /-- The acceptor looks whether shutdown was initiated. -/
  | acceptorLooks (look : Look)
  /-- The acceptor or a task of it goes on. -/
  | acceptor (step : AcceptorStep)
  /-- The task of a connection receives a message, at this reading of the clock. -/
  | receive (task : Nat) (now : Int64)
  /-- It carries out what the message leads to. -/
  | perform (task : Nat)
  | count (task : Nat)
  | answer (task : Nat)
  /-- A flusher looks whether it is to stop. -/
  | flusherLooks (kind : RecordKind) (look : Look)
  | flush (kind : RecordKind) (step : Flusher.LoopStep)
  /-- The daemon itself goes on. -/
  | goOn

/-- What comes of it. -/
inductive DaemonEvent where
  | acceptor (event : AcceptorEvent)
  /-- A message of a connection leads to this. -/
  | decided (task : Nat) (action : Action)
  | performed (task : Nat) (action : Action)
  | impressions (event : Flusher.LoopEvent Impression)
  | events (event : Flusher.LoopEvent Event)

namespace Coordinator

/-- What one listener does. -/
def look (c : Coordinator) (listener : Nat) : Look → Coordinator
  | .check => c.check listener
  | .receive => c.receive listener

/-- Has this listener resolved? -/
def hasResolved (c : Coordinator) (listener : Nat) : Bool :=
  match c.listeners[listener]? with
  | some l => l.state = .resolved
  | none => false

end Coordinator

/-- Which listener the flusher of a kind of record is. -/
def RecordKind.listener : RecordKind → Nat
  | impressions => 0
  | events => 1

namespace DaemonTasks

variable {σ : Type}

/-- A daemon that serves, and whose tasks have done nothing yet. -/
def start (limit : Nat) (impressionsSize eventsSize : UInt64) : DaemonTasks σ where
  acceptor := { limit }
  impressions := .start impressionsSize
  events := .start eventsSize
  shutdown := Coordinator.subscribe {}
  flushStop := (Coordinator.subscribe {}).subscribe

/-- The queues that connections share. -/
def records (s : DaemonTasks σ) : Records := ⟨s.impressions.flusher.queues, s.events.flusher.queues⟩

/-- What the task of a connection is doing that goes on. -/
def running? (s : DaemonTasks σ) (task : Nat) : Option (Work σ) :=
  if s.acceptor.isRunning task then s.work[task]? else none

def withWork (s : DaemonTasks σ) (task : Nat) (work : Work σ) : DaemonTasks σ :=
  { s with work := s.work.set task work }

/-- May the acceptor, or a task of it, take this step? The acceptor stops when it has been told to, and
handlers end where they can. -/
def permits (s : DaemonTasks σ) : AcceptorStep → Bool
  | .stop => s.shutdown.hasResolved 0
  | .finish task how =>
    match s.work[task]? with
    | some work => work.mayEnd how
    | none => false
  | _ => true

/-- A step of the acceptor, or of a task of it as far as the acceptor is concerned. -/
def stepAcceptor? (env : Surroundings σ) (s : DaemonTasks σ) (step : AcceptorStep) :
    Option (List DaemonEvent × DaemonTasks σ) :=
  if s.permits step then
    match s.acceptor.step? step with
    | none => none
    | some (event, acceptor) =>
      let work := match step with
        | .spawn => s.work ++ [.listening { link := env.socket s.work.length }]
        | _ => s.work
      some (event.toList.map .acceptor, { s with acceptor, work })
  else none

/-- What follows from what was received. -/
def consider (env : Surroundings σ) (now : Int64) (received : Except LinkError Bytes) (c : Connection σ) :
    Option Action × Work σ :=
  match received with
  | .error e => (none, .listening (c.finish env.wire (if e.isEof then .peerClosed else .transportFailure)))
  | .ok octets =>
    match Rpc.read? octets with
    | none => (none, .listening (c.finish env.wire .malformedMessage))
    | some rpc =>
      let plan := c.session.plan env.evaluator now rpc
      (some plan.action, .deciding { c with session := plan.session } plan.action)

/-- Receives a message, and decides what it leads to. -/
def receive (env : Surroundings σ) (now : Int64) (c : Connection σ) : Option Action × Work σ :=
  let (received, link) := env.wire.receive c.link
  consider env now received { c with link }

/-- Carries out an action, but for counting. -/
def perform (s : DaemonTasks σ) (task : Nat) (c : Connection σ) (action : Action) :
    List DaemonEvent × DaemonTasks σ :=
  let reply := (s.records.perform action).1
  match action with
  | .record tag items _ =>
    let (result, event, impressions) := s.impressions.append tag items
    ([.performed task action, .impressions event],
      { s with impressions }.withWork task (.counting c reply .impressions items.length result))
  | .track tag item =>
    let (result, event, events) := s.events.append tag [item]
    ([.performed task action, .events event],
      { s with events }.withWork task (.counting c reply .events 1 result))
  | _ => ([.performed task action], s.withWork task (.answering c reply))

/-- Counts what became of records. -/
def tally (s : DaemonTasks σ) (offered : Nat) (result : QueueResult) : RecordKind → DaemonTasks σ
  | .impressions => { s with impressions := s.impressions.tally offered result }
  | .events => { s with events := s.events.tally offered result }

/-- A step of a flusher. -/
def stepFlusher? (env : Surroundings σ) (s : DaemonTasks σ) (step : Flusher.LoopStep) :
    RecordKind → Option (List DaemonEvent × DaemonTasks σ)
  | .impressions =>
    match s.impressions.step? (env.recorder .impressions) step with
    | none => none
    | some (events, impressions) => some (events.map .impressions, { s with impressions })
  | .events =>
    match s.events.step? (env.recorder .events) step with
    | none => none
    | some (events, loop) => some (events.map .events, { s with events := loop })

/-- What has been counted. -/
def report (s : DaemonTasks σ) : DaemonReport where
  impressions := s.impressions.flusher.queues.stats
  events := s.events.flusher.queues.stats
  accepted := s.acceptor.accepted
  rejected := s.acceptor.rejected

/-- What a daemon returns: what has been counted, or what its acceptor failed with. -/
def outcome (s : DaemonTasks σ) : Except DaemonError DaemonReport :=
  match s.acceptor.phase.result? with
  | some (.error e) => .error (.link e)
  | _ => .ok s.report

/-- What the daemon itself does next, if it need not wait. A listener that has failed is reason for shutdown.
-/
def goOn? (s : DaemonTasks σ) : Option (DaemonTasks σ) :=
  match s.stage with
  | .serving =>
    match s.acceptor.phase with
    | .returned none => some { s with stage := .served }
    | .returned (some _) =>
      some { s with shutdown := (s.shutdown.initiate .acceptorFailed).2, stage := .served }
    | _ => none
  | .served =>
    some { s with flushStop := (s.flushStop.initiate .programmatic).2, stage := .flushing }
  | .flushing =>
    match s.impressions.stage with
    | .ended _ => some { s with stage := .flushingEvents }
    | _ => none
  | .flushingEvents =>
    match s.events.stage with
    | .ended _ => some { s with stage := .flushed }
    | _ => none
  | .flushed => some { s with stage := .returned s.outcome }
  | .returned _ => none

/-- What a step does; nothing if it is not possible. -/
def step? (env : Surroundings σ) (s : DaemonTasks σ) :
    DaemonStep → Option (List DaemonEvent × DaemonTasks σ)
  | .initiate reason => some ([], { s with shutdown := (s.shutdown.initiate reason).2 })
  | .acceptorLooks look => some ([], { s with shutdown := s.shutdown.look 0 look })
  | .acceptor step => s.stepAcceptor? env step
  | .receive task now =>
    match s.running? task with
    | some (.listening c) =>
      if c.isOpen then
        let (action, work) := receive env now c
        some (action.toList.map (.decided task), s.withWork task work)
      else none
    | _ => none
  | .perform task =>
    match s.running? task with
    | some (.deciding c action) => some (s.perform task c action)
    | _ => none
  | .count task =>
    match s.running? task with
    | some (.counting c reply kind offered result) =>
      some ([], (s.tally offered result kind).withWork task (.answering c reply))
    | _ => none
  | .answer task =>
    match s.running? task with
    | some (.answering c reply) => some ([], s.withWork task (.listening (c.reply env.wire reply)))
    | _ => none
  | .flusherLooks kind look => some ([], { s with flushStop := s.flushStop.look kind.listener look })
  | .flush kind .stop =>
    if s.flushStop.hasResolved kind.listener then s.stepFlusher? env .stop kind else none
  | .flush kind step => s.stepFlusher? env step kind
  | .goOn => s.goOn?.map fun s => ([], s)

/-- Takes a step if it is possible. -/
def step (env : Surroundings σ) (s : DaemonTasks σ) (move : DaemonStep) :
    List DaemonEvent × DaemonTasks σ :=
  (s.step? env move).getD ([], s)

/-- Takes steps as a schedule says; gives what has come of them, in order. -/
def run (env : Surroundings σ) : List DaemonStep → DaemonTasks σ → List DaemonEvent × DaemonTasks σ :=
  runSteps (step env)

end DaemonTasks

/-! ## What has come of a run -/

namespace Action

/-- The impressions that an action offers, under their tag. -/
def impressions? : Action → Option (ClientTag × List Impression)
  | record tag items _ => some (tag, items)
  | _ => none

/-- The event that an action offers, under its tag. -/
def event? : Action → Option (ClientTag × List Event)
  | track tag event => some (tag, [event])
  | _ => none

end Action

namespace Work

variable {σ : Type}

/-- What is decided and not carried out yet. -/
def due? : Work σ → Option Action
  | deciding _ action => some action
  | _ => none

/-- What is appended to the queue of one kind of record and not counted yet. -/
def uncounted (kind : RecordKind) : Work σ → QueueStats
  | counting _ _ other offered result => if other = kind then FanIn.count {} offered result else {}
  | _ => {}

end Work

namespace DaemonEvent

def impressions? : DaemonEvent → Option (Flusher.LoopEvent Impression)
  | impressions event => some event
  | _ => none

def events? : DaemonEvent → Option (Flusher.LoopEvent Event)
  | events event => some event
  | _ => none

/-- The call to the queues of impressions that this was, if it was one. -/
def impressionCall? : DaemonEvent → Option (FanIn.Call ClientTag Impression)
  | performed _ action => action.impressions?.map fun (tag, items) => .push tag items
  | impressions event => event.drain?
  | _ => none

/-- The call to those of events. -/
def eventCall? : DaemonEvent → Option (FanIn.Call ClientTag Event)
  | performed _ action => action.event?.map fun (tag, items) => .push tag items
  | events event => event.drain?
  | _ => none

/-- What a message of this connection leads to. -/
def decided? (task : Nat) : DaemonEvent → Option Action
  | decided other action => if other = task then some action else none
  | _ => none

/-- What was carried out for this connection. -/
def performed? (task : Nat) : DaemonEvent → Option Action
  | performed other action => if other = task then some action else none
  | _ => none

end DaemonEvent

namespace DaemonTasks

section Events

variable (events : List DaemonEvent)

/-- What came of pushes of impressions and of passes over them. -/
def impressionEvents : List (Flusher.LoopEvent Impression) := events.filterMap DaemonEvent.impressions?

/-- What came of pushes of events and of passes over them. -/
def eventEvents : List (Flusher.LoopEvent Event) := events.filterMap DaemonEvent.events?

/-- The batches of connections and the passes over impressions, as calls to their queues. -/
def impressionCalls : List (FanIn.Call ClientTag Impression) := events.filterMap DaemonEvent.impressionCall?

/-- Those over events. -/
def eventCalls : List (FanIn.Call ClientTag Event) := events.filterMap DaemonEvent.eventCall?

/-- What the messages of a connection lead to, in their order. -/
def decidedBy (task : Nat) : List Action := events.filterMap (DaemonEvent.decided? task)

/-- What was carried out for a connection. -/
def performedBy (task : Nat) : List Action := events.filterMap (DaemonEvent.performed? task)

end Events

/-- What a task has decided and not carried out. -/
def due {σ : Type} (s : DaemonTasks σ) (task : Nat) : List Action := (s.work[task]?.bind Work.due?).toList

end DaemonTasks

end FlagSidecar
