import FlagSidecar.Link.Error
import FlagSidecar.Schedule

/-!
# FlagSidecar.Service.Acceptor: so many connections at a time

An acceptor takes sockets from its listener, one at a time, and has a limited number of slots. A socket
that was taken waits for a slot; if none comes free in time it is rejected. One that gets a slot is counted
as accepted, then as active, and handed to a task of its own.

A task holds its slot until its handler is gone, however that came about: the count of active connections
goes down first, and the slot comes free after that, so the count never passes the limit.

When it is told to stop, or when its listener fails for good, an acceptor drops the socket that waits,
closes the listener and waits for its tasks. After a while it cuts off those that are left. It returns when
it has joined the last one.

What happens when is not decided here. `Acceptor.step?` says what each step does and when it is possible,
and a run is any list of steps. Steps of the acceptor and of its tasks come in any order.

Main statement, in the proof modules: the limit holds and every slot comes back.
-/

namespace FlagSidecar

/-- The number of a socket that was taken. -/
abbrev ConnectionId := UInt64

/-- How the handler of a connection came to be gone. -/
inductive TaskEnding where
  | completed
  | panicked
  /-- The acceptor has cut it off. -/
  | aborted
deriving DecidableEq

/-- How far the task of a connection is. -/
inductive TaskStage where
  | running
  /-- Its handler is gone. It still is counted as active. -/
  | ended
  /-- It is not counted any more. It still holds its slot. -/
  | discounted
  | released
  /-- The acceptor knows that it is over. -/
  | joined
deriving DecidableEq

/-- The task of a connection. -/
structure ConnectionTask where
  connection : ConnectionId
  stage : TaskStage
deriving DecidableEq

/-- How far an acceptor is. It fails if its listener does. -/
inductive AcceptorPhase where
  | accepting
  /-- This socket waits for a slot. -/
  | seating (id : ConnectionId)
  /-- This socket has got a slot. -/
  | granted (id : ConnectionId)
  /-- It is counted as accepted. -/
  | admitted (id : ConnectionId)
  /-- It is counted as active. -/
  | activated (id : ConnectionId)
  /-- No more sockets are taken. -/
  | closing (failure : Option IoError)
  /-- The listener is closed. Tasks may go on. -/
  | draining (failure : Option IoError)
  /-- Tasks are cut off. -/
  | aborting (failure : Option IoError)
  | returned (failure : Option IoError)
deriving DecidableEq

/-- The slots of an acceptor, its tasks and what it has counted. -/
structure Acceptor where
  limit : Nat
  /-- How many slots nobody holds. -/
  free : Nat := limit
  nextId : ConnectionId := 1
  listening : Bool := true
  /-- All tasks that there ever were, in the order in which they began. -/
  tasks : List ConnectionTask := []
  accepted : UInt64 := 0
  rejected : UInt64 := 0
  active : UInt64 := 0
  phase : AcceptorPhase := .accepting
deriving DecidableEq

/-- A step of an acceptor or of one of its tasks. -/
inductive AcceptorStep where
  /-- A socket is taken from the listener. -/
  | take
  /-- The listener gives no socket this time: the peer has gone, or the call was interrupted. -/
  | stumble
  /-- The listener fails for good. -/
  | fail (e : IoError)
  /-- The waiting socket gets a slot. -/
  | grant
  /-- The waiting socket has waited too long. -/
  | expire
  /-- The socket with a slot is counted as accepted. -/
  | countAccepted
  /-- It is counted as active. -/
  | countActive
  /-- Its task begins. -/
  | spawn
  /-- Shutdown comes. -/
  | stop
  | close
  /-- The acceptor has waited for its tasks long enough. -/
  | giveUp
  /-- The acceptor returns. -/
  | conclude
  /-- The handler of a task is gone. -/
  | finish (task : Nat) (how : TaskEnding)
  /-- A task whose handler is gone is no longer counted as active. -/
  | discount (task : Nat)
  /-- After that it gives its slot back. -/
  | release (task : Nat)
  /-- The acceptor gets to know that a task is over. -/
  | join (task : Nat)
deriving DecidableEq

/-- What others notice of an acceptor. -/
inductive AcceptorEvent where
  | taken (id : ConnectionId)
  | rejected (id : ConnectionId)
  | admitted (id : ConnectionId)
  /-- Shutdown has come while this socket waited. -/
  | dropped (id : ConnectionId)
  | ended (task : Nat) (how : TaskEnding)
  | released (task : Nat)
deriving DecidableEq

/-- Are tasks being cut off? -/
def AcceptorPhase.cutsOff : AcceptorPhase → Bool
  | aborting _ => true
  | _ => false

/-- Does the acceptor hear of tasks that are over? Not while it sees to a socket. -/
def AcceptorPhase.hears : AcceptorPhase → Bool
  | accepting => true
  | draining _ => true
  | aborting _ => true
  | _ => false

/-- What an acceptor has come to. -/
def AcceptorPhase.result? : AcceptorPhase → Option (Except LinkError Unit)
  | returned none => some (.ok ())
  | returned (some e) => some (.error (.io "accept failed" e))
  | _ => none

namespace Acceptor

def withTask (a : Acceptor) (task : Nat) (connection : ConnectionId) (stage : TaskStage) : Acceptor :=
  { a with tasks := a.tasks.set task ⟨connection, stage⟩ }

/-- What a step of the acceptor itself does; nothing if it is not possible. -/
def advance? (a : Acceptor) : AcceptorStep → AcceptorPhase → Option (Option AcceptorEvent × Acceptor)
  | .take, .accepting =>
    some (some (.taken a.nextId), { a with nextId := a.nextId + 1, phase := .seating a.nextId })
  | .stumble, .accepting => some (none, a)
  -- a connection that the peer has reset is no failure of the listener
  | .fail e, .accepting =>
    if e = .connectionReset then none else some (none, { a with phase := .closing (some e) })
  | .grant, .seating id =>
    if 0 < a.free then some (none, { a with free := a.free - 1, phase := .granted id }) else none
  | .expire, .seating id =>
    some (some (.rejected id), { a with rejected := a.rejected + 1, phase := .accepting })
  | .countAccepted, .granted id =>
    some (some (.admitted id), { a with accepted := a.accepted + 1, phase := .admitted id })
  | .countActive, .admitted id =>
    some (none, { a with active := a.active + 1, phase := .activated id })
  | .spawn, .activated id =>
    some (none, { a with tasks := a.tasks ++ [⟨id, .running⟩], phase := .accepting })
  | .stop, .accepting => some (none, { a with phase := .closing none })
  | .stop, .seating id => some (some (.dropped id), { a with phase := .closing none })
  | .close, .closing failure =>
    some (none, { a with listening := false, phase := .draining failure })
  | .giveUp, .draining failure => some (none, { a with phase := .aborting failure })
  | .conclude, .draining failure =>
    if a.tasks.all (·.stage = .joined) then some (none, { a with phase := .returned failure }) else none
  | .conclude, .aborting failure =>
    if a.tasks.all (·.stage = .joined) then some (none, { a with phase := .returned failure }) else none
  | _, _ => none

/-- What a step does, with what others notice of it; nothing if it is not possible. -/
def step? (a : Acceptor) : AcceptorStep → Option (Option AcceptorEvent × Acceptor)
  | .finish task how =>
    match a.tasks[task]? with
    | some ⟨id, .running⟩ =>
      if how = .aborted ∧ a.phase.cutsOff = false then none
      else some (some (.ended task how), a.withTask task id .ended)
    | _ => none
  | .discount task =>
    match a.tasks[task]? with
    | some ⟨id, .ended⟩ =>
      some (none, { a.withTask task id .discounted with active := a.active - 1 })
    | _ => none
  | .release task =>
    match a.tasks[task]? with
    | some ⟨id, .discounted⟩ =>
      some (some (.released task), { a.withTask task id .released with free := a.free + 1 })
    | _ => none
  | .join task =>
    match a.tasks[task]? with
    | some ⟨id, .released⟩ => if a.phase.hears then some (none, a.withTask task id .joined) else none
    | _ => none
  | step => a.advance? step a.phase

/-- Takes a step if it is possible. -/
def step (a : Acceptor) (s : AcceptorStep) : List AcceptorEvent × Acceptor :=
  match a.step? s with
  | none => ([], a)
  | some (event, a) => (event.toList, a)

/-- Takes the steps that are possible, and leaves out the others. -/
def run : List AcceptorStep → Acceptor → List AcceptorEvent × Acceptor := runSteps step

/-- Does the handler of a task go on? -/
def isRunning (a : Acceptor) (task : Nat) : Bool :=
  match a.tasks[task]? with
  | some ⟨_, .running⟩ => true
  | _ => false

/-- The connections that are served. -/
def serving (a : Acceptor) : List ConnectionId :=
  (a.tasks.filter (·.stage = .running)).map (·.connection)

/-- What becomes of a socket that knocks while nothing else happens: it gets a slot if there is one, and
is rejected after a while if there is none. -/
def seat (a : Acceptor) : Option ConnectionId × Acceptor :=
  match run [.take, .grant] a with
  | (_, a) =>
    match a.phase with
    | .granted id => (some id, (run [.countAccepted, .countActive, .spawn] a).2)
    | _ => (none, (run [.expire] a).2)

/-- The end of a connection, slot and all. -/
def dismiss (how : TaskEnding) (a : Acceptor) (id : ConnectionId) : Acceptor :=
  match a.tasks.findIdx? (· = ⟨id, .running⟩) with
  | none => a
  | some task => (run [.finish task how, .discount task, .release task, .join task] a).2

/-- Closes the listener. -/
def leave (a : Acceptor) : Acceptor := (run [.stop, .close] a).2

/-- Cuts all connections off. -/
def abort (a : Acceptor) : Acceptor := a.serving.foldl (dismiss .aborted) (run [.giveUp] a).2

end Acceptor

/-! ## What a run has come to -/

namespace ConnectionTask

/-- Does the task hold its slot? -/
def holdsSlot (t : ConnectionTask) : Bool :=
  match t.stage with
  | .running => true
  | .ended => true
  | .discounted => true
  | .released => false
  | .joined => false

/-- Is the task counted as active? -/
def isCounted (t : ConnectionTask) : Bool :=
  match t.stage with
  | .running => true
  | .ended => true
  | _ => false

end ConnectionTask

namespace AcceptorPhase

/-- How many slots the acceptor itself holds, for the socket that it sees to. -/
def slots : AcceptorPhase → Nat
  | granted _ => 1
  | admitted _ => 1
  | activated _ => 1
  | _ => 0

/-- How many connections are counted as active before their tasks begin. -/
def counted : AcceptorPhase → Nat
  | activated _ => 1
  | _ => 0

/-- Is the listener closed? -/
def isClosed : AcceptorPhase → Bool
  | draining _ => true
  | aborting _ => true
  | returned _ => true
  | _ => false

/-- Is the acceptor on its way out? -/
@[simp]
def leaves : AcceptorPhase → Bool
  | closing _ => true
  | draining _ => true
  | aborting _ => true
  | returned _ => true
  | _ => false

/-- The socket that was taken and is neither accepted nor rejected. -/
@[simp]
def pending : AcceptorPhase → List ConnectionId
  | seating id => [id]
  | granted id => [id]
  | _ => []

/-- The socket that is accepted and has no task yet. -/
@[simp]
def unassigned : AcceptorPhase → List ConnectionId
  | admitted id => [id]
  | activated id => [id]
  | _ => []

end AcceptorPhase

namespace AcceptorEvent

@[simp]
def taken? : AcceptorEvent → Option ConnectionId
  | taken id => some id
  | _ => none

@[simp]
def admitted? : AcceptorEvent → Option ConnectionId
  | admitted id => some id
  | _ => none

@[simp]
def rejected? : AcceptorEvent → Option ConnectionId
  | rejected id => some id
  | _ => none

@[simp]
def dropped? : AcceptorEvent → Option ConnectionId
  | dropped id => some id
  | _ => none

end AcceptorEvent

namespace Acceptor

section Events

variable (events : List AcceptorEvent)

/-- The sockets that were taken from the listener, in order. -/
def taken : List ConnectionId := events.filterMap AcceptorEvent.taken?

/-- The connections that were counted as accepted. -/
def admitted : List ConnectionId := events.filterMap AcceptorEvent.admitted?

/-- The sockets that were rejected. -/
def rejections : List ConnectionId := events.filterMap AcceptorEvent.rejected?

/-- The sockets that waited when shutdown came. -/
def dropped : List ConnectionId := events.filterMap AcceptorEvent.dropped?

end Events

/-- How many slots a task has given back, as far as it has come. -/
def returns (a : Acceptor) (task : Nat) : Nat :=
  match a.tasks[task]? with
  | some t => if t.holdsSlot then 0 else 1
  | none => 0

end Acceptor

end FlagSidecar
