import FlagSidecar.Link.SocketPath
import FlagSidecar.Schedule

/-!
# FlagSidecar.Link.Rivals: several acceptors at one path

Acceptors start and stop at one path, each with a number of its own, and nothing but the path tells them of
each other. Their steps come in any order: one may look at the path, or have closed its listener, and take
its next step when others have taken many. A schedule is a list that says whose step is next.

What matters of a step to the others is what it does to the path: a listener is bound, or a socket file is
removed, and then whose it was, and whether that listener was still open.
-/

namespace FlagSidecar

/-- A path, and how far each acceptor at it is. -/
structure Rivals where
  path : SocketPath
  stage : ListenerId → ListenStage

/-- What happens next. -/
inductive RivalStep where
  /-- An acceptor takes a step on its way to listening. -/
  | advance (id : ListenerId)
  /-- It takes a step on its way out. -/
  | retreat (id : ListenerId)
deriving DecidableEq

/-- What comes of it. -/
inductive RivalEvent where
  /-- The socket at the path has refused this acceptor. -/
  | refused (id : ListenerId)
  | bound (id : ListenerId)
  | closed (id : ListenerId)
  /-- An acceptor has removed the socket file of a listener, which was open or not. -/
  | removed (id owner : ListenerId) (isOpen : Bool)
deriving DecidableEq

namespace Rivals

/-- Acceptors that have not begun. -/
def start (path : SocketPath) : Rivals := ⟨path, fun _ => .checking⟩

def withStage (s : Rivals) (id : ListenerId) (stage : ListenStage) : Rivals :=
  { s with stage := fun other => if other = id then stage else s.stage other }

/-- What it comes to that an acceptor removes what is at the path. -/
def removal (s : Rivals) (id : ListenerId) : List RivalEvent :=
  match s.path.entry with
  | .socket owner => [.removed id owner (s.path.flavorOf? owner).isSome]
  | _ => []

/-- One step. Each acceptor has sockets of a kind of its own. -/
def step (flavor : ListenerId → SocketFlavor) (s : Rivals) : RivalStep → List RivalEvent × Rivals
  | .advance id =>
    let (stage, path) := (s.stage id).advance id (flavor id) s.path
    let events := match s.stage id, stage with
      | .probing, .clearing => [.refused id]
      | .clearing, .binding => s.removal id
      | .binding, .listening => [.bound id]
      | _, _ => []
    (events, { s with path }.withStage id stage)
  | .retreat id =>
    let (stage, path) := (s.stage id).retreat id s.path
    let events := match s.stage id with
      | .listening => [.closed id]
      | .removing => s.removal id
      | _ => []
    (events, { s with path }.withStage id stage)

/-- Takes steps as a schedule says; gives what has come of them, in order. -/
def run (flavor : ListenerId → SocketFlavor) : List RivalStep → Rivals → List RivalEvent × Rivals :=
  runSteps (step flavor)

/-- Whatever acceptors do, none of them removes the file of another one whose listener is open. -/
def NeverClobbers (flavor : ListenerId → SocketFlavor) (path : SocketPath) : Prop :=
  ∀ (schedule : List RivalStep) (id owner : ListenerId), id ≠ owner →
    .removed id owner true ∉ (run flavor schedule (start path)).1

/-- The socket file at the path is that of a listener that is open. -/
def IsLive (path : SocketPath) (owner : ListenerId) : Prop :=
  path.entry = .socket owner ∧ (path.flavorOf? owner).isSome = true

/-- The listener was bound after this had happened. -/
def BoundSince (earlier : RivalEvent) (owner : ListenerId) (events : List RivalEvent) : Prop :=
  ∃ before after, events = before ++ earlier :: after ∧ .bound owner ∈ after

/-- Is an acceptor about to remove a file? -/
def removes : ListenStage → Bool
  | .clearing => true
  | .removing => true
  | _ => false

/-- In this schedule no listener is bound while another acceptor is about to remove a file. -/
def Guarded (flavor : ListenerId → SocketFlavor) : List RivalStep → Rivals → Prop
  | [], _ => True
  | move :: schedule, s =>
    (∀ id, .bound id ∈ (s.step flavor move).1 → ∀ other, other ≠ id → removes (s.stage other) = false) ∧
      Guarded flavor schedule (s.step flavor move).2

end Rivals

end FlagSidecar
