/-!
# FlagSidecar.Shutdown.Coordinator: shutdown is initiated once and reaches everyone

Initiating shutdown has two steps: the flag is claimed, which only the first who tries can do, and the
reason is then sent to everyone who has subscribed. A listener looks at the flag before it waits for a
reason, so it resolves whether it subscribed before or after the flag was claimed.

Main statements, in the proof modules: the flag is claimed once, and no listener waits in vain.
-/

namespace FlagSidecar

/-- Why the daemon stops. -/
inductive ShutdownReason where
  | sigterm
  | sigint
  /-- The listener failed, and no more clients can be accepted. -/
  | acceptorFailed
  | programmatic
deriving DecidableEq

def ShutdownReason.text : ShutdownReason → String
  | sigterm => "SIGTERM"
  | sigint => "SIGINT"
  | acceptorFailed => "ACCEPTOR_FAILED"
  | programmatic => "PROGRAMMATIC"

/-- How far a listener is. -/
inductive ListenerState where
  /-- It has subscribed and not looked at the flag yet. -/
  | subscribed
  /-- It has seen the flag unclaimed and waits for a reason. -/
  | waiting
  | resolved
deriving DecidableEq

/-- A listener, and the reasons sent to it that it has not taken. -/
structure Listener where
  state : ListenerState
  inbox : List ShutdownReason
deriving DecidableEq

namespace Listener

/-- What a listener does that looks at the flag. -/
def check (initiated : Bool) (l : Listener) : Listener :=
  match l.state with
  | .subscribed => { l with state := if initiated then .resolved else .waiting }
  | _ => l

/-- What a listener does that looks for a reason. -/
def receive (l : Listener) : Listener :=
  match l.state, l.inbox with
  | .waiting, _ :: rest => ⟨.resolved, rest⟩
  | _, _ => l

end Listener

/-- The flag and the listeners. -/
structure Coordinator where
  initiated : Bool := false
  listeners : List Listener := []
deriving DecidableEq

namespace Coordinator

/-- A new listener, at the end of the list. -/
def subscribe (c : Coordinator) : Coordinator :=
  { c with listeners := c.listeners ++ [⟨.subscribed, []⟩] }

/-- Claims the flag; true for the first who does. -/
def claim (c : Coordinator) : Bool × Coordinator := (!c.initiated, { c with initiated := true })

/-- Sends a reason to all who have subscribed. -/
def broadcast (c : Coordinator) (reason : ShutdownReason) : Coordinator :=
  { c with listeners := c.listeners.map fun l => { l with inbox := l.inbox ++ [reason] } }

/-- Claims the flag, and sends the reason if that was the first claim. -/
def initiate (c : Coordinator) (reason : ShutdownReason) : Bool × Coordinator :=
  let (first, c) := c.claim
  (first, if first then c.broadcast reason else c)

/-- One listener looks at the flag. -/
def check (c : Coordinator) (i : Nat) : Coordinator :=
  { c with listeners := c.listeners.modify i (Listener.check c.initiated) }

/-- One listener looks for a reason. -/
def receive (c : Coordinator) (i : Nat) : Coordinator :=
  { c with listeners := c.listeners.modify i Listener.receive }

/-- All listeners look at the flag, and for a reason. -/
def settle (c : Coordinator) : Coordinator :=
  { c with listeners := c.listeners.map fun l => (l.check c.initiated).receive }

/-- All listeners that wait look for a reason. -/
def deliver (c : Coordinator) : Coordinator :=
  { c with listeners := c.listeners.map Listener.receive }

/-- Has each of the listeners that look resolved? -/
def resolved (c : Coordinator) : List Bool :=
  (c.listeners.filter (·.state ≠ .subscribed)).map (·.state = .resolved)

end Coordinator

end FlagSidecar
