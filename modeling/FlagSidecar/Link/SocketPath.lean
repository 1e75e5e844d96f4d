import FlagSidecar.Link.Codec
import FlagSidecar.Settings.File

/-!
# FlagSidecar.Link.SocketPath: taking a path for a listener, and giving it up

A listener is bound to a path, where it leaves a socket file; the file outlives the listener if nobody
removes it. Connecting to a socket file is refused exactly when the listener that left it is closed,
and binding fails when anything is at the path.

Whoever wants to listen goes step by step: look at the path, try to connect to a socket that is there,
remove the file if it refuses, bind. On the way out the listener is closed and the file removed. Each
of these steps is one look at the path or one change of it, so several listeners can be followed
through any order of their steps; `prepare` and `listen` are the steps of one of them without
interruption.
-/

namespace FlagSidecar

/-- A listener, of which there may have been many at a path. -/
abbrev ListenerId := Nat

/-- What is at a path. -/
inductive PathEntry where
  | absent
  /-- Nothing, and the directory it would be in is not there either. -/
  | orphan
  /-- Nothing can be there: what should be the directory is something else. -/
  | blocked
  /-- A file, a directory or a link. -/
  | other
  /-- The socket file that a listener has left. -/
  | socket (owner : ListenerId)
deriving DecidableEq

/-- A path, what is at it, and the listeners at it that are open. -/
structure SocketPath where
  text : String
  entry : PathEntry := .absent
  listeners : List (ListenerId × SocketFlavor) := []
deriving DecidableEq

namespace SocketPath

/-- Is anything at the path? -/
def isTaken (p : SocketPath) : Bool :=
  match p.entry with
  | .other | .socket _ => true
  | _ => false

/-- The kind of an open listener. -/
def flavorOf? (p : SocketPath) (id : ListenerId) : Option SocketFlavor := p.listeners.lookup id

/-- A number that no listener at the path has had. -/
def freshId (p : SocketPath) : ListenerId :=
  p.listeners.foldl (fun n l => max n (l.1 + 1))
    (match p.entry with
      | .socket owner => owner + 1
      | _ => 0)

/-- Connects to the listener at the path. -/
def connect (p : SocketPath) (flavor : SocketFlavor) : Except IoError ListenerId :=
  match p.entry with
  | .absent | .orphan => .error .notFound
  | .blocked => .error .notADirectory
  | .other => .error .connectionRefused
  | .socket owner =>
    match p.flavorOf? owner with
    | none => .error .connectionRefused
    | some f => if f = flavor then .ok owner else .error .wrongType

/-- Removes what is at the path. -/
def remove (p : SocketPath) : Except IoError Unit × SocketPath :=
  match p.entry with
  | .absent | .orphan => (.error .notFound, p)
  | .blocked => (.error .notADirectory, p)
  | .other | .socket _ => (.ok (), { p with entry := .absent })

/-- Binds a new listener to the path. -/
def bind (p : SocketPath) (id : ListenerId) (flavor : SocketFlavor) :
    Except IoError Unit × SocketPath :=
  match p.entry with
  | .absent => (.ok (), { p with entry := .socket id, listeners := (id, flavor) :: p.listeners })
  | .orphan => (.error .notFound, p)
  | .blocked => (.error .notADirectory, p)
  | .other | .socket _ => (.error .addressInUse, p)

/-- Closes a listener. Its socket file stays. -/
def close (p : SocketPath) (id : ListenerId) : SocketPath :=
  { p with listeners := p.listeners.filter (·.1 ≠ id) }

/-- What is at a path, and the listeners there, as files show it. The directory of a path is what stands
before its last slash. -/
def ofFiles (files : Files) (text : String) : SocketPath :=
  let directory := String.ofList (((text.toList.reverse.dropWhile (· ≠ '/')).drop 1).reverse)
  { text
    entry :=
      match files text, files directory with
      | .nothing, .directory => .absent
      | .nothing, .nothing => .orphan
      | .nothing, .octets _ => .blocked
      | _, _ => .other }

end SocketPath

/-! ## The steps of a listener -/

/-- What a listener does next. -/
inductive ListenStage where
  /-- It looks at what is at the path. -/
  | checking
  /-- A socket is there: it tries to connect. -/
  | probing
  /-- The socket has refused: it removes the file. -/
  | clearing
  /-- The path is free: it binds. -/
  | binding
  | listening
  /-- It is closed: it removes the file. -/
  | removing
  | gone
  | failed (e : LinkError)
deriving DecidableEq

namespace ListenStage

/-- One step on the way to listening. A socket that does not refuse, whatever else it answers, belongs
to somebody. -/
def advance (id : ListenerId) (flavor : SocketFlavor) (p : SocketPath) :
    ListenStage → ListenStage × SocketPath
  | checking =>
    (match p.entry with
      | .absent | .orphan => binding
      | .blocked => failed (.io ("failed to stat " ++ p.text) .notADirectory)
      | .other => failed (.notASocket p.text)
      | .socket _ => probing, p)
  | probing =>
    (match p.connect flavor with
      | .error .connectionRefused => clearing
      | _ => failed (.addressInUse p.text), p)
  | clearing =>
    match p.remove with
    | (.ok _, p) => (binding, p)
    | (.error e, p) => (failed (.io ("failed to remove stale socket " ++ p.text) e), p)
  | binding =>
    match p.bind id flavor with
    | (.ok _, p) => (listening, p)
    | (.error e, p) => (failed (.io ("failed to bind " ++ p.text) e), p)
  | stage => (stage, p)

/-- One step on the way out. Whether the file could be removed makes no difference. -/
def retreat (id : ListenerId) (p : SocketPath) : ListenStage → ListenStage × SocketPath
  | listening => (removing, p.close id)
  | removing => (gone, p.remove.2)
  | stage => (stage, p)

/-- Is the listener done with making the path free? -/
def isPrepared : ListenStage → Bool
  | checking | probing | clearing => false
  | _ => true

/-- Takes steps until the path is free or will not be, for so many steps at most. -/
def prepareWithin (id : ListenerId) (flavor : SocketFlavor) :
    (steps : Nat) → ListenStage → SocketPath → ListenStage × SocketPath
  | 0, stage, p => (stage, p)
  | steps + 1, stage, p =>
    if stage.isPrepared then (stage, p)
    else
      let (stage, p) := stage.advance id flavor p
      prepareWithin id flavor steps stage p

end ListenStage

namespace SocketPath

/-- Makes the path free for a listener. A look, a try to connect and a removal are all that it takes. -/
def prepare (p : SocketPath) (id : ListenerId) (flavor : SocketFlavor) :
    Except LinkError Unit × SocketPath :=
  match ListenStage.prepareWithin id flavor 3 .checking p with
  | (.failed e, p) => (.error e, p)
  | (_, p) => (.ok (), p)

/-- Makes the path free and binds a listener to it. -/
def listen (p : SocketPath) (id : ListenerId) (flavor : SocketFlavor) :
    Except LinkError Unit × SocketPath :=
  match p.prepare id flavor with
  | (.error e, p) => (.error e, p)
  | (.ok _, p) =>
    match ListenStage.binding.advance id flavor p with
    | (.failed e, p) => (.error e, p)
    | (_, p) => (.ok (), p)

/-- Closes a listener and removes the socket file. -/
def leave (p : SocketPath) (id : ListenerId) : SocketPath :=
  let (stage, p) := ListenStage.listening.retreat id p
  (stage.retreat id p).2

/-- The path with the socket file of a listener that has been closed. -/
def abandoned (text : String) : SocketPath := { text, entry := .socket 0 }

/-- The path with an open listener. -/
def occupied (text : String) (flavor : SocketFlavor) : SocketPath :=
  { text, entry := .socket 0, listeners := [(0, flavor)] }

end SocketPath

end FlagSidecar
