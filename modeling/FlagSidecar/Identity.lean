/-!
# FlagSidecar.Identity: who is at the other end of a connection

A client declares its id, the version of its library and some flags when it registers. The first two
make up its tag: records are queued and uploaded by tag, so clients that share a tag share a queue.
-/

namespace FlagSidecar

/-- The pair that queues and uploads are partitioned by. -/
structure ClientTag where
  id : String
  sdkVersion : String
deriving DecidableEq, Inhabited

/-- The tag as texts show it. -/
def ClientTag.text (t : ClientTag) : String := t.id ++ "/" ++ t.sdkVersion

/-- The flags of a registration. -/
structure RegisterFlags where
  bits : UInt64
deriving DecidableEq, Inhabited

/-- Bit 0 asks for the label, time and change number of each impression in the answers. -/
def RegisterFlags.returnImpressionData (f : RegisterFlags) : Bool := f.bits &&& 1 != 0

/-- What a client declared when it registered. -/
structure Identity where
  id : String
  sdkVersion : String
  flags : RegisterFlags
deriving DecidableEq, Inhabited

/-- The partition that this client's records go to. -/
def Identity.tag (i : Identity) : ClientTag := ⟨i.id, i.sdkVersion⟩

end FlagSidecar
