import FlagSidecar.Number.Basic
import FlagSidecar.Queue.FanIn
import FlagSidecar.Record.Upload

/-!
# FlagSidecar.Flush.Pass: handing queued records to the recorder

A pass takes everything that is queued and makes one upload per tag. An upload that fails is reported
and not tried again, and does not keep the others from being made.

Passes are single-flight: one that would begin while another is in flight is skipped, and leaves
everything as it is. A pass that ends clears the way for the next one, whether it was completed or cut
off.
-/

namespace FlagSidecar

/-- A kind of record that can be uploaded. -/
class Uploadable (α : Type) where
  /-- What the records of one tag become. -/
  body : List α → UploadBody

instance : Uploadable Impression := ⟨UploadBody.ofImpressions⟩

instance : Uploadable Event := ⟨UploadBody.ofEvents⟩

/-- One batch for the recorder. -/
structure Upload where
  tag : ClientTag
  /-- How many records the batch is made of. -/
  items : Nat
  body : UploadBody
deriving DecidableEq

/-- What becomes of each upload. -/
abbrev Recorder := Upload → Except UploadFailure Unit

/-- An upload that failed. -/
structure FlushFailure where
  tag : ClientTag
  items : Nat
  failure : UploadFailure
deriving DecidableEq

/-- What one pass did. -/
structure FlushReport where
  tags : Nat
  items : Nat
  failures : List FlushFailure
deriving DecidableEq

namespace FlushReport

def isClean (r : FlushReport) : Bool := r.failures.isEmpty

/-- How many records were in failed uploads. -/
def failedItems (r : FlushReport) : Nat := total (·.items) r.failures

/-- The report of uploads that were made. -/
def ofUploads (recorder : Recorder) (uploads : List Upload) : FlushReport where
  tags := uploads.length
  items := total (·.items) uploads
  failures := uploads.filterMap fun u =>
    match recorder u with
    | .ok _ => none
    | .error failure => some ⟨u.tag, u.items, failure⟩

end FlushReport

/-- How a pass went. -/
inductive FlushOutcome where
  | completed (report : FlushReport)
  /-- Another pass was in flight. -/
  | skipped
deriving DecidableEq

/-- Queues and the mark that a pass over them is in flight. -/
structure Flusher (α : Type) where
  queues : FanIn ClientTag α
  running : Bool := false

namespace Flusher

variable {α : Type} [Uploadable α]

/-- The upload of what was queued under a tag. -/
def upload (drained : ClientTag × List α) : Upload :=
  ⟨drained.1, drained.2.length, Uploadable.body drained.2⟩

/-- Begins a pass, unless one is in flight: takes everything that is queued. -/
def begin? (f : Flusher α) : Option (List Upload × Flusher α) :=
  if f.running then none
  else
    let (drained, queues) := f.queues.drainAll
    some (drained.map upload, ⟨queues, true⟩)

/-- The end of a pass, completed or cut off. -/
def release (f : Flusher α) : Flusher α := { f with running := false }

/-- A whole pass: its outcome, the uploads that were made, and the queues after it. -/
def synchronize (recorder : Recorder) (f : Flusher α) : FlushOutcome × List Upload × Flusher α :=
  match f.begin? with
  | none => (.skipped, [], f)
  | some (uploads, f) => (.completed (.ofUploads recorder uploads), uploads, f.release)

end Flusher

end FlagSidecar
