import FlagSidecar.Flush.Pass

/-!
# FlagSidecar.Flush.Log: a flusher in the course of time

Producers push and passes are made, in any order. Pushes go on while a pass has its uploads made: they go
to new queues, which the next pass takes. Each pass meets a recorder of its own, so that any upload may
fail or not.

The log of a flusher says which records were accepted under which tag, and which uploads each pass made
and how it went. What is pending under a tag at the end of a log are the records accepted since the last
pass.
-/

namespace FlagSidecar.Flusher

/-- What is done to a flusher. -/
inductive Step (α : Type) where
  | push (tag : ClientTag) (items : List α)
  /-- A pass with a recorder, and what is pushed while its uploads are made. -/
  | pass (recorder : Recorder) (meanwhile : List (ClientTag × List α))

/-- What came of it. -/
inductive Entry (α : Type) where
  /-- These records of a batch were accepted under the tag. -/
  | accepted (tag : ClientTag) (items : List α)
  | passed (recorder : Recorder) (outcome : FlushOutcome) (uploads : List Upload)

/-- What has come of several steps, in their order. -/
abbrev Log (α : Type) := List (Entry α)

variable {α : Type}

/-- A flusher over new queues, each of which will hold so many records at least. -/
def new (size : UInt64) : Flusher α := ⟨.new size, false⟩

/-- Offers a batch. -/
def push (f : Flusher α) (tag : ClientTag) (items : List α) : Entry α × Flusher α :=
  let (result, queues) := f.queues.push tag items
  (.accepted tag (items.take result.moved), { f with queues })

/-- Offers batches one after the other. -/
def pushAll : List (ClientTag × List α) → Flusher α → Log α × Flusher α
  | [], f => ([], f)
  | (tag, items) :: rest, f =>
    let (entry, f) := f.push tag items
    let (log, f) := pushAll rest f
    (entry :: log, f)

/-- A whole pass, with what is pushed after its beginning. -/
def pass [Uploadable α] (recorder : Recorder) (meanwhile : List (ClientTag × List α))
    (f : Flusher α) : Log α × Flusher α :=
  match f.begin? with
  | none =>
    let (log, f) := f.pushAll meanwhile
    (.passed recorder .skipped [] :: log, f)
  | some (uploads, f) =>
    let (log, f) := f.pushAll meanwhile
    (.passed recorder (.completed (.ofUploads recorder uploads)) uploads :: log, f.release)

def step [Uploadable α] (f : Flusher α) : Step α → Log α × Flusher α
  | .push tag items =>
    let (entry, f) := f.push tag items
    ([entry], f)
  | .pass recorder meanwhile => f.pass recorder meanwhile

/-- Takes steps one after the other. -/
def run [Uploadable α] : List (Step α) → Flusher α → Log α × Flusher α
  | [], f => ([], f)
  | s :: steps, f =>
    let (log, f) := f.step s
    let (rest, f) := run steps f
    (log ++ rest, f)

/-- The same step, where a pass meets another recorder. -/
def Step.withRecorder (recorder : Recorder) : Step α → Step α
  | push tag items => push tag items
  | pass _ meanwhile => pass recorder meanwhile

namespace Entry

/-- The records accepted under a tag. -/
def accepts (tag : ClientTag) : Entry α → List α
  | accepted t items => if t = tag then items else []
  | passed _ _ _ => []

/-- The uploads made for a tag. -/
def calls (tag : ClientTag) : Entry α → List Upload
  | accepted _ _ => []
  | passed _ _ uploads => uploads.filter (·.tag = tag)

/-- What is pending under a tag afterwards. -/
def pending (tag : ClientTag) (before : List α) : Entry α → List α
  | accepted t items => if t = tag then before ++ items else before
  | passed _ _ _ => []

/-- The same entry, where the uploads of a pass met another recorder. -/
def withRecorder (recorder : Recorder) : Entry α → Entry α
  | accepted tag items => accepted tag items
  | passed _ (.completed _) uploads =>
    passed recorder (.completed (.ofUploads recorder uploads)) uploads
  | passed _ .skipped uploads => passed recorder .skipped uploads

end Entry

namespace Log

/-- The records accepted under a tag, in the order of their acceptance. -/
def accepted (tag : ClientTag) (log : Log α) : List α := log.flatMap (Entry.accepts tag)

/-- The uploads made for a tag, in the order of the passes that made them. -/
def calls (tag : ClientTag) (log : Log α) : List Upload := log.flatMap (Entry.calls tag)

/-- The records accepted under a tag since the last pass, if there were none at the beginning. -/
def pending (tag : ClientTag) (log : Log α) : List α := log.foldl (Entry.pending tag) []

end Log

end FlagSidecar.Flusher
