import FlagSidecar.Queue.FanIn

/-!
# FlagSidecar.Queue.History: a fan-in in the course of time

Producers push and the consumer detaches, in any order. The history of a fan-in says what came of each
step: which items were accepted under which tag, and what was handed out. What is pending under a tag at
the end of a history are the items accepted since the last detachment.
-/

namespace FlagSidecar.FanIn

/-- What is done to a fan-in. -/
inductive Step (κ α : Type) where
  | push (tag : κ) (items : List α)
  | drain

/-- What came of it. -/
inductive Entry (κ α : Type) where
  /-- These items of a batch were accepted under the tag. -/
  | accepted (tag : κ) (items : List α)
  | drained (contents : List (κ × List α))

/-- What has come of several steps, in their order. -/
abbrev History (κ α : Type) := List (Entry κ α)

variable {κ α : Type} [DecidableEq κ]

def step (f : FanIn κ α) : Step κ α → Entry κ α × FanIn κ α
  | .push tag items =>
    let (result, f) := f.push tag items
    (.accepted tag (items.take result.moved), f)
  | .drain =>
    let (contents, f) := f.drainAll
    (.drained contents, f)

/-- Takes steps one after the other. -/
def run : List (Step κ α) → FanIn κ α → History κ α × FanIn κ α
  | [], f => ([], f)
  | s :: steps, f =>
    let (entry, f) := f.step s
    let (history, f) := run steps f
    (entry :: history, f)

/-- What a step offers under a tag. -/
def Step.offered (tag : κ) : Step κ α → List α
  | push t items => if t = tag then items else []
  | drain => []

namespace Entry

/-- The items accepted under a tag. -/
def accepts (tag : κ) : Entry κ α → List α
  | accepted t items => if t = tag then items else []
  | drained _ => []

/-- The batches handed out under a tag. -/
def hands (tag : κ) : Entry κ α → List (List α)
  | accepted _ _ => []
  | drained contents => (contents.filter (·.1 = tag)).map (·.2)

/-- What is pending under a tag afterwards. -/
def pending (tag : κ) (before : List α) : Entry κ α → List α
  | accepted t items => if t = tag then before ++ items else before
  | drained _ => []

end Entry

namespace History

/-- The items accepted under a tag, in the order of their acceptance. -/
def accepted (tag : κ) (h : History κ α) : List α := h.flatMap (Entry.accepts tag)

/-- The batches handed out under a tag, in the order in which they were. -/
def handed (tag : κ) (h : History κ α) : List (List α) := h.flatMap (Entry.hands tag)

/-- The items that wait under a tag, if these did at the beginning. -/
def pending (tag : κ) (start : List α) (h : History κ α) : List α :=
  h.foldl (Entry.pending tag) start

end History

end FlagSidecar.FanIn
