import FlagSidecar.Part
import FlagSidecar.Queue.Capacity

/-!
# FlagSidecar.Queue.Ring: a bounded queue in a ring of slots

A ring has a power of two of slots. Items go in at `head` and come out at `tail`; both wrap by a mask.
The ring is empty when the two are equal and full when `head` is one slot before `tail`, so one slot
always stays free.

A push takes the longest prefix of a batch that fits; what does not fit is dropped. Neither a full nor
an empty queue is a failure: the outcome says how far the operation got.

The slots of a ring are in one piece. Where a slot takes so many octets that there is no room for all of
them, to make the ring is a panic; everything else is said of rings that can be made.
-/

namespace FlagSidecar

/-- A queue operation that stopped before its end, with how far it got. -/
inductive QueueShortfall where
  | full (pushed : Nat)
  | empty (popped : Nat)
deriving DecidableEq

def QueueShortfall.message : QueueShortfall → String
  | full pushed => "queue full after pushing " ++ toString pushed ++ " item(s)"
  | empty popped => "queue empty after popping " ++ toString popped ++ " item(s)"

/-- A queue operation: how many items it moved, or where it stopped. -/
abbrev QueueResult := Except QueueShortfall Nat

/-- How many items an operation moved, whether or not it stopped before its end. -/
def QueueResult.moved : QueueResult → Nat
  | .ok n => n
  | .error (.full n) => n
  | .error (.empty n) => n

/-- A ring of slots. -/
structure Ring (α : Type) where
  slots : Array (Option α)
  head : UInt64
  tail : UInt64
  mask : UInt64

namespace Ring

variable {α : Type}

/-- An empty ring with so many slots, rounded up to a power of two, where there is room for them. -/
def withSlots (slots : UInt64) : Ring α :=
  let capacity := Capacity.forSlots slots
  ⟨Array.replicate capacity.toNat none, 0, 0, capacity - 1⟩

/-- An empty ring that can hold so many items, where there is room for them. -/
def forSize (size : UInt64) : Ring α := withSlots (Capacity.forSize size)

/-- The ring with so many slots, each of so many octets, or a panic if there is no room for them. -/
def withSlots? (slotSize : Nat) (slots : UInt64) : Option (Ring α) :=
  if (Part.ring (Capacity.forSlots slots).toNat slotSize).Fits then some (withSlots slots) else none

/-- The ring that can hold so many items, in slots of so many octets, or a panic. -/
def forSize? (slotSize : Nat) (size : UInt64) : Option (Ring α) :=
  withSlots? slotSize (Capacity.forSize size)

def capacity (r : Ring α) : Nat := r.slots.size

/-- How many items the ring can hold. -/
def usable (r : Ring α) : Nat := r.capacity - 1

def length (r : Ring α) : Nat := ((r.head - r.tail) &&& r.mask).toNat

def isEmpty (r : Ring α) : Bool := r.head == r.tail

def isFull (r : Ring α) : Bool := ((r.head + 1) &&& r.mask) == r.tail

/-- The ring with one more item, if there is a slot for it. -/
def pushOne? (r : Ring α) (item : α) : Option (Ring α) :=
  if r.isFull then none
  else if r.head.toNat < r.slots.size then
    some { r with
      slots := r.slots.setIfInBounds r.head.toNat (some item)
      head := (r.head + 1) &&& r.mask }
  else none

/-- The oldest item, and the ring without it. -/
def popOne (r : Ring α) : Option α × Ring α :=
  if r.isEmpty then (none, r)
  else
    (r.slots[r.tail.toNat]?.join,
      { r with
        slots := r.slots.setIfInBounds r.tail.toNat none
        tail := (r.tail + 1) &&& r.mask })

/-- Pushes items one by one until one does not fit; `pushed` counts those before. -/
def pushFrom (pushed : Nat) (r : Ring α) : List α → QueueResult × Ring α
  | [] => (.ok pushed, r)
  | item :: rest =>
    match r.pushOne? item with
    | some r => pushFrom (pushed + 1) r rest
    | none => (.error (.full pushed), r)

def push (r : Ring α) (items : List α) : QueueResult × Ring α := pushFrom 0 r items

/-- Pops so many items, the oldest first; `popped` counts those before. -/
def popFrom (popped : Nat) : Nat → Ring α → QueueResult × List α × Ring α
  | 0, r => (.ok popped, [], r)
  | n + 1, r =>
    match r.popOne with
    | (some item, r) =>
      let (result, items, r) := popFrom (popped + 1) n r
      (result, item :: items, r)
    | (none, r) => (.error (.empty popped), [], r)

def pop (r : Ring α) (n : Nat) : QueueResult × List α × Ring α := popFrom 0 n r

/-- Everything in the ring, the oldest first, and the empty ring. -/
def drain (r : Ring α) : List α × Ring α := (r.pop r.length).2

/-- The items in the ring, the oldest first. -/
def toList (r : Ring α) : List α := r.drain.1

end Ring

end FlagSidecar
