import FlagSidecar.Queue.Ring

/-!
# FlagSidecar.Queue.Calls: a queue as its callers see it

A queue is called to push, to pop, to drain, and to say how much it holds. What it answers can be said
without slots and words: `BoundedList` is a list with a limit, and its calls say what those of a ring come
to. A caller pops into a buffer of its own, which may hold items already.
-/

namespace FlagSidecar

/-- Makes calls one after the other, each in the state that the one before leaves; gives the answers. -/
def runCalls {σ χ ω : Type} (call : σ → χ → ω × σ) : List χ → σ → List ω × σ
  | [], s => ([], s)
  | c :: rest, s =>
    let (answer, s) := call s c
    let (answers, s) := runCalls call rest s
    (answer :: answers, s)

theorem runCalls_cons {σ χ ω : Type} (call : σ → χ → ω × σ) (c : χ) (rest : List χ) (s : σ) :
    runCalls call (c :: rest) s =
      ((call s c).1 :: (runCalls call rest (call s c).2).1, (runCalls call rest (call s c).2).2) := rfl

theorem runCalls_append {σ χ ω : Type} (call : σ → χ → ω × σ) (calls more : List χ) (s : σ) :
    runCalls call (calls ++ more) s =
      ((runCalls call calls s).1 ++ (runCalls call more (runCalls call calls s).2).1,
        (runCalls call more (runCalls call calls s).2).2) := by
  induction calls generalizing s with
  | nil => rfl
  | cons c rest ih =>
    rw [List.cons_append, runCalls_cons, runCalls_cons, ih]
    rfl

/-- A call to a queue. -/
inductive QueueCall (α : Type) where
  | push (items : List α)
  /-- Pops so many items into a buffer that holds these. -/
  | pop (count : Nat) (out : List α)
  | drain
  | length
  | isEmpty

/-- What a queue answers to a call. -/
inductive QueueAnswer (α : Type) where
  | pushed (result : QueueResult)
  /-- How many items were popped, and what the buffer holds now. -/
  | popped (result : QueueResult) (out : List α)
  | drained (items : List α)
  | length (count : Nat)
  | isEmpty (empty : Bool)

namespace Ring

variable {α : Type}

/-- Pops so many items, the oldest first, each behind what is in the buffer; `popped` counts those
before. -/
def popInto (popped : Nat) : Nat → List α → Ring α → QueueResult × List α × Ring α
  | 0, out, r => (.ok popped, out, r)
  | n + 1, out, r =>
    match r.popOne with
    | (some item, r) => popInto (popped + 1) n (out ++ [item]) r
    | (none, r) => (.error (.empty popped), out, r)

/-- Popping one by one until nothing comes gives these items, and leaves this ring. -/
inductive Drains : Ring α → List α → Ring α → Prop
  | stop {r r' : Ring α} : r.popOne = (none, r') → Drains r [] r'
  | next {r r₁ r' : Ring α} {item : α} {items : List α} :
    r.popOne = (some item, r₁) → Drains r₁ items r' → Drains r (item :: items) r'

def call (r : Ring α) : QueueCall α → QueueAnswer α × Ring α
  | .push items =>
    let (result, r) := r.push items
    (.pushed result, r)
  | .pop count out =>
    let (result, out, r) := r.popInto 0 count out
    (.popped result out, r)
  | .drain =>
    let (items, r) := r.drain
    (.drained items, r)
  | .length => (.length r.length, r)
  | .isEmpty => (.isEmpty r.isEmpty, r)

/-- The indices from `tail` on, around the end, up to `head`. -/
def Between (tail head i : Nat) : Prop :=
  if tail ≤ head then tail ≤ i ∧ i < head else tail ≤ i ∨ i < head

end Ring

/-- A list that holds no more items than its limit. -/
structure BoundedList (α : Type) where
  limit : Nat
  items : List α
  length_le : items.length ≤ limit

namespace BoundedList

variable {α : Type}

def empty (limit : Nat) : BoundedList α := ⟨limit, [], Nat.zero_le limit⟩

/-- How many more items fit. -/
def room (b : BoundedList α) : Nat := b.limit - b.items.length

/-- The longest prefix of a batch that fits goes behind the items. -/
def append (b : BoundedList α) (batch : List α) : BoundedList α where
  limit := b.limit
  items := b.items ++ batch.take b.room
  length_le := by
    have := b.length_le
    rw [List.length_append, List.length_take, room]
    omega

/-- The list without its first items. -/
def drop (b : BoundedList α) (count : Nat) : BoundedList α where
  limit := b.limit
  items := b.items.drop count
  length_le := by
    have := b.length_le
    rw [List.length_drop]
    omega

def call (b : BoundedList α) : QueueCall α → QueueAnswer α × BoundedList α
  | .push batch =>
    (.pushed (if batch.length ≤ b.room then .ok batch.length else .error (.full b.room)),
      b.append batch)
  | .pop count out =>
    (.popped (if count ≤ b.items.length then .ok count else .error (.empty b.items.length))
        (out ++ b.items.take count),
      b.drop count)
  | .drain => (.drained b.items, empty b.limit)
  | .length => (.length b.items.length, b)
  | .isEmpty => (.isEmpty b.items.isEmpty, b)

end BoundedList

end FlagSidecar
