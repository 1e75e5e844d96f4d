import FlagSidecar.Number.Basic

/-!
# FlagSidecar.Queue.Capacity: how many slots a queue gets

The number of slots of a queue is a power of two, so that an index wraps by a mask, and one slot always
stays free to tell a full queue from an empty one. A queue that shall hold `n` items therefore gets the
least power of two above `n`, and at least two slots. Sizes are 64-bit words; the greatest capacity is
the greatest power of two among them.
-/

namespace FlagSidecar.Capacity

/-- The greatest power of two that a word holds. -/
def greatest : UInt64 := 0x8000000000000000

/-- The least power of two that is not below a number. -/
def powerAbove (n : Nat) : Nat := if n ≤ 1 then 1 else 2 ^ ((n - 1).log2 + 1)

/-- The least power of two that is not below a word, if a word holds it. -/
def powerAbove? (n : UInt64) : Option UInt64 :=
  if n ≤ greatest then some (powerAbove n.toNat).toUInt64 else none

/-- One more, except that the greatest word stays as it is. -/
def succClamped (n : UInt64) : UInt64 := if n + 1 = 0 then n else n + 1

/-- The slots for a queue that shall hold `size` items. -/
def forSize (size : UInt64) : UInt64 :=
  max 2 ((powerAbove? (succClamped size)).getD greatest)

/-- The slots for a queue that shall have `slots` of them. -/
def forSlots (slots : UInt64) : UInt64 := (powerAbove? (max 2 slots)).getD 2

end FlagSidecar.Capacity
