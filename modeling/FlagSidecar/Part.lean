import FlagSidecar.Time.Span

/-!
# FlagSidecar.Part: what cannot be made in every size

What a part is made of has a limit of its own: places are counted in a word, octets in one piece in a signed
one, and a clock ends at some instant. To ask for more than the limit is a panic. That there is as much as
may be asked for is taken for granted.
-/

namespace FlagSidecar

/-- A part, by the number that it is made for. -/
inductive Part where
  /-- Places for connections. -/
  | places (count : Nat)
  /-- A buffer of so many octets. -/
  | buffer (size : Nat)
  /-- A ring of so many slots, each of so many octets. -/
  | ring (slots slotSize : Nat)
  /-- A timer that is set at an instant, for a period later and every period from then. -/
  | timer (clock period : Span)
deriving DecidableEq

namespace Part

/-- The most places that are counted: three bits of a word are for other use. -/
def placesLimit : Nat := (2 ^ 64 - 1) / 8

/-- The most octets in one piece, those that a signed word counts. -/
def octetsLimit : Nat := 2 ^ 63 - 1

/-- The last second that a clock can show. -/
def secondsLimit : Nat := 2 ^ 63 - 1

/-- The part is within the limits of what it is made of. If it is not, making it is a panic. -/
def Fits : Part → Prop
  | places count => count ≤ placesLimit
  | buffer size => size ≤ octetsLimit
  | ring slots slotSize => slots * slotSize ≤ octetsLimit
  | timer clock period => period ≠ ⟨0⟩ ∧ (clock.add period).seconds ≤ secondsLimit

instance : DecidablePred Fits
  | places count => inferInstanceAs (Decidable (count ≤ placesLimit))
  | buffer size => inferInstanceAs (Decidable (size ≤ octetsLimit))
  | ring slots slotSize => inferInstanceAs (Decidable (slots * slotSize ≤ octetsLimit))
  | timer clock period =>
    inferInstanceAs (Decidable (period ≠ ⟨0⟩ ∧ (clock.add period).seconds ≤ secondsLimit))

end Part

end FlagSidecar
