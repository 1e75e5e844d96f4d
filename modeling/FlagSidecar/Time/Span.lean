/-!
# FlagSidecar.Time.Span: lengths of time

A span is a whole number of nanoseconds. Texts show it in the largest of the units s, ms, µs and ns in
which it is at least one, with the digits after the point that it needs and no more.
-/

namespace FlagSidecar

/-- A length of time, in nanoseconds. -/
structure Span where
  nanos : Nat
deriving DecidableEq, Inhabited

namespace Span

def ofMillis (n : Nat) : Span := ⟨n * 1000000⟩

def ofSeconds (n : Nat) : Span := ⟨n * 1000000000⟩

/-- Whole milliseconds; what is left over is dropped. -/
def millis (s : Span) : Nat := s.nanos / 1000000

/-- Whole seconds; what is left over is dropped. -/
def seconds (s : Span) : Nat := s.nanos / 1000000000

def add (s t : Span) : Span := ⟨s.nanos + t.nanos⟩

/-- A numeral with zeros in front up to a width. -/
def padded (width n : Nat) : String :=
  let digits := toString n
  String.ofList (List.replicate (width - digits.length) '0') ++ digits

/-- A number of units with `places` decimal places, without zeros at the end. -/
def decimal (whole places fraction : Nat) : String :=
  let digits := (padded places fraction).toList.take places
  let digits := (digits.reverse.dropWhile (· == '0')).reverse
  if digits.isEmpty then toString whole else toString whole ++ "." ++ String.ofList digits

def text (s : Span) : String :=
  let n := s.nanos
  if 1000000000 ≤ n then decimal (n / 1000000000) 9 (n % 1000000000) ++ "s"
  else if 1000000 ≤ n then decimal (n / 1000000) 6 (n % 1000000) ++ "ms"
  else if 1000 ≤ n then decimal (n / 1000) 3 (n % 1000) ++ "µs"
  else toString n ++ "ns"

end Span

end FlagSidecar
