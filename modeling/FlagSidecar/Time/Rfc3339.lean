import FlagSidecar.Number.Basic

/-!
# FlagSidecar.Time.Rfc3339: instants written as RFC 3339 text

A text such as `2023-11-14T22:13:20.5+01:00` names a second since 1970. The date and the time are
separated by `T`, `t` or one space, and the offset from universal time has to be there. Fractions of a
second are dropped. A leap second counts as the second before it.
-/

namespace FlagSidecar.Rfc3339

def digit? (c : Char) : Option Nat :=
  if '0' ≤ c ∧ c ≤ '9' then some (c.toNat - '0'.toNat) else none

/-- A number of exactly `width` decimal digits. -/
def digits? : (width : Nat) → List Char → Option (Nat × List Char)
  | 0, cs => some (0, cs)
  | _ + 1, [] => none
  | width + 1, c :: cs => do
    let d ← digit? c
    let (n, rest) ← digits? width cs
    some (d * 10 ^ width + n, rest)

/-- The next character, if it is one of those wanted. -/
def skip? (wanted : List Char) : List Char → Option (List Char)
  | [] => none
  | c :: cs => if wanted.contains c then some cs else none

/-- The days from the first day of 1970 to the first day of a month, in the Gregorian calendar. Years
begin in March here, so that a leap day is the last of its year. -/
def daysToMonth (year month : Nat) : Int :=
  let y : Int := if month ≤ 2 then year - 1 else year
  let m : Int := if month ≤ 2 then month + 9 else month - 3
  365 * y + y / 4 - y / 100 + y / 400 + (153 * m + 2) / 5 - 719468

def daysInMonth (year month : Nat) : Int :=
  if month = 12 then 31 else daysToMonth year (month + 1) - daysToMonth year month

/-- The seconds by which local time is ahead of universal time. -/
def offset? : List Char → Option Int
  | ['Z'] => some 0
  | ['z'] => some 0
  | sign :: rest => do
    let direction : Int ← if sign = '+' then some 1 else if sign = '-' ∨ sign = '−' then some (-1) else none
    let (hours, rest) ← digits? 2 rest
    let rest ← skip? [':'] rest
    let (minutes, rest) ← digits? 2 rest
    if rest.isEmpty ∧ hours ≤ 23 ∧ minutes ≤ 59 then
      some (direction * (hours * 3600 + minutes * 60))
    else none
  | [] => none

/-- The rest after a fraction, if one begins here. -/
def skipFraction? : List Char → Option (List Char)
  | '.' :: c :: rest =>
    if (digit? c).isSome then some (rest.dropWhile fun c => (digit? c).isSome) else none
  | ['.'] => none
  | cs => some cs

/-- The seconds since 1970 of an instant. -/
def seconds? (text : String) : Option Int := do
  let (year, rest) ← digits? 4 text.toList
  let rest ← skip? ['-'] rest
  let (month, rest) ← digits? 2 rest
  let rest ← skip? ['-'] rest
  let (day, rest) ← digits? 2 rest
  let rest ← skip? ['T', 't', ' '] rest
  let (hour, rest) ← digits? 2 rest
  let rest ← skip? [':'] rest
  let (minute, rest) ← digits? 2 rest
  let rest ← skip? [':'] rest
  let (second, rest) ← digits? 2 rest
  let rest ← skipFraction? rest
  let offset ← offset? rest
  if 1 ≤ month ∧ month ≤ 12 ∧ 1 ≤ day ∧ (day : Int) ≤ daysInMonth year month ∧
      hour ≤ 23 ∧ minute ≤ 59 ∧ second ≤ 60 then
    let days := daysToMonth year month + (day - 1)
    some (days * 86400 + hour * 3600 + minute * 60 + min second 59 - offset)
  else none

/-! ## What can be said -/

theorem digit?_lt {c : Char} {d : Nat} (h : digit? c = some d) : d < 10 := by
  unfold digit? at h
  split at h
  next hc =>
    have hle : c.toNat ≤ '9'.toNat := hc.2
    simp only [Option.some.injEq] at h
    have : '9'.toNat = 57 := rfl
    have : '0'.toNat = 48 := rfl
    omega
  next => cases h

/-- A number of so many digits is below that power of ten. -/
theorem digits?_lt {width n : Nat} {cs rest : List Char} (h : digits? width cs = some (n, rest)) :
    n < 10 ^ width := by
  induction width generalizing cs n with
  | zero => cases h; decide
  | succ width ih =>
    cases cs with
    | nil => cases h
    | cons c cs =>
      simp only [digits?, Option.bind_eq_bind, Option.bind_eq_some_iff] at h
      obtain ⟨d, hd, ⟨m, behind⟩, hm, h⟩ := h
      cases h
      have hten : d * 10 ^ width ≤ 9 * 10 ^ width :=
        Nat.mul_le_mul_right _ (Nat.le_of_lt_succ (digit?_lt hd))
      have hm := ih hm
      rw [Nat.pow_succ]
      omega

/-- An offset is less than a day, whichever its direction. -/
theorem offset?_bounded {cs : List Char} {n : Int} (h : offset? cs = some n) : -86400 < n ∧ n < 86400 := by
  unfold offset? at h
  split at h
  next => cases h; decide
  next => cases h; decide
  next sign rest _ _ =>
    -- in either direction less than a day follows
    split at h
    next =>
      simp only [Option.bind_eq_bind, Option.bind_some, Option.bind_eq_some_iff,
        Option.ite_none_right_eq_some, Option.some.injEq] at h
      obtain ⟨⟨hours, rest⟩, -, rest, -, ⟨minutes, rest⟩, -, ⟨-, hhours, hminutes⟩, rfl⟩ := h
      simp only at hhours hminutes ⊢
      omega
    next =>
      split at h
      next =>
        simp only [Option.bind_eq_bind, Option.bind_some, Option.bind_eq_some_iff,
          Option.ite_none_right_eq_some, Option.some.injEq] at h
        obtain ⟨⟨hours, rest⟩, -, rest, -, ⟨minutes, rest⟩, -, ⟨-, hhours, hminutes⟩, rfl⟩ := h
        simp only at hhours hminutes ⊢
        omega
      next => cases h
  next => cases h

/-- A year of four digits is near enough that its seconds fit 64 bits. -/
theorem seconds?_bounded {text : String} {n : Int} (h : seconds? text = some n) :
    -2 ^ 63 ≤ n ∧ n < 2 ^ 63 := by
  simp only [seconds?, Option.bind_eq_bind, Option.bind_eq_some_iff] at h
  obtain ⟨⟨year, rest⟩, hyear, rest, -, ⟨month, rest⟩, -, rest, -, ⟨day, rest⟩, hday, rest, -,
    ⟨hour, rest⟩, -, rest, -, ⟨minute, rest⟩, -, rest, -, ⟨second, rest⟩, -, rest, -, offset, hoffset, h⟩ := h
  have hyear : year < 10 ^ 4 := digits?_lt hyear
  have hday : day < 10 ^ 2 := digits?_lt hday
  have hoffset := offset?_bounded hoffset
  split at h
  next hin =>
    obtain ⟨-, hmonth, -, -, hhour, hminute, -⟩ := hin
    have hmonth : -10000000 ≤ daysToMonth year month ∧ daysToMonth year month ≤ 10000000 := by
      unfold daysToMonth
      simp only
      split <;> omega
    simp only [Option.some.injEq] at h
    omega
  next => cases h

end FlagSidecar.Rfc3339
