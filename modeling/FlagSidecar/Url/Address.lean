import FlagSidecar.Number.Basic
import FlagSidecar.Text.Hex
import FlagSidecar.Text.Numeral

/-!
# FlagSidecar.Url.Address: numeric addresses

An address of four octets may be written with fewer than four numbers, the last of which then fills the
octets that are left, and each number may be octal or hexadecimal. It is shown as four decimal numbers.

An address of eight pieces may leave out one run of zero pieces, and its last two pieces may be written
as four decimal numbers. It is shown with its first longest run of two or more zero pieces left out.
-/

namespace FlagSidecar.Url

/-- The parts of text between marks; text without a mark is one part. -/
def splitAtEach (isMark : Char → Bool) : List Char → List (List Char)
  | [] => [[]]
  | c :: rest =>
    if isMark c then [] :: splitAtEach isMark rest
    else
      match splitAtEach isMark rest with
      | part :: parts => (c :: part) :: parts
      | [] => [[c]]

/-! ## Four octets -/

/-- The number that digits of a base stand for; no digits stand for zero. -/
def ofBase? (base : Nat) (ds : List Char) : Option Nat :=
  ds.foldlM (fun n d => do
    let v ← Hex.digit? d
    if v < base then some (n * base + v) else none) 0

/-- One number of an address, in the base that its first characters name. -/
def addressNumber? : List Char → Option Nat
  | [] => none
  | '0' :: 'x' :: ds => ofBase? 16 ds
  | '0' :: 'X' :: ds => ofBase? 16 ds
  | '0' :: d :: ds => ofBase? 8 (d :: ds)
  | ds => ofBase? 10 ds

/-- The parts of a name; a point at the end does not make another part. -/
def nameParts (cs : List Char) : List (List Char) :=
  let parts := splitAtEach (· == '.') cs
  if parts.getLast? = some [] ∧ 1 < parts.length then parts.dropLast else parts

/-- Does a name end in a number, so that it has to be an address? -/
def endsInNumber (cs : List Char) : Bool :=
  match (nameParts cs).getLast? with
  | some part => (!part.isEmpty && part.all Numeral.isDigit) || (addressNumber? part).isSome
  | none => false

/-- An address of four octets, as one number. -/
def ipv4? (cs : List Char) : Option Nat := do
  let parts := nameParts cs
  if 4 < parts.length then none
  else
    let numbers ← parts.mapM addressNumber?
    let last ← numbers.getLast?
    let leading := numbers.dropLast
    if 256 ^ (4 - leading.length) ≤ last ∨ leading.any (255 < ·) then none
    else
      let high := leading.foldl (fun n k => n * 256 + k) 0
      some (high * 256 ^ (4 - leading.length) + last)

def ipv4Text (n : Nat) : String :=
  String.intercalate "."
    ([n / 256 ^ 3 % 256, n / 256 ^ 2 % 256, n / 256 % 256, n % 256].map toString)

/-! ## Eight pieces -/

/-- A piece is one to four hexadecimal digits. -/
def piece? (ds : List Char) : Option Nat := if ds.isEmpty ∨ 4 < ds.length then none else ofBase? 16 ds

/-- A decimal octet without zeros in front. -/
def decimalOctet? (ds : List Char) : Option Nat := do
  let n ← ofBase? 10 ds
  if ds.isEmpty ∨ (ds.head? = some '0' ∧ 1 < ds.length) ∨ 255 < n then none else some n

/-- The pieces on one side of what is left out. The last of them may be an address of four octets if
nothing follows. -/
def pieces? (atEnd : Bool) (cs : List Char) : Option (List Nat) :=
  if cs.isEmpty then some []
  else
    let groups := splitAtEach (· == ':') cs
    let last := groups.getLast?.getD []
    if atEnd ∧ last.contains '.' then do
      let front ← groups.dropLast.mapM piece?
      match ← (splitAtEach (· == '.') last).mapM decimalOctet? with
      | [a, b, c, d] => some (front ++ [a * 256 + b, c * 256 + d])
      | _ => none
    else groups.mapM piece?

/-- Splits at the first pair of colons. -/
def splitAtPair : List Char → List Char × Option (List Char)
  | ':' :: ':' :: rest => ([], some rest)
  | c :: rest => let (before, after) := splitAtPair rest; (c :: before, after)
  | [] => ([], none)

/-- An address of eight pieces. -/
def ipv6? (cs : List Char) : Option (List Nat) := do
  match splitAtPair cs with
  | (all, none) =>
    let pieces ← pieces? true all
    if pieces.length = 8 then some pieces else none
  | (before, some after) =>
    let front ← pieces? false before
    let back ← pieces? true after
    let written := front.length + back.length
    if 7 < written then none else some (front ++ List.replicate (8 - written) 0 ++ back)

/-- The first longest run of zeros: where it begins, and its length. -/
def longestZeros (pieces : List Nat) : Nat × Nat :=
  let runs := (List.range pieces.length).map fun i =>
    (i, ((pieces.drop i).takeWhile (· == 0)).length)
  runs.foldl (fun best run => if best.2 < run.2 then run else best) (0, 0)

/-- Hexadecimal digits without zeros in front. -/
def hexText (n : Nat) : String := String.ofList (Nat.toDigits 16 n)

def ipv6Text (pieces : List Nat) : String :=
  let (start, length) := longestZeros pieces
  let shown (ps : List Nat) : String := String.intercalate ":" (ps.map hexText)
  if length < 2 then shown pieces
  else shown (pieces.take start) ++ "::" ++ shown (pieces.drop (start + length))

end FlagSidecar.Url
