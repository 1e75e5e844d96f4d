import FlagSidecar.Json.Number
import FlagSidecar.Text.Hex

/-!
# FlagSidecar.Json.Value: JSON text and its values

`Value.print` writes a value without blanks, `Value.printPretty` with one entry a line. `Value.read?`
reads text that is one value and nothing else but blanks.

A token that is well formed but stands for nothing that can be held, a string that escapes half a
surrogate pair or a number beyond the doubles, is read as `unreadable`: it does no harm where a value is
passed over, and no typed reader accepts it.
-/

namespace FlagSidecar.Json

/-- A JSON value. Objects keep their entries in order, repeated keys included. -/
inductive Value where
  | null
  | bool (b : Bool)
  | number (n : Number)
  | text (s : String)
  | array (items : List Value)
  | object (entries : List (String × Value))
  | unreadable

instance : Inhabited Value := ⟨.null⟩

namespace Value

/-! ## Writing -/

/-- One character inside quotes. -/
def escape (c : Char) : List Char :=
  if c = '"' then ['\\', '"']
  else if c = '\\' then ['\\', '\\']
  else if c = '\x08' then ['\\', 'b']
  else if c = '\x0c' then ['\\', 'f']
  else if c = '\n' then ['\\', 'n']
  else if c = '\r' then ['\\', 'r']
  else if c = '\t' then ['\\', 't']
  else if c.toNat < 32 then
    ['\\', 'u', '0', '0', Hex.digit (c.toNat / 16), Hex.digit (c.toNat % 16)]
  else [c]

/-- A text in quotes. -/
def quote (s : String) : List Char := '"' :: s.toList.flatMap escape ++ ['"']

mutual

/-- The text of a value, without blanks. -/
def print : Value → List Char
  | null => ['n', 'u', 'l', 'l']
  | bool true => ['t', 'r', 'u', 'e']
  | bool false => ['f', 'a', 'l', 's', 'e']
  | number n => n.print
  | text s => quote s
  | array [] => ['[', ']']
  | array (item :: rest) => '[' :: print item ++ printItems rest
  | object [] => ['{', '}']
  | object ((key, value) :: rest) => '{' :: quote key ++ ':' :: print value ++ printEntries rest
  | unreadable => ['n', 'u', 'l', 'l']

/-- The items after the first, and the end of the array. -/
def printItems : List Value → List Char
  | [] => [']']
  | item :: rest => ',' :: print item ++ printItems rest

/-- The entries after the first, and the end of the object. -/
def printEntries : List (String × Value) → List Char
  | [] => ['}']
  | (key, value) :: rest => ',' :: quote key ++ ':' :: print value ++ printEntries rest

end

/-- A new line at a depth of nesting, two blanks a level. -/
def newline (depth : Nat) : List Char := '\n' :: List.replicate (2 * depth) ' '

mutual

/-- The text of a value with one entry a line. -/
def printPretty (depth : Nat) : Value → List Char
  | array (item :: rest) =>
    '[' :: newline (depth + 1) ++ printPretty (depth + 1) item ++ printPrettyItems depth rest
  | object ((key, value) :: rest) =>
    '{' :: newline (depth + 1) ++ quote key ++ [':', ' '] ++ printPretty (depth + 1) value ++
      printPrettyEntries depth rest
  | array [] => ['[', ']']
  | object [] => ['{', '}']
  | null => ['n', 'u', 'l', 'l']
  | bool true => ['t', 'r', 'u', 'e']
  | bool false => ['f', 'a', 'l', 's', 'e']
  | number n => n.print
  | text s => quote s
  | unreadable => ['n', 'u', 'l', 'l']

def printPrettyItems (depth : Nat) : List Value → List Char
  | [] => newline depth ++ [']']
  | item :: rest =>
    ',' :: newline (depth + 1) ++ printPretty (depth + 1) item ++ printPrettyItems depth rest

def printPrettyEntries (depth : Nat) : List (String × Value) → List Char
  | [] => newline depth ++ ['}']
  | (key, value) :: rest =>
    ',' :: newline (depth + 1) ++ quote key ++ [':', ' '] ++ printPretty (depth + 1) value ++
      printPrettyEntries depth rest

end

def toText (v : Value) : String := String.ofList v.print

def toPrettyText (v : Value) : String := String.ofList (v.printPretty 0)

/-! ## Reading -/

def isBlank (c : Char) : Bool := c == ' ' || c == '\n' || c == '\r' || c == '\t'

def skipBlanks (cs : List Char) : List Char := cs.dropWhile isBlank

/-- Four hexadecimal digits. -/
def unit? : List Char → Option (Nat × List Char)
  | a :: b :: c :: d :: rest => do
    let a ← Hex.digit? a
    let b ← Hex.digit? b
    let c ← Hex.digit? c
    let d ← Hex.digit? d
    some (((a * 16 + b) * 16 + c) * 16 + d, rest)
  | _ => none

/-- What a string token holds: characters, and halves of surrogate pairs. -/
inductive Unit where
  | char (c : Char)
  | half (n : Nat)

def Unit.ofCode (n : Nat) : Unit :=
  if 0xd800 ≤ n ∧ n < 0xe000 then .half n else .char (Char.ofNat n)

/-- The character of an escape other than `\u`. -/
def simpleEscape? (c : Char) : Option Char :=
  if c = '"' ∨ c = '\\' ∨ c = '/' then some c
  else if c = 'b' then some '\x08'
  else if c = 'f' then some '\x0c'
  else if c = 'n' then some '\n'
  else if c = 'r' then some '\r'
  else if c = 't' then some '\t'
  else none

/-- The units of a string up to its closing quote; control characters have to be escaped. -/
def units? : (fuel : Nat) → List Char → Option (List Unit × List Char)
  | 0, _ => none
  | _, [] => none
  | fuel + 1, c :: rest =>
    if c = '"' then some ([], rest)
    else if c.toNat < 32 then none
    else if c = '\\' then
      match rest with
      | [] => none
      | e :: rest =>
        if e = 'u' then do
          let (n, rest) ← unit? rest
          let (units, rest) ← units? fuel rest
          some (.ofCode n :: units, rest)
        else do
          let e ← simpleEscape? e
          let (units, rest) ← units? fuel rest
          some (.char e :: units, rest)
    else do
      let (units, rest) ← units? fuel rest
      some (.char c :: units, rest)

/-- The characters of units; two halves that make a pair are one character, others are none. -/
def ofUnits? : List Unit → Option (List Char)
  | [] => some []
  | .char c :: rest => (ofUnits? rest).map (c :: ·)
  | .half h :: .half l :: rest =>
    if h < 0xdc00 ∧ 0xdc00 ≤ l then
      (ofUnits? rest).map (Char.ofNat (0x10000 + (h - 0xd800) * 0x400 + (l - 0xdc00)) :: ·)
    else none
  | .half _ :: _ => none

/-- A string from behind its opening quote; none inside if it is no text. -/
def readString (cs : List Char) : Option (Option String × List Char) := do
  let (units, rest) ← units? (cs.length + 1) cs
  some ((ofUnits? units).map String.ofList, rest)

def ofText? : Option String → Value
  | some s => .text s
  | none => .unreadable

/-- The rest of text after a word. -/
def afterWord? : List Char → List Char → Option (List Char)
  | [], cs => some cs
  | w :: ws, c :: cs => if w = c then afterWord? ws cs else none
  | _ :: _, [] => none

/-- An object of entries, unless one of its keys is no text. -/
def ofEntries (entries : List (Option String × Value)) : Value :=
  match entries.mapM fun (key, value) => key.map (·, value) with
  | some entries => .object entries
  | none => .unreadable

mutual

/-- One value off the front of text, after blanks. -/
def readValue : (fuel : Nat) → List Char → Option (Value × List Char)
  | 0, _ => none
  | fuel + 1, cs =>
    match skipBlanks cs with
    | [] => none
    | '"' :: rest => (readString rest).map fun (s, rest) => (ofText? s, rest)
    | '[' :: rest =>
      match skipBlanks rest with
      | ']' :: rest => some (.array [], rest)
      | rest => do
        let (items, rest) ← readItems fuel rest
        some (.array items, rest)
    | '{' :: rest =>
      match skipBlanks rest with
      | '}' :: rest => some (.object [], rest)
      | rest => do
        let (entries, rest) ← readEntries fuel rest
        some (ofEntries entries, rest)
    | 'n' :: rest => (afterWord? ['u', 'l', 'l'] rest).map (Value.null, ·)
    | 't' :: rest => (afterWord? ['r', 'u', 'e'] rest).map (Value.bool true, ·)
    | 'f' :: rest => (afterWord? ['a', 'l', 's', 'e'] rest).map (Value.bool false, ·)
    | cs => do
      let (numerals, rest) ← Numerals.read? cs
      some (match numerals.number with
        | some n => .number n
        | none => .unreadable, rest)

/-- The items of an array from the first, and its end. -/
def readItems : (fuel : Nat) → List Char → Option (List Value × List Char)
  | 0, _ => none
  | fuel + 1, cs => do
    let (item, rest) ← readValue fuel cs
    match skipBlanks rest with
    | ']' :: rest => some ([item], rest)
    | ',' :: rest => do
      let (items, rest) ← readItems fuel rest
      some (item :: items, rest)
    | _ => none

/-- The entries of an object from the first, and its end. -/
def readEntries : (fuel : Nat) → List Char → Option (List (Option String × Value) × List Char)
  | 0, _ => none
  | fuel + 1, cs =>
    match skipBlanks cs with
    | '"' :: rest => do
      let (key, rest) ← readString rest
      match skipBlanks rest with
      | ':' :: rest => do
        let (value, rest) ← readValue fuel rest
        match skipBlanks rest with
        | '}' :: rest => some ([(key, value)], rest)
        | ',' :: rest => do
          let (entries, rest) ← readEntries fuel rest
          some ((key, value) :: entries, rest)
        | _ => none
      | _ => none
    | _ => none

end

/-- Reads text that is one value. Every step of the reader takes a character, so the length bounds it. -/
def read? (text : String) : Option Value := do
  let cs := text.toList
  let (value, rest) ← readValue (2 * cs.length + 2) cs
  if (skipBlanks rest).isEmpty then some value else none

end Value

end FlagSidecar.Json
