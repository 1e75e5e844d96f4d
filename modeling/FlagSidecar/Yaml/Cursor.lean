/-!
# FlagSidecar.Yaml.Cursor: a place in YAML text

Text is read as characters. Line breaks of any of the usual kinds are one kind once the text has been
prepared, the line and paragraph separators of Unicode excepted, which stay what they are where a scalar
keeps its breaks. Text with control characters is refused.
-/

namespace FlagSidecar.Yaml

/-- A place in text: what is left, and the line and column of its first character. -/
structure Cursor where
  rest : List Char
  line : Nat
  column : Nat
  /-- How many characters come before. -/
  index : Nat

/-- May a character occur in YAML text? -/
def isAllowed (c : Char) : Bool :=
  let n := c.toNat
  n == 0x09 || n == 0x0a || n == 0x0d || (0x20 ≤ n && n ≤ 0x7e) || n == 0x85 ||
    (0xa0 ≤ n && n ≤ 0xd7ff) || (0xe000 ≤ n && n ≤ 0xfffd) || 0x10000 ≤ n

/-- Makes the line breaks of text one kind. -/
def unifyBreaks : List Char → List Char
  | [] => []
  | '\r' :: '\n' :: rest => '\n' :: unifyBreaks rest
  | c :: rest => (if c = '\r' ∨ c = '\x85' then '\n' else c) :: unifyBreaks rest

/-- The start of text, if all of its characters are allowed. A mark of byte order in front is passed
over, but it takes up a column. -/
def Cursor.start? (text : String) : Option Cursor :=
  let cs := text.toList
  if cs.all isAllowed then
    match unifyBreaks cs with
    | '\ufeff' :: rest => some ⟨rest, 0, 1, 1⟩
    | cs => some ⟨cs, 0, 0, 0⟩
  else none

def isBlank (c : Char) : Bool := c == ' ' || c == '\t'

def isBreak (c : Char) : Bool := c == '\n' || c == '\u2028' || c == '\u2029'

namespace Cursor

def peek? (c : Cursor) : Option Char := c.rest.head?

/-- The character so many places on. -/
def ahead? (c : Cursor) (n : Nat) : Option Char := c.rest[n]?

def is (c : Cursor) (x : Char) : Bool := c.peek? == some x

/-- Is there a blank, a break or the end so many places on? -/
def isGap (c : Cursor) (n : Nat) : Bool :=
  match c.ahead? n with
  | none => true
  | some x => isBlank x || isBreak x

def atEnd (c : Cursor) : Bool := c.rest.isEmpty

def atBlank (c : Cursor) : Bool := c.peek?.any isBlank

def atBreak (c : Cursor) : Bool := c.peek?.any isBreak

/-- One character on; a break begins a line. -/
def next (c : Cursor) : Cursor :=
  match c.rest with
  | [] => c
  | x :: rest =>
    if isBreak x then ⟨rest, c.line + 1, 0, c.index + 1⟩ else ⟨rest, c.line, c.column + 1, c.index + 1⟩

def skip (c : Cursor) (n : Nat) : Cursor := n.fold (fun _ _ c => c.next) c

/-- The characters here as long as they are of a kind, and the place behind them. -/
def takeWhile (p : Char → Bool) (c : Cursor) : List Char × Cursor :=
  let taken := c.rest.takeWhile p
  (taken, c.skip taken.length)

/-- The place behind the characters of a kind. -/
def skipWhile (p : Char → Bool) (c : Cursor) : Cursor := (c.takeWhile p).2

/-- Does a mark of three characters stand here at the start of a line? -/
def atMark (c : Cursor) (mark : List Char) : Bool :=
  c.column == 0 && c.rest.take 3 == mark && c.isGap 3

/-- Does a document begin or end here? -/
def atDocumentMark (c : Cursor) : Bool := c.atMark ['-', '-', '-'] || c.atMark ['.', '.', '.']

end Cursor

end FlagSidecar.Yaml
