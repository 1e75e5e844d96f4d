import FlagSidecar.Yaml.Scalar

/-!
# FlagSidecar.Yaml.Token: the tokens of YAML text

Tokens make the structure of text explicit: where blocks begin and end, which follows from indentation,
and which nodes are keys, which shows only at the colon behind them. So a place is kept at every node
that may turn out to be a key, and the tokens for it are put there once it does.

Such a node has to be on one line and within 1024 characters before its colon. One that stands at the
indentation of its block has to be a key.
-/

namespace FlagSidecar.Yaml

inductive Token where
  | streamEnd
  | directive
  | tagDirective (handle target : String)
  | documentStart
  | documentEnd
  | blockSequenceStart
  | blockMappingStart
  | blockEnd
  | flowSequenceStart
  | flowSequenceEnd
  | flowMappingStart
  | flowMappingEnd
  | blockEntry
  | flowEntry
  | key
  | value
  | anchor (name : String)
  | alias (name : String)
  | tag (handle suffix : String)
  | scalar (style : ScalarStyle) (text : String)
deriving DecidableEq

/-- A node that may turn out to be a key. -/
structure KeyPlace where
  /-- How many tokens come before it. -/
  tokens : Nat
  line : Nat
  column : Nat
  index : Nat
  /-- Does it stand where only a key may stand? -/
  required : Bool

/-- The state of reading tokens. -/
structure Scan where
  cursor : Cursor
  /-- The tokens so far, the last one first. -/
  tokens : List Token := []
  count : Nat := 0
  /-- The column of the innermost block, and of those around it. -/
  indent : Int := -1
  indents : List Int := []
  /-- The possible key of the block or flow that we are in, and of those around it. -/
  place : Option KeyPlace := none
  places : List (Option KeyPlace) := []
  /-- May a key begin here? -/
  keyAllowed : Bool := true

namespace Scan

def inFlow (s : Scan) : Bool := !s.places.isEmpty

def push (s : Scan) (t : Token) : Scan := { s with tokens := t :: s.tokens, count := s.count + 1 }

/-- Puts a token where so many tokens come before it. -/
def insertAt (s : Scan) (n : Nat) (t : Token) : Scan :=
  { s with tokens := s.tokens.insertIdx (s.count - n) t, count := s.count + 1 }

/-- Forgets the possible key, unless it has to be one. -/
def dropPlace? (s : Scan) : Option Scan :=
  match s.place with
  | some p => if p.required then none else some { s with place := none }
  | none => some s

/-- Is a possible key too far away by now? -/
def KeyPlace.isStale (c : Cursor) (p : KeyPlace) : Bool := p.line < c.line || p.index + 1024 < c.index

/-- Forgets possible keys that are too far away, unless one has to be a key. -/
def dropStale? (s : Scan) : Option Scan :=
  let stale (p : Option KeyPlace) : Bool := p.any (KeyPlace.isStale s.cursor)
  let lost (p : Option KeyPlace) : Bool := stale p && p.any (·.required)
  if lost s.place ∨ s.places.any lost then none
  else
    let keep (p : Option KeyPlace) : Option KeyPlace := if stale p then none else p
    some { s with place := keep s.place, places := s.places.map keep }

/-- Keeps this place for a possible key. -/
def savePlace? (s : Scan) : Option Scan :=
  if ¬ s.keyAllowed then some s
  else do
    let s ← s.dropPlace?
    let c := s.cursor
    let required := !s.inFlow && s.indent == (c.column : Int)
    some { s with place := some ⟨s.count, c.line, c.column, c.index, required⟩ }

/-- Opens a block at a column, if it is deeper than the innermost one; its token goes where so many
tokens come before it. -/
def rollIndent (s : Scan) (column : Int) (at_ : Nat) (t : Token) : Scan :=
  if ¬ s.inFlow ∧ s.indent < column then
    { s with indent := column, indents := s.indent :: s.indents }.insertAt at_ t
  else s

/-- Closes the blocks that are deeper than a column. -/
def unrollIndent (column : Int) (s : Scan) : Scan :=
  if s.inFlow then s else close column s.indents s
where
  close (column : Int) : List Int → Scan → Scan
    | [], s => s
    | outer :: rest, s =>
      if column < s.indent then close column rest { s.push .blockEnd with indent := outer, indents := rest }
      else s

/-- Blanks, comments and breaks before a token. -/
def toToken : (fuel : Nat) → Scan → Scan
  | 0, s => s
  | fuel + 1, s =>
    let tabs := s.inFlow || !s.keyAllowed
    let c := s.cursor.skipWhile fun x => x == ' ' || (tabs && x == '\t')
    let c := if c.is '#' then c.skipWhile (!isBreak ·) else c
    if c.atBreak then
      toToken fuel { s with cursor := c.next, keyAllowed := s.keyAllowed || !s.inFlow }
    else { s with cursor := c }

/-! ## Single tokens -/

/-- A token of so many characters. -/
def emit (s : Scan) (t : Token) (width : Nat) : Scan :=
  { s.push t with cursor := s.cursor.skip width }

def documentMark? (s : Scan) (t : Token) : Option Scan := do
  let s ← (s.unrollIndent (-1)).dropPlace?
  some ({ s with keyAllowed := false }.emit t 3)

def isNameChar (x : Char) : Bool := x.isAlphanum || x == '_' || x == '-'

/-- A directive: the version of YAML, or what a tag's handle stands for. -/
def directive? (s : Scan) : Option Scan := do
  let s ← (s.unrollIndent (-1)).dropPlace?
  let (name, c) := s.cursor.next.takeWhile isNameChar
  let (text, c) := c.takeWhile (!isBreak ·)
  let words := (String.ofList (text.takeWhile (· ≠ '#'))).splitToList isBlank |>.filter (· ≠ "")
  let t ←
    if name = ['Y', 'A', 'M', 'L'] then
      if words = ["1.1"] ∨ words = ["1.2"] then some Token.directive else none
    else if name = ['T', 'A', 'G'] then
      match words with
      | [handle, target] => some (.tagDirective handle target)
      | _ => none
    else none
  some { s.push t with cursor := c, keyAllowed := false }

def openFlow? (s : Scan) (t : Token) : Option Scan := do
  let s ← s.savePlace?
  let s := { s with places := s.place :: s.places, place := none, keyAllowed := true }
  some (s.emit t 1)

def closeFlow? (s : Scan) (t : Token) : Option Scan := do
  let s ← s.dropPlace?
  let s := match s.places with
    | outer :: rest => { s with place := outer, places := rest }
    | [] => s
  some ({ s with keyAllowed := false }.emit t 1)

def flowEntry? (s : Scan) : Option Scan := do
  let s ← s.dropPlace?
  some ({ s with keyAllowed := true }.emit .flowEntry 1)

def blockEntry? (s : Scan) : Option Scan := do
  if ¬ s.inFlow ∧ ¬ s.keyAllowed then none
  else
    let s := s.rollIndent s.cursor.column s.count .blockSequenceStart
    let s ← s.dropPlace?
    some ({ s with keyAllowed := true }.emit .blockEntry 1)

def key? (s : Scan) : Option Scan := do
  if ¬ s.inFlow ∧ ¬ s.keyAllowed then none
  else
    let s := s.rollIndent s.cursor.column s.count .blockMappingStart
    let s ← s.dropPlace?
    some ({ s with keyAllowed := !s.inFlow }.emit .key 1)

/-- A colon: what stood at the place that was kept is a key. -/
def value? (s : Scan) : Option Scan :=
  match s.place with
  | some p =>
    let s := s.insertAt p.tokens .key
    let s := s.rollIndent p.column p.tokens .blockMappingStart
    some ({ s with place := none, keyAllowed := false }.emit .value 1)
  | none =>
    if ¬ s.inFlow ∧ ¬ s.keyAllowed then none
    else
      let s := s.rollIndent s.cursor.column s.count .blockMappingStart
      some ({ s with keyAllowed := !s.inFlow }.emit .value 1)

/-- An anchor or an alias. -/
def anchor? (s : Scan) (f : String → Token) : Option Scan := do
  let s ← s.savePlace?
  let (name, c) := s.cursor.next.takeWhile isNameChar
  if name.isEmpty ∨ ¬ (c.isGap 0 ∨ c.peek?.any (['?', ':', ',', ']', '}', '%', '@', '\x60'].contains ·)) then none
  else some { s.push (f (String.ofList name)) with cursor := c, keyAllowed := false }

def isTagChar (verbatim : Bool) (x : Char) : Bool :=
  isNameChar x || [';', '/', '?', ':', '@', '&', '=', '+', '$', '.', '!', '~', '*', '\'', '(', ')', '%'].contains x ||
    (verbatim && [',', '[', ']'].contains x)

/-- The handle and the suffix of a tag. -/
def tagParts? (s : Scan) : Option (String × String × Cursor) :=
  let c := s.cursor
  if c.ahead? 1 = some '<' then
    let (uri, c) := (c.skip 2).takeWhile (isTagChar true)
    if uri.isEmpty ∨ ¬ c.is '>' then none else some ("", String.ofList uri, c.next)
  else
    let (name, after) := c.next.takeWhile isNameChar
    if after.is '!' then
      let (suffix, c) := after.next.takeWhile (isTagChar false)
      if suffix.isEmpty then none else some ("!" ++ String.ofList name ++ "!", String.ofList suffix, c)
    else
      let (suffix, c) := c.next.takeWhile (isTagChar false)
      if suffix.isEmpty then some ("", "!", c) else some ("!", String.ofList suffix, c)

def tag? (s : Scan) : Option Scan := do
  let s ← s.savePlace?
  let (handle, suffix, c) ← s.tagParts?
  if c.isGap 0 ∨ (s.inFlow ∧ c.is ',') then
    some { s.push (.tag handle suffix) with cursor := c, keyAllowed := false }
  else none

def block? (s : Scan) (style : ScalarStyle) : Option Scan := do
  let s ← s.dropPlace?
  let (text, c) ← block (style = .folded) s.indent s.cursor.next
  some { s.push (.scalar style (String.ofList text)) with cursor := c, keyAllowed := true }

def quoted? (s : Scan) (double : Bool) : Option Scan := do
  let s ← s.savePlace?
  let (text, c) ← quoted double (s.cursor.rest.length + 1) s.cursor.next
  some { s.push (.scalar .quoted (String.ofList text)) with cursor := c, keyAllowed := false }

def plain? (s : Scan) : Option Scan := do
  let s ← s.savePlace?
  let (text, broken, c) ← plain s.inFlow (s.indent + 1) (s.cursor.rest.length + 1) {} s.cursor
  some { s.push (.scalar .plain (String.ofList text)) with cursor := c, keyAllowed := broken }

/-- Can a plain scalar begin with this character? -/
def beginsPlain (s : Scan) (x : Char) : Bool :=
  let indicators := ['-', '?', ':', ',', '[', ']', '{', '}', '#', '&', '*', '!', '|', '>', '\'', '"', '%', '@', '\x60']
  (!isBlank x && !indicators.contains x) ||
    (x == '-' && !(s.cursor.ahead? 1).any isBlank) ||
    (!s.inFlow && (x == '?' || x == ':') && !s.cursor.isGap 1)

/-- The token that begins with a character. -/
def token? (s : Scan) (x : Char) : Option Scan :=
  let c := s.cursor
  let gap := c.isGap 1
  if c.column = 0 ∧ x = '%' then s.directive?
  else if c.atMark ['-', '-', '-'] then s.documentMark? .documentStart
  else if c.atMark ['.', '.', '.'] then s.documentMark? .documentEnd
  else if x = '[' then s.openFlow? .flowSequenceStart
  else if x = '{' then s.openFlow? .flowMappingStart
  else if x = ']' then s.closeFlow? .flowSequenceEnd
  else if x = '}' then s.closeFlow? .flowMappingEnd
  else if x = ',' then s.flowEntry?
  else if x = '-' ∧ gap then s.blockEntry?
  else if x = '?' ∧ (s.inFlow ∨ gap) then s.key?
  else if x = ':' ∧ (s.inFlow ∨ gap) then s.value?
  else if x = '*' then s.anchor? .alias
  else if x = '&' then s.anchor? .anchor
  else if x = '!' then s.tag?
  else if x = '|' ∧ ¬ s.inFlow then s.block? .literal
  else if x = '>' ∧ ¬ s.inFlow then s.block? .folded
  else if x = '\'' then s.quoted? false
  else if x = '"' then s.quoted? true
  else if s.beginsPlain x then s.plain?
  else none

/-- Reads all tokens; every step takes a character. -/
def run : (fuel : Nat) → Scan → Option (List Token)
  | 0, _ => none
  | fuel + 1, s => do
    let s := s.toToken (s.cursor.rest.length + 1)
    let s ← s.dropStale?
    match s.cursor.peek? with
    | none =>
      let s ← (s.unrollIndent (-1)).dropPlace?
      some (s.push .streamEnd).tokens.reverse
    | some x => do
      let s ← (s.unrollIndent s.cursor.column).token? x
      run fuel s

end Scan

/-- The tokens of text. -/
def Token.ofText? (text : String) : Option (List Token) := do
  let cursor ← Cursor.start? text
  Scan.run (cursor.rest.length + 2) { cursor }

end FlagSidecar.Yaml
