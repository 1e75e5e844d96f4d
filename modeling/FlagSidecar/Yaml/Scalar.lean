import FlagSidecar.Text.Hex
import FlagSidecar.Text.Numeral
import FlagSidecar.Yaml.Cursor

/-!
# FlagSidecar.Yaml.Scalar: the text of scalars

A scalar is plain, quoted or a block. Where plain and quoted scalars go over several lines, a single
break is a blank and of several breaks all but the first are kept; blanks around breaks are dropped.
Blocks keep their lines, `|` as they are, `>` folded; the indentation of their first line that is not
empty, or an indicator, says what belongs to them.
-/

namespace FlagSidecar.Yaml

/-- How a scalar is written. -/
inductive ScalarStyle where
  | plain
  | quoted
  | literal
  | folded
deriving DecidableEq

/-- White space between the parts of a scalar. -/
structure Gap where
  /-- The blanks, where there is no break. -/
  blanks : List Char := []
  firstBreak : Option Char := none
  breaks : List Char := []

namespace Gap

/-- What becomes of the white space: blanks stay, and breaks are folded. -/
def fold (g : Gap) : List Char :=
  match g.firstBreak with
  | none => g.blanks ++ g.breaks
  | some b => if b = '\n' then (if g.breaks.isEmpty then [' '] else g.breaks) else b :: g.breaks

def broken (g : Gap) : Bool := g.firstBreak.isSome

def addBreak (g : Gap) (b : Char) : Gap :=
  if g.broken then { g with breaks := g.breaks ++ [b] } else { g with blanks := [], firstBreak := some b }

end Gap

/-! ## Plain scalars -/

/-- Does a plain scalar end at this character, in this context? -/
def endsPlain (inFlow : Bool) (c : Cursor) : Bool :=
  (c.is ':' && c.isGap 1) || (inFlow && [',', '[', ']', '{', '}'].any (c.is ·))

/-- Is there a colon here that no plain scalar in a flow may have? -/
def forbiddenColon (inFlow : Bool) (c : Cursor) : Bool :=
  inFlow && c.is ':' && (c.ahead? 1).any ([',', '?', '[', ']', '{', '}'].contains ·)

/-- A part of a plain scalar without white space. -/
def plainPart (inFlow : Bool) : (fuel : Nat) → Cursor → Option (List Char × Cursor)
  | 0, _ => none
  | fuel + 1, c =>
    match c.peek? with
    | none => some ([], c)
    | some x =>
      if isBlank x ∨ isBreak x then some ([], c)
      else if forbiddenColon inFlow c then none
      else if endsPlain inFlow c then some ([], c)
      else do
        let (xs, c) ← plainPart inFlow fuel c.next
        some (x :: xs, c)

/-- White space within a plain scalar; a tab may not stand for indentation. -/
def plainGap (indent : Int) : (fuel : Nat) → Gap → Cursor → Option (Gap × Cursor)
  | 0, _, _ => none
  | fuel + 1, g, c =>
    match c.peek? with
    | none => some (g, c)
    | some x =>
      if isBlank x then
        if g.broken ∧ (c.column : Int) < indent ∧ x = '\t' then none
        else plainGap indent fuel (if g.broken then g else { g with blanks := g.blanks ++ [x] }) c.next
      else if isBreak x then plainGap indent fuel (g.addBreak x) c.next
      else some (g, c)

/-- A plain scalar from its first character, with the white space before the next part; also says
whether it was followed by a break. -/
def plain (inFlow : Bool) (indent : Int) :
    (fuel : Nat) → (gap : Gap) → Cursor → Option (List Char × Bool × Cursor)
  | 0, _, _ => none
  | fuel + 1, gap, c =>
    if c.atDocumentMark ∨ c.is '#' then some ([], gap.broken, c)
    else do
      let (part, c) ← plainPart inFlow (c.rest.length + 1) c
      if part.isEmpty then some ([], gap.broken, c)
      else
        let text := gap.fold ++ part
        if c.atBlank ∨ c.atBreak then
          let (gap, c) ← plainGap indent (c.rest.length + 1) {} c
          if ¬ inFlow ∧ (c.column : Int) < indent then some (text, gap.broken, c)
          else
            let (more, broken, c) ← plain inFlow indent fuel gap c
            some (text ++ more, broken, c)
        else some (text, false, c)

/-! ## Quoted scalars -/

/-- The character of an escape that is one letter. -/
def escape? (x : Char) : Option Char :=
  [('0', '\x00'), ('a', '\x07'), ('b', '\x08'), ('t', '\t'), ('\t', '\t'), ('n', '\n'), ('v', '\x0b'),
    ('f', '\x0c'), ('r', '\r'), ('e', '\x1b'), (' ', ' '), ('"', '"'), ('/', '/'), ('\\', '\\'),
    ('N', '\x85'), ('_', '\xa0'), ('L', '\u2028'), ('P', '\u2029')].lookup x

/-- How many hexadecimal digits follow the letter of an escape. -/
def codeLength? (x : Char) : Option Nat := [('x', 2), ('u', 4), ('U', 8)].lookup x

/-- The character of a number in hexadecimal digits. -/
def charOfHex? (ds : List Char) : Option Char := do
  let n ← ds.foldlM (fun n d => (Hex.digit? d).map (n * 16 + ·)) 0
  if h : n.isValidChar then some (Char.ofNatAux n h) else none

/-- What stands in a quoted scalar at one place. -/
inductive QuotedItem where
  | char (x : Char)
  /-- A break that an escape takes away. -/
  | joint
  | close

/-- One item of a quoted scalar, and the place behind it. White space is no item. -/
def quotedItem? (double : Bool) (c : Cursor) : Option (QuotedItem × Cursor) := do
  let x ← c.peek?
  if ¬ double ∧ x = '\'' then
    if c.ahead? 1 = some '\'' then some (.char '\'', c.skip 2) else some (.close, c.next)
  else if double ∧ x = '"' then some (.close, c.next)
  else if double ∧ x = '\\' then
    let e ← c.ahead? 1
    if isBreak e then some (.joint, c.skip 2)
    else
      match codeLength? e with
      | some n =>
        let c := c.skip 2
        let ds := c.rest.take n
        if ds.length = n then some (.char (← charOfHex? ds), c.skip n) else none
      | none => some (.char (← escape? e), c.skip 2)
  else some (.char x, c.next)

/-- White space within a quoted scalar. -/
def quotedGap : (fuel : Nat) → (afterJoint : Bool) → Gap → Cursor → Gap × Cursor
  | 0, _, g, c => (g, c)
  | fuel + 1, afterJoint, g, c =>
    match c.peek? with
    | none => (g, c)
    | some x =>
      if isBlank x then
        let kept := if g.broken || afterJoint then g else { g with blanks := g.blanks ++ [x] }
        quotedGap fuel afterJoint kept c.next
      else if isBreak x then
        let g := if afterJoint then { g with breaks := g.breaks ++ [x] } else g.addBreak x
        quotedGap fuel afterJoint g c.next
      else (g, c)

/-- A quoted scalar from behind its opening quote. -/
def quoted (double : Bool) : (fuel : Nat) → Cursor → Option (List Char × Cursor)
  | 0, _ => none
  | fuel + 1, c =>
    if c.atDocumentMark then none
    else if c.atBlank ∨ c.atBreak then do
      let (g, c) := quotedGap (c.rest.length + 1) false {} c
      let (text, c) ← quoted double fuel c
      some (g.fold ++ text, c)
    else
      match quotedItem? double c with
      | none => none
      | some (.close, c) => some ([], c)
      | some (.char x, c) => do
        let (text, c) ← quoted double fuel c
        some (x :: text, c)
      | some (.joint, c) => do
        let (g, c) := quotedGap (c.rest.length + 1) true {} c
        let (text, c) ← quoted double fuel c
        some (g.fold ++ text, c)

/-! ## Blocks -/

/-- What becomes of the breaks at the end of a block. -/
inductive Chomping where
  | strip
  | clip
  | keep

/-- The chomping and the indentation in the first line of a block. -/
def blockHeader (c : Cursor) : Option (Chomping × Nat × Cursor) :=
  let chomping (c : Cursor) : Option (Chomping × Cursor) :=
    if c.is '+' then some (.keep, c.next) else if c.is '-' then some (.strip, c.next) else none
  let increment (c : Cursor) : Option (Option (Nat × Cursor)) :=
    match c.peek? with
    | none => some none
    | some x =>
      if ¬ Numeral.isDigit x then some none
      else if x = '0' then none
      else some (some (Numeral.digitValue x, c.next))
  match chomping c with
  | some (k, c) =>
    match increment c with
    | none => none
    | some none => some (k, 0, c)
    | some (some (n, c)) => some (k, n, c)
  | none =>
    match increment c with
    | none => none
    | some none => some (.clip, 0, c)
    | some (some (n, c)) =>
      match chomping c with
      | some (k, c) => some (k, n, c)
      | none => some (.clip, n, c)

/-- Indentation and empty lines within a block: the breaks, the indentation reached and the deepest that
was seen. An indentation of zero is one that is not known yet. -/
def blockBreaks (indent : Nat) :
    (fuel : Nat) → (deepest : Nat) → Cursor → Option (List Char × Nat × Cursor)
  | 0, _, _ => none
  | fuel + 1, deepest, c =>
    let c := if indent = 0 then c.skipWhile (· == ' ')
      else c.skip (min (indent - c.column) (c.rest.takeWhile (· == ' ')).length)
    let deepest := max deepest c.column
    if (indent = 0 ∨ c.column < indent) ∧ c.is '\t' then none
    else
      match c.peek? with
      | some x =>
        if isBreak x then do
          let (breaks, deepest, c) ← blockBreaks indent fuel deepest c.next
          some (x :: breaks, deepest, c)
        else some ([], deepest, c)
      | none => some ([], deepest, c)

/-- The lines of a block from the first that is not empty. -/
def blockLines (folded : Bool) (indent : Nat) :
    (fuel : Nat) → (lead breaks : List Char) → (leadBlank : Bool) → Cursor →
      Option (List Char × List Char × List Char × Cursor)
  | 0, _, _, _, _ => none
  | fuel + 1, lead, breaks, leadBlank, c =>
    if c.column = indent ∧ ¬ c.atEnd then do
      let blank := c.atBlank
      let start :=
        if folded ∧ lead = ['\n'] ∧ ¬ leadBlank ∧ ¬ blank then
          (if breaks.isEmpty then [' '] else []) ++ breaks
        else lead ++ breaks
      let (line, c) := c.takeWhile (!isBreak ·)
      let (lead, c) := match c.peek? with
        | some x => ([x], c.next)
        | none => ([], c)
      let (breaks, _, c) ← blockBreaks indent (c.rest.length + 1) 0 c
      let (text, lead, breaks, c) ← blockLines folded indent fuel lead breaks blank c
      some (start ++ line ++ text, lead, breaks, c)
    else some ([], lead, breaks, c)

/-- A block from behind its indicator, within an indentation. -/
def block (folded : Bool) (outer : Int) (c : Cursor) : Option (List Char × Cursor) := do
  let (chomping, increment, c) ← blockHeader c
  let c := c.skipWhile isBlank
  let c := if c.is '#' then c.skipWhile (!isBreak ·) else c
  if ¬ c.atEnd ∧ ¬ c.atBreak then none
  else
    let c := c.next
    let fuel := c.rest.length + 1
    let least := (max 1 (outer + 1)).toNat
    let known := if increment = 0 then 0 else ((max 0 outer) + increment).toNat
    let (breaks, deepest, c) ← blockBreaks known fuel 0 c
    let indent := if known = 0 then max least deepest else known
    let (text, lead, breaks, c) ← blockLines folded indent fuel [] breaks false c
    some (text ++ (match chomping with
      | .strip => []
      | .clip => lead
      | .keep => lead ++ breaks), c)

end FlagSidecar.Yaml
