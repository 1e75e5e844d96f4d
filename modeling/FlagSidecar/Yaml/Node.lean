import FlagSidecar.Yaml.Token

/-!
# FlagSidecar.Yaml.Node: what YAML text says

Text holds at most one document, which is a node: a scalar, a sequence or a mapping. An alias stands for
the node that was last given its name; an alias within that node itself stands for nothing.
-/

namespace FlagSidecar.Yaml

inductive Node where
  /-- No document at all. -/
  | missing
  | scalar (tag : Option String) (style : ScalarStyle) (text : String)
  | sequence (tag : Option String) (items : List Node)
  | mapping (tag : Option String) (entries : List (Node × Node))
  /-- An alias for a node that it is a part of. -/
  | cycle

instance : Inhabited Node := ⟨.missing⟩

/-- The state of reading nodes: the tokens left, and the nodes that have names. -/
structure Parse where
  tokens : List Token
  anchors : List (String × Node) := []
  /-- What handles of tags stand for. -/
  handles : List (String × String) := [("!!", "tag:yaml.org,2002:"), ("!", "!")]

namespace Node

/-- The node where nothing is written. -/
def empty (tag : Option String) : Node := .scalar tag .plain ""

abbrev Reader (α : Type) := Parse → Option (α × Parse)

def peek? (p : Parse) : Option Token := p.tokens.head?

def skip (p : Parse) : Parse := { p with tokens := p.tokens.tail }

/-- Is one of these tokens next? -/
def at_ (p : Parse) (ts : List Token) : Bool := (peek? p).any (ts.contains ·)

/-- The names and tags before a node. -/
def properties : (fuel : Nat) → Option String → Option String → Parse →
    Option (Option String × Option String × Parse)
  | 0, anchor, tag, p => some (anchor, tag, p)
  | fuel + 1, anchor, tag, p =>
    match peek? p, anchor, tag with
    | some (.anchor name), none, _ => properties fuel (some name) tag (skip p)
    | some (.tag handle suffix), _, none =>
      if handle.isEmpty then properties fuel anchor (some suffix) (skip p)
      else do
        let start ← p.handles.lookup handle
        properties fuel anchor (some (start ++ suffix)) (skip p)
    | _, _, _ => some (anchor, tag, p)

/-- Gives a node its name. -/
def named (anchor : Option String) (node : Node) (p : Parse) : Node × Parse :=
  match anchor with
  | none => (node, p)
  | some name => (node, { p with anchors := (name, node) :: p.anchors })

mutual

/-- A node. In a block it may be a block; as a value it may be a sequence that is not indented. -/
def read (block indentless : Bool) : (fuel : Nat) → Reader Node
  | 0, _ => none
  | fuel + 1, p =>
    match peek? p with
    | some (.alias name) => do
      let node ← p.anchors.lookup name
      some (node, skip p)
    | _ => do
      let (anchor, tag, p) ← properties 2 none none p
      let p := match anchor with
        | some name => { p with anchors := (name, .cycle) :: p.anchors }
        | none => p
      let (node, p) ← match peek? p with
        | some .blockEntry =>
          if indentless then do
            let (items, p) ← readIndentless fuel p
            some (Node.sequence tag items, p)
          else if anchor.isSome ∨ tag.isSome then some (empty tag, p) else none
        | some (.scalar style text) => some (.scalar tag style text, skip p)
        | some .flowSequenceStart => do
          let (items, p) ← readFlowItems true fuel (skip p)
          some (.sequence tag items, p)
        | some .flowMappingStart => do
          let (entries, p) ← readFlowEntries true fuel (skip p)
          some (.mapping tag entries, p)
        | some .blockSequenceStart =>
          if block then do
            let (items, p) ← readItems fuel (skip p)
            some (.sequence tag items, p)
          else if anchor.isSome ∨ tag.isSome then some (empty tag, p) else none
        | some .blockMappingStart =>
          if block then do
            let (entries, p) ← readEntries fuel (skip p)
            some (.mapping tag entries, p)
          else if anchor.isSome ∨ tag.isSome then some (empty tag, p) else none
        | _ => if anchor.isSome ∨ tag.isSome then some (empty tag, p) else none
      some (named anchor node p)

/-- A node, unless one of these tokens says that there is none. -/
def readUnless (ends : List Token) (block indentless : Bool) : (fuel : Nat) → Reader Node
  | 0, _ => none
  | fuel + 1, p => if at_ p ends then some (empty none, p) else read block indentless fuel p

/-- The items of a block sequence. -/
def readItems : (fuel : Nat) → Reader (List Node)
  | 0, _ => none
  | fuel + 1, p =>
    match peek? p with
    | some .blockEntry => do
      let (item, p) ← readUnless [.blockEntry, .blockEnd] true false fuel (skip p)
      let (items, p) ← readItems fuel p
      some (item :: items, p)
    | some .blockEnd => some ([], skip p)
    | _ => none

/-- The items of a sequence that is indented as the mapping around it. -/
def readIndentless : (fuel : Nat) → Reader (List Node)
  | 0, _ => none
  | fuel + 1, p =>
    match peek? p with
    | some .blockEntry => do
      let (item, p) ← readUnless [.blockEntry, .key, .value, .blockEnd] true false fuel (skip p)
      let (items, p) ← readIndentless fuel p
      some (item :: items, p)
    | _ => some ([], p)

/-- The entries of a block mapping. -/
def readEntries : (fuel : Nat) → Reader (List (Node × Node))
  | 0, _ => none
  | fuel + 1, p =>
    match peek? p with
    | some .blockEnd => some ([], skip p)
    | some .key => do
      let (key, p) ← readUnless [.key, .value, .blockEnd] true true fuel (skip p)
      let (value, p) ← readValue fuel p
      let (entries, p) ← readEntries fuel p
      some ((key, value) :: entries, p)
    | some .value => do
      let (value, p) ← readValue fuel p
      let (entries, p) ← readEntries fuel p
      some ((empty none, value) :: entries, p)
    | _ => none

/-- The value of an entry of a block mapping. -/
def readValue : (fuel : Nat) → Reader Node
  | 0, _ => none
  | fuel + 1, p =>
    if at_ p [.value] then readUnless [.key, .value, .blockEnd] true true fuel (skip p)
    else some (empty none, p)

/-- The items of a flow sequence; an entry of a mapping may be one. -/
def readFlowItems (first : Bool) : (fuel : Nat) → Reader (List Node)
  | 0, _ => none
  | fuel + 1, p =>
    if at_ p [.flowSequenceEnd] then some ([], skip p)
    else do
      let p ← if first then some p else if at_ p [.flowEntry] then some (skip p) else none
      if at_ p [.flowSequenceEnd] then some ([], skip p)
      else
        let (item, p) ← if at_ p [.key] then do
            let (key, p) ← readUnless [.value, .flowEntry, .flowSequenceEnd] false false fuel (skip p)
            let (value, p) ← readFlowValue .flowSequenceEnd fuel p
            some (Node.mapping none [(key, value)], p)
          else read false false fuel p
        let (items, p) ← readFlowItems false fuel p
        some (item :: items, p)

/-- The entries of a flow mapping; a node without a colon is a key without a value. -/
def readFlowEntries (first : Bool) : (fuel : Nat) → Reader (List (Node × Node))
  | 0, _ => none
  | fuel + 1, p =>
    if at_ p [.flowMappingEnd] then some ([], skip p)
    else do
      let p ← if first then some p else if at_ p [.flowEntry] then some (skip p) else none
      if at_ p [.flowMappingEnd] then some ([], skip p)
      else
        let (entry, p) ← if at_ p [.key] then do
            let (key, p) ← readUnless [.value, .flowEntry, .flowMappingEnd] false false fuel (skip p)
            let (value, p) ← readFlowValue .flowMappingEnd fuel p
            some ((key, value), p)
          else do
            let (key, p) ← read false false fuel p
            some ((key, empty none), p)
        let (entries, p) ← readFlowEntries false fuel p
        some (entry :: entries, p)

/-- The value of an entry in a flow. -/
def readFlowValue (close : Token) : (fuel : Nat) → Reader Node
  | 0, _ => none
  | fuel + 1, p =>
    if at_ p [.value] then readUnless [.flowEntry, close] false false fuel (skip p)
    else some (empty none, p)

end

/-! ## Documents -/

/-- The directives before a document: at most one version, and one target for a handle. -/
def directives : List Token → (version : Bool) → List (String × String) →
    Option (List (String × String) × Bool × List Token)
  | .directive :: rest, version, handles => if version then none else directives rest true handles
  | .tagDirective handle target :: rest, version, handles =>
    if (handles.lookup handle).isSome then none else directives rest version ((handle, target) :: handles)
  | rest, version, handles => some (handles, version || !handles.isEmpty, rest)

/-- The document of tokens; there has to be no other. -/
def ofTokens? (tokens : List Token) : Option Node := do
  let (handles, directed, rest) ← directives tokens false []
  match rest with
  | [.streamEnd] => if directed then none else some .missing
  | _ => do
    let rest ← match rest with
      | .documentStart :: rest => some rest
      | rest => if directed then none else some rest
    let p : Parse := { tokens := rest }
    let p := { p with handles := handles ++ p.handles }
    let ends := [.directive, .documentStart, .documentEnd, .streamEnd]
    let (node, p) ← readUnless ends true false (4 * tokens.length + 4) p
    if p.tokens.dropWhile (· = .documentEnd) = [.streamEnd] then some node else none

/-- What text says. -/
def ofText? (text : String) : Option Node := do ofTokens? (← Token.ofText? text)

end Node

end FlagSidecar.Yaml
