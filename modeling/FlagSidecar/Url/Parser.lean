import FlagSidecar.Url.Basic

/-!
# FlagSidecar.Url.Parser: reading URLs

Only URLs with a scheme are read. Control characters and blanks around the text do not count, and
neither do tabs and line breaks within it.

The parts are found from the outside: the scheme up to the first colon, the fragment from the first `#`,
the query from the first `?` of the rest. Of what is left, the authority reaches up to the first slash,
and the rest is the path. In the well-known schemes a backslash is as good as a slash there.
-/

namespace FlagSidecar.Url

/-! ## Cutting text -/

/-- Text without the characters of a kind around it. -/
def strip (p : Char → Bool) (cs : List Char) : List Char :=
  ((cs.dropWhile p).reverse.dropWhile p).reverse

/-- What comes before a mark, and what comes behind it if there is one. -/
def cut (mark : Char) (cs : List Char) : List Char × Option (List Char) :=
  match cs.span (· ≠ mark) with
  | (before, _ :: after) => (before, some after)
  | (before, []) => (before, none)

/-- What comes before the last mark if there is one, and what comes behind it. -/
def cutLast (mark : Char) (cs : List Char) : Option (List Char) × List Char :=
  match cut mark cs.reverse with
  | (after, some before) => (some before.reverse, after.reverse)
  | (_, none) => (none, cs)

/-- Characters that count. -/
def significant (cs : List Char) : List Char :=
  (strip (fun c => c.toNat ≤ 0x20) cs).filter fun c => ¬ ['\t', '\n', '\r'].contains c

def isSlash (special : Bool) (c : Char) : Bool := c == '/' || (special && c == '\\')

/-! ## Parts -/

def isSchemeChar (c : Char) : Bool := c.isAlphanum || ['+', '-', '.'].contains c

/-- The scheme, in lower case, and what comes behind its colon. -/
def scheme? (cs : List Char) : Option (String × List Char) :=
  match cut ':' cs with
  | (c :: rest, some after) =>
    if c.isAlpha ∧ rest.all isSchemeChar then some (String.ofList ((c :: rest).map Char.toLower), after)
    else none
  | _ => none

/-- The name and the password before an at sign. -/
def credentials (cs : List Char) : String × Option String :=
  let shown (part : List Char) : String := String.ofList (escape escapedInCredentials part)
  match cut ':' cs with
  | (name, some (c :: password)) => (shown name, some (shown (c :: password)))
  | (name, _) => (shown name, none)

/-- The host and what comes behind its colon, if there is one; colons in brackets are the host's. -/
def cutNumber : (inside : Bool) → List Char → List Char × Option (List Char)
  | _, [] => ([], none)
  | inside, c :: rest =>
    if c = ':' ∧ ¬ inside then ([], some rest)
    else
      let inside := if c = '[' then true else if c = ']' then false else inside
      let (host, digits) := cutNumber inside rest
      (c :: host, digits)

/-- The number behind a host, or none where nothing is written or it goes without saying. -/
def number? (scheme : String) (ds : List Char) : Option (Option Nat) :=
  if ds.all Numeral.isDigit then
    let n := Numeral.value ds
    if 65535 < n then none
    else some (if ds.isEmpty ∨ defaultNumber? scheme = some n then none else some n)
  else none

/-- An authority, without the two slashes before it. Only a host of its own may be empty. -/
def authority? (scheme : String) (cs : List Char) : Option Authority := do
  let special := isSpecial scheme
  let (before, hostAndNumber) := cutLast '@' cs
  let (hostText, digits) := cutNumber false hostAndNumber
  if hostText.isEmpty ∧ (special ∨ before.isSome ∨ digits.isSome) then none
  else
    let (username, password) := credentials (before.getD [])
    let host ← host? special hostText
    let number ← number? scheme (digits.getD [])
    some { username, password, host, number }

/-- Segments that stand for the one before them. -/
def isDouble (segment : List Char) : Bool :=
  ["..", ".%2e", "%2e.", "%2e%2e"].contains (String.ofList (segment.map Char.toLower))

/-- Segments that stand for themselves alone. -/
def isSingle (segment : List Char) : Bool :=
  [".", "%2e"].contains (String.ofList (segment.map Char.toLower))

/-- A letter and a colon, or what is as good as a colon, name a drive. -/
def isDrive : List Char → Bool
  | [c, mark] => c.isAlpha && (mark == ':' || mark == '|')
  | _ => false

/-- Segments without the last one. A drive in front of them stays. -/
def shorten (drives : Bool) : List String → List String
  | [part] => if drives ∧ isDrive part.toList then [part] else []
  | parts => parts.dropLast

/-- A segment as it is written behind others. A drive in front of them is written with a colon. -/
def segmentText (drives : Bool) (before : List String) (segment : List Char) : String :=
  String.ofList
    (if drives ∧ before = [] ∧ isDrive segment then segment.take 1 ++ [':']
    else escape escapedInPath segment)

/-- Takes up segments behind those before them, and resolves the ones made of dots. -/
def resolve (drives : Bool) (before : List String) : List (List Char) → List String
  | [] => before
  | segment :: rest =>
    let folder (parts : List String) : List String := if rest.isEmpty then parts ++ [""] else parts
    if isDouble segment then resolve drives (folder (shorten drives before)) rest
    else if isSingle segment then resolve drives (folder before) rest
    else resolve drives (before ++ [segmentText drives before segment]) rest

/-- The segments of a path, without the slash before it. Only the path of a file begins with a drive. -/
def segments (special drives : Bool) (cs : List Char) : List String :=
  resolve drives [] (splitAtEach (isSlash special) cs)

/-- The path behind an authority, which in the well-known schemes is never empty. -/
def pathAfterAuthority (special : Bool) : List Char → Path
  | [] => .segments (if special then [""] else [])
  | _ :: rest => .segments (segments special false rest)

/-! ## The three kinds of scheme -/

/-- A URL with a host: the slashes before the host do not count. -/
def hierarchical? (scheme : String) (special : Bool) (cs : List Char) :
    Option (Option Authority × Path) := do
  let (before, after) := cs.span (!isSlash special ·)
  some (some (← authority? scheme before), pathAfterAuthority special after)

/-- A URL of a file. Its host may be left out, and the local host is none; a drive is no host. -/
def file? (cs : List Char) : Option (Option Authority × Path) := do
  let (host, path) ← match cs with
    | a :: rest =>
      if isSlash true a then
        match rest with
        | b :: rest' =>
          if isSlash true b then
            let (host, after) := rest'.span (!isSlash true ·)
            if host.isEmpty then some (Host.name "", after.drop 1)
            else if isDrive host then some (.name "", rest')
            else
              let host ← specialHost? host
              some (if host = .name "localhost" then .name "" else host, after.drop 1)
          else some (.name "", rest)
        | [] => some (.name "", [])
      else some (.name "", a :: rest)
    | [] => some (.name "", [])
  some (some { host }, .segments (segments true true path))

/-- A URL of another scheme: with an authority, with segments, or with opaque text. -/
def other? (scheme : String) : List Char → Option (Option Authority × Path)
  | '/' :: '/' :: rest => hierarchical? scheme false rest
  | '/' :: rest => some (none, .segments (segments false false rest))
  | rest => some (none, .opaqueText (String.ofList (escape isControl rest)))

/-- What comes before the query, in each kind of scheme. -/
def front? (scheme : String) (cs : List Char) : Option (Option Authority × Path) :=
  if scheme = "file" then file? cs
  else if isSpecial scheme then hierarchical? scheme true (cs.dropWhile (isSlash true))
  else other? scheme cs

/-- Reads a URL. -/
def ofText? (text : String) : Option Url := do
  let (scheme, rest) ← scheme? (significant text.toList)
  let (rest, fragment) := cut '#' rest
  let (rest, query) := cut '?' rest
  let (authority, path) ← front? scheme rest
  let shown (escaped : Char → Bool) (cs : List Char) : String := String.ofList (escape escaped cs)
  some {
    scheme, authority, path
    query := query.map (shown (escapedInQuery (isSpecial scheme)))
    fragment := fragment.map (shown escapedInFragment) }

/-! ## Places below a URL -/

/-- Text without the slashes at its end. -/
def trim (cs : List Char) : List Char := (cs.reverse.dropWhile (· == '/')).reverse

/-- The URL that is written as this one without the slashes at its end, a slash and a path. -/
def below? (u : Url) (path : String) : Option Url :=
  ofText? (String.ofList (trim u.text.toList) ++ "/" ++ path)

end FlagSidecar.Url
