import FlagSidecar.Url.Host

/-!
# FlagSidecar.Url.Basic: URLs by their parts

A `Url` is the parts of a URL in their normal form, and `Url.text` is its one written form. The parts
hold their characters as they are written, escapes included.
-/

namespace FlagSidecar

namespace Url

/-- Who a URL talks to, and as whom. -/
structure Authority where
  username : String := ""
  /-- A password is never empty. -/
  password : Option String := none
  host : Host
  /-- The number behind the host, if it is not the one that goes without saying. -/
  number : Option Nat := none
deriving DecidableEq

/-- What comes before the query. -/
inductive Path where
  /-- Segments, each of which is written behind a slash. -/
  | segments (parts : List String)
  /-- Text that has no segments. -/
  | opaqueText (text : String)
deriving DecidableEq

end Url

/-- A URL. -/
structure Url where
  scheme : String
  authority : Option Url.Authority
  path : Url.Path
  query : Option String
  fragment : Option String
deriving DecidableEq

namespace Url

/-! ## Schemes -/

/-- The number behind the host that goes without saying. -/
def defaultNumber? (scheme : String) : Option Nat :=
  [("http", 80), ("https", 443), ("ws", 80), ("wss", 443), ("ftp", 21)].lookup scheme

/-- Is a scheme one of those whose URLs always have a host and segments? -/
def isSpecial (scheme : String) : Bool := scheme == "file" || (defaultNumber? scheme).isSome

/-! ## Text -/

/-- What is written of a name and a password. -/
def Authority.credentials (a : Authority) : String :=
  match a.password with
  | some password => a.username ++ ":" ++ password ++ "@"
  | none => if a.username.isEmpty then "" else a.username ++ "@"

def Authority.text (a : Authority) : String :=
  "//" ++ a.credentials ++ a.host.text ++ (a.number.map fun p => ":" ++ toString p).getD ""

def Path.text : Path → String
  | segments parts => String.join (parts.map ("/" ++ ·))
  | opaqueText text => text

/-- What is written between the scheme and the path. A path that would look like an authority has a dot
in front if there is none. -/
def beforePath (u : Url) : String :=
  match u.authority with
  | some a => a.text
  | none =>
    match u.path with
    | .segments ("" :: _ :: _) => "/."
    | _ => ""

/-- The written form. -/
def text (u : Url) : String :=
  u.scheme ++ ":" ++ u.beforePath ++ u.path.text ++ (u.query.map ("?" ++ ·)).getD "" ++
    (u.fragment.map ("#" ++ ·)).getD ""

end Url

end FlagSidecar
