import FlagSidecar.Flush.Pass
import FlagSidecar.Settings.Config
import FlagSidecar.Url.Parser

/-!
# FlagSidecar.Record.Http: uploads over HTTP

Each upload is one POST of JSON text below the configured base: impressions to one address, events to
another. The key of the account goes into the authorization, the tag into two headers of its own. An
upload has succeeded exactly when the answer has a status from 200 to 299.
-/

namespace FlagSidecar

/-- Where uploads go, and in whose name. -/
structure HttpRecorder where
  impressionsUrl : Url
  eventsUrl : Url
  apiKey : String
deriving DecidableEq

/-- One request. -/
structure HttpRequest where
  url : Url
  headers : List (String × String)
  body : String
deriving DecidableEq

/-- What came back. -/
inductive HttpReply where
  | status (code : Nat)
  /-- Nothing came back, and why. -/
  | failure (reason : String)
deriving DecidableEq

/-- Can a header have this value? Control characters other than a tab are not sent. -/
def isHeaderValue (value : String) : Bool :=
  value.toList.all fun c => c = '\t' ∨ (' ' ≤ c ∧ c ≠ '\x7f')

namespace HttpRecorder

def impressionsPath : String := "testImpressions/bulk"

def eventsPath : String := "events/bulk"

/-- The address for one kind of record. -/
def endpoint (base : Url) (path : String) : Except LoadError Url :=
  match base.below? path with
  | some url => .ok url
  | none => .error (.invalid ("recorder.url: cannot derive " ++ path ++ ": not a URL"))

/-- The recorder that uploads below a base. -/
def new (base : Url) (apiKey : String) : Except LoadError HttpRecorder := do
  return ⟨← endpoint base impressionsPath, ← endpoint base eventsPath, apiKey⟩

def url (r : HttpRecorder) : RecordKind → Url
  | .impressions => r.impressionsUrl
  | .events => r.eventsUrl

/-- The request for an upload. -/
def request (r : HttpRecorder) (u : Upload) : HttpRequest where
  url := r.url u.body.kind
  headers :=
    [("authorization", "Bearer " ++ r.apiKey), ("splitsdkversion", u.tag.sdkVersion),
      ("splitsdkclientkey", u.tag.id), ("content-type", "application/json")]
  body := u.body.text

/-- Can a request be sent at all? -/
def isSendable (q : HttpRequest) : Bool :=
  (q.url.scheme == "http" || q.url.scheme == "https") && q.headers.all (isHeaderValue ·.2)

/-- What a reply means to an upload. -/
def outcome (u : Upload) : HttpReply → Except UploadFailure Unit
  | .status code =>
    if 200 ≤ code ∧ code < 300 then .ok ()
    else .error ⟨u.body.kind, u.tag, "HTTP " ++ toString code⟩
  | .failure reason => .error ⟨u.body.kind, u.tag, reason⟩

/-- Uploads to whatever answers requests. -/
def recorder (r : HttpRecorder) (server : HttpRequest → HttpReply) : Recorder := fun u =>
  let q := r.request u
  outcome u (if isSendable q then server q else .failure "request cannot be built")

end HttpRecorder

end FlagSidecar
