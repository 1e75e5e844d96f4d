import FlagSidecar.Proofs.Url.Below
import FlagSidecar.Record.Http
import FlagSidecar.Settings.Load

/-!
# FlagSidecar.Proofs.Record.Http: where uploads go

Every base that settings can name makes a recorder, and all its uploads go to the server of the base. They go below the
path of the base if its text ends in its path. Behind a query or a fragment, what is added for each kind of record does
not become part of the path: uploads of both kinds go to the path of the base itself.

Main statements: `HttpRecorder.uploads_below_base` and `HttpRecorder.not_uploads_below_base`.
-/

namespace FlagSidecar

open Yaml (Node Fields)

/-! ## The base in the settings -/

theorem Yaml.Fields.withDefault_cases {α : Type} {f : Fields} {name : String} {read : Node → Option α} {default x : α}
    (h : f.withDefault name read default = some x) : x = default ∨ ∃ n, read n = some x := by
  rw [Fields.withDefault] at h
  split at h
  case h_1 => exact Or.inl (Option.some.inj h).symm
  case h_2 n _ => exact Or.inr ⟨n, h⟩

/-- What may be left out is read as what is there. -/
theorem Yaml.Node.exists_of_option? {α : Type} {read : Node → Option α} {n : Node} {x : α}
    (h : Node.option? read n = some (some x)) : ∃ n, read n = some x := by
  have hmap {n : Node} (h : (read n).map some = some (some x)) : ∃ n, read n = some x := by
    obtain ⟨y, hread, hy⟩ := Option.map_eq_some_iff.mp h
    exact ⟨n, Option.some.inj hy ▸ hread⟩
  unfold Node.option? at h
  split at h
  case h_1 => cases h
  case h_2 =>
    split at h
    case isTrue => cases h
    case isFalse => exact hmap h
  case h_3 =>
    split at h
    case isTrue =>
      split at h
      case isTrue => cases h
      case isFalse => cases h
    case isFalse => exact hmap h
  case h_4 => exact hmap h

/-- The base that a section of settings names was read as a URL. -/
theorem RecorderSettings.exists_ofText? {n : Node} {settings : RecorderSettings} {base : Url}
    (h : RecorderSettings.ofYaml? n = some settings) (hbase : settings.url = some base) :
    ∃ written, Url.ofText? written = some base := by
  rw [RecorderSettings.ofYaml?] at h
  obtain ⟨f, -, h⟩ := Option.bind_eq_some_iff.mp h
  obtain ⟨url, hurl, h⟩ := Option.bind_eq_some_iff.mp h
  obtain ⟨apiKey, -, h⟩ := Option.bind_eq_some_iff.mp h
  obtain ⟨timeoutMs, -, h⟩ := Option.bind_eq_some_iff.mp h
  obtain rfl := Option.some.inj h
  obtain rfl : url = some base := hbase
  rcases Fields.withDefault_cases hurl with hdefault | ⟨n, hread⟩
  · cases hdefault
  · obtain ⟨n, hread⟩ := Node.exists_of_option? hread
    obtain ⟨written, -, hwritten⟩ := Option.bind_eq_some_iff.mp hread
    exact ⟨written, hwritten⟩

theorem Config.exists_ofText? {text : String} {c : Config} {base : Url} (h : Config.ofYaml text = .ok c)
    (hbase : c.recorder.url = some base) : ∃ written, Url.ofText? written = some base := by
  rw [Config.ofYaml] at h
  split at h
  case isTrue =>
    obtain rfl := Except.ok.inj h
    cases hbase
  case isFalse =>
    split at h
    case h_2 => cases h
    case h_1 read hread =>
      obtain rfl := Except.ok.inj h
      obtain ⟨n, -, hnode⟩ := Option.bind_eq_some_iff.mp hread
      rw [Config.ofNode?] at hnode
      obtain ⟨f, -, hnode⟩ := Option.bind_eq_some_iff.mp hnode
      obtain ⟨link, -, hnode⟩ := Option.bind_eq_some_iff.mp hnode
      obtain ⟨sdk, -, hnode⟩ := Option.bind_eq_some_iff.mp hnode
      obtain ⟨recorder, hrecorder, hnode⟩ := Option.bind_eq_some_iff.mp hnode
      obtain ⟨logging, -, hnode⟩ := Option.bind_eq_some_iff.mp hnode
      obtain rfl := Option.some.inj hnode
      rcases Fields.withDefault_cases hrecorder with rfl | ⟨n, hsection⟩
      · cases hbase
      · exact RecorderSettings.exists_ofText? hsection hbase

namespace HttpRecorder

/-! ## The addresses -/

/-- What is added to the base for each kind of record. -/
def added : RecordKind → String
  | .impressions => impressionsPath
  | .events => eventsPath

/-- **Where a base leads once a path is added**: below the path of the base if the base ends in it, and to the path of
the base itself otherwise. -/
def reached (base : Url) (path : String) : String :=
  if base.query = none ∧ base.fragment = none then String.ofList (Url.trim base.path.text.toList) ++ "/" ++ path
  else base.path.text

theorem exists_lettered (kind : RecordKind) :
    ∃ parts, Url.Lettered parts ∧ '/' :: (added kind).toList = Url.pathText parts := by
  cases kind with
  | impressions => exact ⟨["testImpressions", "bulk"], ⟨by decide, by decide⟩, by decide⟩
  | events => exact ⟨["events", "bulk"], ⟨by decide, by decide⟩, by decide⟩

/-- Every base leads somewhere, for each kind of record. -/
theorem exists_endpoint {base : Url} (h : base.Settled) (kind : RecordKind) : ∃ url,
    endpoint base (added kind) = .ok url ∧ Url.SameServer base url ∧ url.path.text = reached base (added kind) := by
  obtain ⟨parts, hparts, hpath⟩ := exists_lettered kind
  have hendpoint {url : Url} (hbelow : base.below? (added kind) = some url) : endpoint base (added kind) = .ok url := by
    rw [endpoint, hbelow]
  rw [reached]
  cases hfragment : base.fragment with
  | some f =>
    rw [if_neg fun hnone => nomatch hnone.2]
    exact ⟨_, hendpoint (h.below?_fragment hparts hpath hfragment), ⟨rfl, rfl, rfl⟩, rfl⟩
  | none =>
    cases hquery : base.query with
    | some q =>
      rw [if_neg fun hnone => nomatch hnone.1]
      exact ⟨_, hendpoint (h.below?_query hparts hpath hquery hfragment), ⟨rfl, rfl, rfl⟩, rfl⟩
    | none =>
      obtain ⟨url, hbelow, hserver, htext⟩ := h.below?_path hparts hpath hquery hfragment
      rw [if_pos ⟨rfl, rfl⟩]
      exact ⟨url, hendpoint hbelow, hserver, htext⟩

theorem settled_of_endpoint {base url : Url} {path : String} (h : endpoint base path = .ok url) : url.Settled := by
  rw [endpoint] at h
  split at h
  case h_1 below hbelow =>
    obtain rfl := Except.ok.inj h
    exact Url.settled_of_ofText? hbelow
  case h_2 => cases h

/-- **A request goes where its address says**: the address is sent as text, and it is read back from that. -/
theorem ofText?_request {base : Url} {apiKey : String} {r : HttpRecorder} (h : new base apiKey = .ok r) (u : Upload) :
    Url.ofText? (r.request u).url.text = some (r.request u).url := by
  rw [new] at h
  cases himpressions : endpoint base impressionsPath with
  | error e =>
    rw [himpressions] at h
    cases h
  | ok impressions =>
    cases hevents : endpoint base eventsPath with
    | error e =>
      rw [himpressions, hevents] at h
      cases h
    | ok events =>
      rw [himpressions, hevents] at h
      obtain rfl := Except.ok.inj h
      rw [request]
      cases u.body.kind with
      | impressions => exact (settled_of_endpoint himpressions).read_text
      | events => exact (settled_of_endpoint hevents).read_text

/-- **Uploads go to the server of the base, below its path unless the base has a query or a fragment.** Every base in
the settings makes a recorder; with a query or a fragment, its uploads of both kinds go to the path of the base. -/
theorem uploads_below_base {text : String} {c : Config} {base : Url} (hconfig : Config.ofYaml text = .ok c)
    (hbase : c.recorder.url = some base) : ∃ r, new base c.recorder.apiKey = .ok r ∧ ∀ u : Upload,
      Url.SameServer base (r.request u).url ∧ (r.request u).url.path.text = reached base (added u.body.kind) := by
  obtain ⟨written, hwritten⟩ := Config.exists_ofText? hconfig hbase
  have hsettled := Url.settled_of_ofText? hwritten
  obtain ⟨impressions, himpressions, hfirst⟩ := exists_endpoint hsettled .impressions
  obtain ⟨events, hevents, hsecond⟩ := exists_endpoint hsettled .events
  refine ⟨⟨impressions, events, c.recorder.apiKey⟩, ?_, fun u => ?_⟩
  · have hboth : endpoint base impressionsPath = .ok impressions ∧ endpoint base eventsPath = .ok events :=
      ⟨himpressions, hevents⟩
    rw [new, hboth.1, hboth.2]
    rfl
  · rw [request]
    cases u.body.kind with
    | impressions => exact hfirst
    | events => exact hsecond

/-- A base with a number behind its host and slashes at its end. -/
theorem uploads_below_base_slashes :
    let base : Url := ⟨"https", some { host := .name "h", number := some 8443 }, .segments ["api", "", ""], none, none⟩
    let c : Config := { recorder := { url := some base } }
    Config.ofYaml "recorder:\n  url: https://h:8443/api//\n" = .ok c ∧ c.recorder.url = some base ∧
      ∃ r, new base "" = .ok r ∧ ∀ u : Upload, Url.SameServer base (r.request u).url ∧
        (r.request u).url.path.text = "/api/" ++ added u.body.kind := by
  intro base c
  have hconfig : Config.ofYaml "recorder:\n  url: https://h:8443/api//\n" = .ok c := by decide +kernel
  have hreached (path : String) : reached base path = "/api/" ++ path := by
    have hslash : String.ofList (Url.trim base.path.text.toList) ++ "/" = "/api/" := by decide
    rw [reached, if_pos ⟨rfl, rfl⟩, hslash]
  obtain ⟨r, hr, hrequest⟩ := uploads_below_base hconfig rfl
  refine ⟨hconfig, rfl, r, hr, fun u => ?_⟩
  rw [← hreached]
  exact hrequest u

/-- **Uploads need not go below the path of the base**: behind a fragment, what is added to the text is no part of the
path. -/
theorem not_uploads_below_base :
    ¬ ∀ (text : String) (c : Config) (base : Url) (r : HttpRecorder), Config.ofYaml text = .ok c →
      c.recorder.url = some base → new base c.recorder.apiKey = .ok r → ∀ u : Upload,
        Url.SameServer base (r.request u).url ∧
          (r.request u).url.path.text = String.ofList (Url.trim base.path.text.toList) ++ "/" ++ added u.body.kind := by
  intro hbelow
  let base : Url := ⟨"http", some { host := .name "h" }, .segments ["api"], none, some "f"⟩
  let r : HttpRecorder :=
    ⟨{ base with fragment := some "f/testImpressions/bulk" }, { base with fragment := some "f/events/bulk" }, ""⟩
  have hconfig : Config.ofYaml "recorder:\n  url: http://h/api#f\n" = .ok { recorder := { url := some base } } := by
    decide +kernel
  have hnew : new base "" = .ok r := by decide +kernel
  obtain ⟨-, hpath⟩ := hbelow _ _ base r hconfig rfl hnew ⟨⟨"id", "go-1"⟩, 0, .events []⟩
  exact absurd hpath (by decide)

end HttpRecorder

end FlagSidecar
