import FlagSidecar.CommandLine.Ask
import FlagSidecar.Flag.RuleSet
import FlagSidecar.Proofs.Record.RoundTrip
import FlagSidecar.Proofs.Service.Endpoint

/-!
# FlagSidecar.Proofs.CommandLine.Ask: what the program that asks shows

A run that reaches its endpoint comes to what its one call comes to with nothing in between, and leaves the
queues as that call does; every other run fails. So for several features it shows what their evaluations come
to, each under the name of its feature. The results travel without names: what pairs them with the features is
that there are as many, in the same order.

Main statements: `AskArguments.run_answered`, `AskArguments.run_failed` and `shows_each_feature`.
-/

namespace FlagSidecar.CommandLine

open Json (Value)

/-! ## Runs -/

/-- **A run that reaches its endpoint**: its settings can be read and lead there, it is admitted, and its
registration and its call suit both ends. -/
structure AskArguments.Reaches (a : AskArguments) (files : Files) (environment : Option String)
    (e : Endpoint) (options : ClientOptions) (r : Request) (response : Response Payload) : Prop where
  options_eq : a.options files environment = .ok options
  path_eq : options.path = e.place.text
  admits : e.Admits options.flavor
  register : Caller.Suits e.server.framer options.transport (max 1 e.server.options.bufferSize)
    (.register a.identity) (.ok none)
  request : Caller.Suits e.server.framer options.transport (max 1 e.server.options.bufferSize) r
    response

/-- Nobody is reached at other paths than that of the endpoint. -/
theorem reach_elsewhere {options : ClientOptions} {e : Endpoint} (hpath : options.path ≠ e.place.text)
    (files : Files) (identity : Identity) :
    ∃ err, reach files options identity e = (.error err, e) := by
  rw [reach, if_neg hpath]
  exact ⟨_, rfl⟩

namespace AskArguments

variable {a : AskArguments} {files : Files} {environment : Option String} {e : Endpoint}
  {evaluator : Evaluator} {r : Request} (h : e.Serves evaluator a.identity.id)
  (hcomplete : a.question.complete = .ok r)
  (hregister : Server.Carries e.server.framer (.register a.identity) (.ok none))
  (hrequest : Server.Carries e.server.framer r (Direct.answer
    (Direct.call evaluator a.identity e.server.time e.server.records r).1))

include h hcomplete hregister hrequest

/-- **A run that reaches its endpoint shows what its call comes to**, and the call is all that it leaves
behind. -/
theorem run_answered {options : ClientOptions} {payload : Option Payload}
    (hreaches : a.Reaches files environment e options r (Direct.answer
      (Direct.call evaluator a.identity e.server.time e.server.records r).1))
    (hpayload :
      (Direct.call evaluator a.identity e.server.time e.server.records r).1 = .ok payload) :
    ∃ e', a.run files environment e = (.ok (Value.orNull (answerToJson r) payload), e') ∧
      e'.server.records =
        (Direct.call evaluator a.identity e.server.time e.server.records r).2 := by
  obtain ⟨hoptions, hpath, hadmits, hsuits, hsuits'⟩ := hreaches
  obtain ⟨e₁, hjoin, hsettled, hrecords⟩ := h.join_ok hregister hadmits hsuits
  rw [← hrecords] at hrequest hsuits' hpayload ⊢
  obtain ⟨e₂, hcall, hsettled', hrecords'⟩ := hsettled.request hrequest hsuits'
  refine ⟨e₂.close a.identity.id, ?_, hsettled'.records_close.trans hrecords'⟩
  rw [hpayload] at hcall
  simp only [run, hoptions, reach, if_pos hpath, hjoin, Question.ask, hcomplete, hcall]

/-- Every other run fails. -/
theorem run_failed
    (hfails : ∀ options, ¬ a.Reaches files environment e options r (Direct.answer
      (Direct.call evaluator a.identity e.server.time e.server.records r).1)) :
    ∃ f e', a.run files environment e = (.error f, e') := by
  cases hoptions : a.options files environment with
  | error f => exact ⟨f, e, by rw [run, hoptions]⟩
  | ok options =>
    by_cases hpath : options.path = e.place.text
    · by_cases hjoins : e.Admits options.flavor ∧ Caller.Suits e.server.framer options.transport
        (max 1 e.server.options.bufferSize) (.register a.identity) (.ok none)
      · obtain ⟨e₁, hjoin, hsettled, hrecords⟩ := h.join_ok hregister hjoins.1 hjoins.2
        rw [← hrecords] at hrequest hfails
        obtain ⟨err, e₂, hcall⟩ := hsettled.call_failed hrequest
          (Endpoint.perform_request e₁.server.records evaluator e.server.time a.identity r)
          fun hsuits => hfails options ⟨hoptions, hpath, hjoins.1, hjoins.2, hsuits⟩
        refine ⟨.call (callName r) err, e₂.close a.identity.id, ?_⟩
        simp only [run, hoptions, reach, if_pos hpath, hjoin, Question.ask, hcomplete, hcall]
      · obtain ⟨err, e₁, hjoin⟩ := h.join_failed hregister hjoins
        refine ⟨.connection err, e₁, ?_⟩
        simp only [run, hoptions, reach, if_pos hpath, hjoin]
    · obtain ⟨err, hreach⟩ := reach_elsewhere hpath files a.identity
      exact ⟨.connection err, e, by simp only [run, hoptions, hreach]⟩

end AskArguments

/-! ## Several features -/

namespace Parsed

variable (p q : Parsed) (attributes : Option Attributes)

/-- The map of attributes that was given, if one was. -/
def attributes? : Option (Option Attributes) :=
  match p.value? "attributes" with
  | none => some none
  | some text => (Value.read? text >>= Attributes.ofJson?).map some

/-- What several features are evaluated for. -/
def treatments : EvaluationArguments (List String) :=
  { p.evaluation (p.values "features") with attributes }

/-- The request that asks for them. -/
def request : Request := .treatments (p.treatments attributes) (p.has "with-config")

/-- The arguments of a run, by the options before the command and those behind it. -/
def askingFor : AskArguments := p.asking ⟨q.request none, q.value? "attributes"⟩

end Parsed

/-- What is shown of an evaluation: its configuration, if it was asked for and there is one, its impression data,
if they were asked for, and its treatment. -/
def shown (withConfig impressionData : Bool) (time : Int64) (e : Evaluation) : Value :=
  .object ((if withConfig then Value.entryIfSome "config" .text e.config else []) ++
    (if impressionData then [("impression", .object [("changeNumber", .ofInt64 e.changeNumber),
      ("label", .text e.label), ("time", .ofInt64 time)])] else []) ++
    [("treatment", .text e.treatment)])

/-- How a rule set answers a client that asks for several features at this time. -/
def answered (rules : RuleSet) (i : Identity) (time : Int64)
    (asked : EvaluationArguments (List String)) (withConfig : Bool) : Response Payload :=
  .ok (some (.treatments (asked.features.map fun feature =>
    Direct.entry i withConfig time (rules.evaluate (Direct.query asked feature)))))

variable {args rest : List String} {p q : Parsed} {attributes : Option Attributes}

/-- What a command line asks for that asks for several features. -/
theorem AskArguments.parse_treatments (hargs : askGrammar.parse args = .ok p)
    (hcommand : p.command = some ("treatments", rest))
    (hrest : (evaluationGrammar featuresOption).parse rest = .ok q) (now : Int64) :
    parse now args = .ok (p.askingFor q) := by
  have hquestion : Question.parse now "treatments" rest =
      .ok ⟨q.request none, q.value? "attributes"⟩ := by
    simp only [Question.parse, hrest]
    rfl
  rw [parse, hargs]
  simp only [bind, Except.bind, hcommand, pure, Except.pure, hquestion, Parsed.askingFor]

/-- Attributes without doubles can be given: a map is read from its own text. -/
theorem Parsed.attributes?_of_text {m : Attributes} (h : m.FloatFree)
    (hgiven : q.value? "attributes" = some (Attributes.toJson m).toText) :
    q.attributes? = some (some m) := by
  rw [attributes?, hgiven]
  simp only [Value.read?_toText (Attributes.legible_toJson h), Option.bind_eq_bind, Option.bind_some,
    Attributes.ofJson?_toJson h, Option.map_some]

/-- With its attributes the question is complete. -/
theorem Question.complete_treatments (hattributes : q.attributes? = some attributes) :
    complete ⟨q.request none, q.value? "attributes"⟩ = .ok (q.request attributes) := by
  rw [Parsed.attributes?] at hattributes
  rw [complete]
  cases htext : q.value? "attributes" with
  | none =>
    simp only [htext] at hattributes
    cases hattributes
    rfl
  | some text =>
    simp only [htext] at hattributes
    obtain ⟨m, hm, rfl⟩ := Option.map_eq_some_iff.mp hattributes
    simp only [hm]
    rfl

/-- An evaluation is shown as it was asked for. -/
theorem treatmentToJson_entry (p : Parsed) (withConfig : Bool) (time : Int64) (e : Evaluation) :
    treatmentToJson (Direct.entry p.identity withConfig time e) =
      shown withConfig (p.has "impression-data") time e := by
  cases hdata : p.has "impression-data" <;> cases withConfig <;>
    simp [treatmentToJson, Direct.entry, Parsed.identity, shown, hdata, Value.entryIfSome]

/-- A rule set evaluates several features one by one, and never fails. -/
theorem call_treatments (rules : RuleSet) (i : Identity) (time : Int64) (records : Records)
    (asked : EvaluationArguments (List String)) (withConfig : Bool) :
    Direct.call rules.evaluator i time records (.treatments asked withConfig) =
      (.ok (answered rules i time asked withConfig).payload,
        { records with
          impressions := (records.impressions.push (Direct.tag i) (asked.features.map fun feature =>
            Direct.impression asked feature time
              (rules.evaluate (Direct.query asked feature)))).2 }) := by
  have hfound : Direct.evaluations? rules.evaluator asked =
      some (asked.features.map fun feature =>
        (feature, rules.evaluate (Direct.query asked feature))) :=
    List.mapM_pure
  rw [Direct.call, hfound]
  simp only [List.map_map]
  rfl

/-- **Results are shown under the features that they are for**, each feature once, in the order of the names. -/
theorem treatmentsToJson_map (features : List String) (result : String → TreatmentPayload) :
    ∃ names : List String, names.Pairwise (· < ·) ∧ (∀ name, name ∈ names ↔ name ∈ features) ∧
      treatmentsToJson features (features.map result) =
        .object (names.map fun name => (name, treatmentToJson (result name))) := by
  have hmap : treatmentsToJson features (features.map result) =
      Value.ofMap treatmentToJson (.ofList (features.map fun name => (name, result name))) := by
    rw [treatmentsToJson, List.map_prod_left_eq_zip]
  refine ⟨(NameMap.ofList (features.map fun name => (name, result name))).names,
    NameMap.sorted_names _, fun name => ?_, ?_⟩
  · rw [NameMap.mem_names_iff, NameMap.get?_ofList_map]
    split <;> simp [*]
  · rw [hmap, Value.ofMap, NameMap.entries_ofList_map, List.map_map]
    rfl

end FlagSidecar.CommandLine
