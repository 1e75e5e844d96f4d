import FlagSidecar.Proofs.Protocol.Agreement
import FlagSidecar.Proofs.Service.Session
import FlagSidecar.Service.Records

/-!
# FlagSidecar.Proofs.Service.Direct: calls with nothing in between

What a registered client's calls would come to if it used the evaluator, the flags and the queues
itself. There is no request, no answer and no session here: an evaluation is offered as an impression
under the client's tag, several of them as one batch and only if none fails, and an event by itself. What
the other side reports of a failure is an internal error and nothing more.

What is asked, what is told of an evaluation and what is recorded is said field by field, so that nothing
here is taken over from what serves the requests.

Main statements: `Direct.perform_action` (carrying out a request does just this) and `Direct.answer_call`
(the answer to it says so).
-/

namespace FlagSidecar

/-- What a call comes to; a registration that succeeds has no payload. -/
abbrev CallResult := Except LinkError (Option Payload)

namespace Direct

/-- The result of a call that fails on the other side: the status is that of an internal error. -/
def refused : CallResult := .error (.remote 0x10)

/-- The tag of a client: its id and the version of its library. -/
def tag (i : Identity) : ClientTag where
  id := i.id
  sdkVersion := i.sdkVersion

section Evaluation

variable {φ : Type} (a : EvaluationArguments φ) (feature : String)

/-- What a feature is evaluated for. -/
def query : Query where
  key := a.key
  bucketingKey := a.bucketingKey
  feature := feature
  attributes := a.attributes

/-- What is recorded of the evaluation of a feature. -/
def impression (now : Int64) (e : Evaluation) : Impression where
  key := a.key
  bucketingKey := a.bucketingKey
  feature := feature
  treatment := e.treatment
  label := e.label
  changeNumber := e.changeNumber
  time := now

end Evaluation

/-- What a client is told of an evaluation: bit 0 of its flags asks for what is recorded. -/
def entry (i : Identity) (withConfig : Bool) (now : Int64) (e : Evaluation) : TreatmentPayload where
  treatment := e.treatment
  config := if withConfig then e.config else none
  listener :=
    if i.flags.bits.toNat.testBit 0 then
      some { label := e.label, timeMs := now, changeNumber := e.changeNumber }
    else none

/-- What is recorded of a report. -/
def event (a : TrackArguments) : Event where
  key := a.key
  trafficType := a.trafficType
  eventType := a.eventType
  value := a.value
  properties := a.properties
  timestamp := a.timestamp

/-- Features with their evaluations, if none of them fails. -/
def evaluations? (evaluator : Evaluator) (a : EvaluationArguments (List String)) :
    Option (List (String × Evaluation)) :=
  a.features.mapM fun feature =>
    (evaluator.evaluate (query a feature)).toOption.map fun e => (feature, e)

/-- Uses the evaluator, the flags and the queues for one call. -/
def call (evaluator : Evaluator) (i : Identity) (now : Int64) (records : Records) :
    Request → CallResult × Records
  | .register _ => (refused, records)
  | .treatment a withConfig =>
    match evaluator.evaluate (query a a.features) with
    | .error _ => (refused, records)
    | .ok e =>
      (.ok (some (.treatment (entry i withConfig now e))),
        { records with
          impressions := (records.impressions.push (tag i) [impression a a.features now e]).2 })
  | .treatments a withConfig =>
    match evaluations? evaluator a with
    | none => (refused, records)
    | some found =>
      let impressions := found.map fun (feature, e) => impression a feature now e
      (.ok (some (.treatments (found.map fun (_, e) => entry i withConfig now e))),
        { records with impressions := (records.impressions.push (tag i) impressions).2 })
  | .track a =>
    let (result, events) := records.events.push (tag i) [event a]
    (.ok (some (.track result.toBool)), { records with events })
  | .flagNames => (.ok (some (.flagNames evaluator.flagNames)), records)
  | .flag name => (.ok (some (.flag (evaluator.flag name))), records)
  | .flags => (.ok (some (.flags evaluator.flags)), records)

/-- Makes calls one after the other, each at its time. -/
def run (evaluator : Evaluator) (i : Identity) :
    List (Request × Int64) → Records → List CallResult × Records
  | [], records => ([], records)
  | (r, now) :: calls, records =>
    let (result, records) := call evaluator i now records r
    let (results, records) := run evaluator i calls records
    (result :: results, records)

/-- The answer that says what a call came to. -/
def answer : CallResult → Response Payload
  | .ok payload => .ok payload
  | .error _ => .internalError

/-! ## Evaluations -/

theorem length_of_evaluateAll {evaluator : Evaluator} {qs : List Query} {es : List Evaluation}
    (h : evaluator.evaluateAll qs = .ok es) : es.length = qs.length := by
  induction qs generalizing es with
  | nil =>
    cases h
    rfl
  | cons q rest ih =>
    rw [Evaluator.evaluateAll] at h
    cases hq : evaluator.evaluate q with
    | error failure =>
      rw [hq] at h
      cases h
    | ok e =>
      cases hrest : evaluator.evaluateAll rest with
      | error failure =>
        rw [hq, hrest] at h
        cases h
      | ok es' =>
        rw [hq, hrest] at h
        cases h
        rw [List.length_cons, List.length_cons, ih hrest]

/-- Evaluating one feature after the other finds what evaluating them all finds. -/
theorem evaluations?_eq (evaluator : Evaluator) (a : EvaluationArguments (List String)) :
    evaluations? evaluator a =
      (evaluator.evaluateAll (a.features.map (query a))).toOption.map a.features.zip := by
  rw [evaluations?]
  induction a.features with
  | nil => rfl
  | cons feature rest ih =>
    rw [List.mapM_cons, ih, List.map_cons, Evaluator.evaluateAll]
    cases evaluator.evaluate (query a feature) with
    | error failure => rfl
    | ok e =>
      cases evaluator.evaluateAll (rest.map (query a)) with
      | error failure => rfl
      | ok es => rfl

/-- A client is told of an evaluation what it asks for. -/
theorem treatment_eq_entry (i : Identity) (withConfig : Bool) (now : Int64) (e : Evaluation) :
    i.treatment withConfig now e = entry i withConfig now e := by
  rw [Identity.treatment, i.flags.returnImpressionData_eq]
  rfl

/-! ## Requests and answers -/

/-- **Carrying out a request is using evaluator, flags and queues**, and answering what that came to. -/
theorem perform_action (evaluator : Evaluator) (i : Identity) (now : Int64) (records : Records)
    (r : Request) :
    records.perform (Session.action evaluator now i r) =
      (.next (answer (call evaluator i now records r).1), (call evaluator i now records r).2) := by
  cases r with
  | treatment a withConfig =>
    have hquery : a.query a.features = query a a.features := rfl
    rw [Session.action, Session.evaluateOne, call, hquery]
    cases evaluator.evaluate (query a a.features) with
    | error failure => rfl
    | ok e =>
      simp only [treatment_eq_entry]
      rfl
  | treatments a withConfig =>
    have hqueries : a.features.map a.query = a.features.map (query a) := rfl
    rw [Session.action, Session.evaluateMany, call, evaluations?_eq, hqueries]
    cases hall : evaluator.evaluateAll (a.features.map (query a)) with
    | error failure => rfl
    | ok es =>
      -- as many evaluations as features, so pairing them loses none
      have hlength : es.length = a.features.length := by
        rw [length_of_evaluateAll hall, List.length_map]
      have hevaluations : (a.features.zip es).map Prod.snd = es :=
        List.map_snd_zip (Nat.le_of_eq hlength)
      have hentries : (a.features.zip es).map (fun (_, e) => entry i withConfig now e) =
          es.map (i.treatment withConfig now) :=
        calc
          _ = ((a.features.zip es).map Prod.snd).map (entry i withConfig now) := List.map_map.symm
          _ = es.map (entry i withConfig now) := by rw [hevaluations]
          _ = es.map (i.treatment withConfig now) :=
            List.map_congr_left fun e _ => (treatment_eq_entry i withConfig now e).symm
      have himpressions : (a.features.zip es).map (fun (feature, e) => impression a feature now e) =
          (a.features.map (query a)).zipWith (fun q e => q.impression now e) es := by
        rw [List.zip, List.map_zipWith, List.zipWith_map_left]
        rfl
      simp only [Except.toOption, Option.map_some, hentries, himpressions]
      rfl
  | _ => rfl

/-- A call fails on the other side, or it has the payload that its operation promises. -/
theorem call_cases (evaluator : Evaluator) (i : Identity) (now : Int64) (records : Records)
    (r : Request) :
    (call evaluator i now records r).1 = refused ∨
      ∃ p, (call evaluator i now records r).1 = .ok (some p) ∧ r.payloadKind? = some p.kind := by
  cases r with
  | register j => exact .inl rfl
  | treatment a withConfig =>
    rw [call]
    cases evaluator.evaluate (query a a.features) with
    | error failure => exact .inl rfl
    | ok e => exact .inr ⟨_, rfl, by cases withConfig <;> rfl⟩
  | treatments a withConfig =>
    rw [call]
    cases evaluations? evaluator a with
    | none => exact .inl rfl
    | some found => exact .inr ⟨_, rfl, by cases withConfig <;> rfl⟩
  | track a => exact .inr ⟨_, rfl, rfl⟩
  | flagNames => exact .inr ⟨_, rfl, rfl⟩
  | flag name => exact .inr ⟨_, rfl, rfl⟩
  | flags => exact .inr ⟨_, rfl, rfl⟩

/-- **The answer to a request says what the call came to.** -/
theorem answer_call {evaluator : Evaluator} {i : Identity} {now : Int64} {records : Records}
    {r : Request}
    (hlt : ((answer (call evaluator i now records r).1).write Payload.toCbor).length < 2 ^ 64) :
    r.answer ((answer (call evaluator i now records r).1).write Payload.toCbor) =
      (call evaluator i now records r).1 := by
  rcases call_cases evaluator i now records r with hrefused | ⟨p, hp, hkind⟩
  · rw [hrefused]
    exact Request.answer_internalError
  · rw [hp] at hlt ⊢
    exact Request.answer_payload hkind hlt

end Direct

/-! ## Requests that have travelled -/

namespace Session

/-- A registration as a client sends it is acknowledged. -/
theorem plan_sent_register (evaluator : Evaluator) (now : Int64) (i : Identity) :
    plan evaluator now .unregistered (Request.register i).toRpc =
      ⟨.registered i protocolVersion, [], .acknowledge⟩ := by
  have hidentity : Layout.register.ofRpc (.request .register (Request.register i).args) = .ok i :=
    Layout.ofRpc_request (by decide) rfl (Request.read_register i)
  exact plan_of_declares evaluator now ⟨rfl, rfl, hidentity⟩

/-- A request as a registered client sends it is acted on. -/
theorem plan_sent (evaluator : Evaluator) (now : Int64) (i : Identity) (r : Request) :
    plan evaluator now (.registered i protocolVersion) r.toRpc =
      ⟨.registered i protocolVersion, asked evaluator r, action evaluator now i r⟩ :=
  plan_registered_request rfl (OpCode.ofByte?_byte r.opCode) r.ofRpc_toRpc

end Session

end FlagSidecar
