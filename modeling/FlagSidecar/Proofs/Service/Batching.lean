import FlagSidecar.Proofs.Queue.Batches
import FlagSidecar.Proofs.Service.Failure

/-!
# FlagSidecar.Proofs.Service.Batching: several features in one request, or in one request each

A client that wants several features evaluated may ask for them in one request or in a run of requests.
If the evaluator succeeds on all of them and the clock stands still, it is told the same either way, and
the queues are the same afterwards, to the counters: also if the queue of the client is full, or fills on
the way.

Asking with configurations changes nothing but the configurations, of answers to one feature or to
several.

The evaluation of one feature is that of a list of one, and the answer is the last of its results. There
always is one, so the error for the case that there is none is never given.

Main statement: `Session.batch_is_run_of_singles`.
-/

namespace FlagSidecar

/-! ## What is asked and what is answered -/

/-- A request in a version, by what it is understood to ask for. -/
structure Rpc.Asks (rpc : Rpc) (version : UInt8) (r : Request) : Prop where
  version_eq : rpc.version = version
  known : OpCode.ofByte? rpc.opcode = some r.opCode
  read : Request.ofRpc r.opCode rpc = .ok r

theorem Request.asks_toRpc (r : Request) : r.toRpc.Asks protocolVersion r where
  version_eq := rfl
  known := OpCode.ofByte?_byte r.opCode
  read := r.ofRpc_toRpc

/-- The same arguments for one of the features. -/
def EvaluationArguments.one (a : EvaluationArguments (List String)) (feature : String) :
    EvaluationArguments String :=
  ⟨a.key, a.bucketingKey, feature, a.attributes⟩

/-- The same request, with configurations or without. -/
def Request.withConfig (withConfig : Bool) : Request → Request
  | treatment a _ => .treatment a withConfig
  | treatments a _ => .treatments a withConfig
  | r => r

def TreatmentPayload.withoutConfig (t : TreatmentPayload) : TreatmentPayload := { t with config := none }

/-- The answer without configurations. -/
def Payload.withoutConfigs : Payload → Payload
  | treatment t => .treatment t.withoutConfig
  | treatments results => .treatments (results.map TreatmentPayload.withoutConfig)
  | p => p

def Reply.withoutConfigs : Reply → Reply
  | silence => .silence
  | last response => .last (response.map Payload.withoutConfigs)
  | next response => .next (response.map Payload.withoutConfigs)

/-- An answer while the connection goes on; what went wrong is not told. -/
def Reply.ofResult : Except ProtocolError Payload → Reply
  | .ok payload => .next (.ok (some payload))
  | .error _ => .next .internalError

namespace Session

/-- Serves one request. -/
def respond (evaluator : Evaluator) (now : Int64) (session : Session) (records : Records) (rpc : Rpc) :
    Reply × Session × Records :=
  let p := session.plan evaluator now rpc
  let (reply, records) := records.perform p.action
  (reply, p.session, records)

/-- It is what a connection does in a turn in which it has received a request. -/
theorem react_eq_respond {σ : Type} (wire : Wire σ) (evaluator : Evaluator) (now : Int64) (records : Records)
    (c : Connection σ) {octets : Bytes} {rpc : Rpc} (hread : Rpc.read? octets = some rpc) :
    c.react wire evaluator now records (.ok octets) =
      let (reply, session, after) := respond evaluator now c.session records rpc
      ⟨{ c with session }.reply wire reply, after, (c.session.plan evaluator now rpc).asked⟩ := by
  unfold Connection.react
  simp only [hread]
  rfl

/-- Serves one request after the other, while the clock shows the same. -/
def respondAll (evaluator : Evaluator) (now : Int64) (session : Session) (records : Records) :
    List Rpc → List Reply × Session × Records
  | [] => ([], session, records)
  | rpc :: rest =>
    let (reply, session, records) := respond evaluator now session records rpc
    let (replies, session, records) := respondAll evaluator now session records rest
    (reply :: replies, session, records)

/-! ## The way that one feature and several have in common -/

/-- Evaluates features in order. Only if all succeed are their impressions offered. -/
def evaluateAndQueue (evaluator : Evaluator) (now : Int64) (i : Identity) (qs : List Query)
    (withConfig : Bool) (records : Records) : Except ProtocolError (List TreatmentPayload) × Records :=
  match evaluator.evaluateAll qs with
  | .error failure => (.error (.backend failure), records)
  | .ok es =>
    (.ok (es.map (i.treatment withConfig now)),
      { records with
        impressions := (records.impressions.push i.tag (qs.zipWith (fun q e => q.impression now e) es)).2 })

/-- The answer to one feature, from a list of results. -/
def lastResult (feature : String) (results : List TreatmentPayload) : Except ProtocolError Payload :=
  match results.getLast? with
  | some t => .ok (.treatment t)
  | none => .error (.backend ⟨feature, "no result"⟩)

variable {evaluator : Evaluator} {now : Int64} {i : Identity} {version : UInt8}

theorem perform_evaluateMany (qs : List Query) (withConfig : Bool) (records : Records) :
    records.perform (evaluateMany evaluator now i qs withConfig) =
      (.ofResult ((evaluateAndQueue evaluator now i qs withConfig records).1.map .treatments),
        (evaluateAndQueue evaluator now i qs withConfig records).2) := by
  unfold evaluateMany evaluateAndQueue
  cases evaluator.evaluateAll qs <;> rfl

theorem perform_evaluateOne (q : Query) (withConfig : Bool) (records : Records) :
    records.perform (evaluateOne evaluator now i q withConfig) =
      (.ofResult ((evaluateAndQueue evaluator now i [q] withConfig records).1.bind (lastResult q.feature)),
        (evaluateAndQueue evaluator now i [q] withConfig records).2) := by
  unfold evaluateOne evaluateAndQueue Evaluator.evaluateAll
  cases evaluator.evaluate q <;> rfl

/-- There are as many results as queries. -/
theorem length_of_evaluateAndQueue {qs : List Query} {withConfig : Bool} {records : Records}
    {results : List TreatmentPayload}
    (h : (evaluateAndQueue evaluator now i qs withConfig records).1 = .ok results) :
    results.length = qs.length := by
  unfold evaluateAndQueue at h
  rcases evaluator.evaluateAll_cases qs with ⟨es, hall, hes⟩ | ⟨q, -, failure, -, hall⟩
  · rw [hall] at h
    cases h
    rw [List.length_map, hes.length_eq]
  · rw [hall] at h
    cases h

/-! ## Runs of requests -/

theorem respond_of_asks {rpc : Rpc} {r : Request} (h : rpc.Asks version r) (records : Records) :
    respond evaluator now (.registered i version) records rpc =
      ((records.perform (action evaluator now i r)).1, .registered i version,
        (records.perform (action evaluator now i r)).2) := by
  unfold respond
  rw [plan_registered_request h.version_eq h.known h.read]

/-- What is told of a feature that is asked for by itself. -/
def Told (i : Identity) (withConfig : Bool) (now : Int64) (e : Evaluation) : Reply :=
  .next (.ok (some (.treatment (i.treatment withConfig now e))))

/-- A run of requests for one feature each: every one is answered, and offers its impression. -/
theorem respondAll_singles {a : EvaluationArguments (List String)} {withConfig : Bool}
    {features : List String} {es : List Evaluation} {rpcs : List Rpc} (records : Records)
    (hes : List.Forall₂ (fun feature e => evaluator.evaluate (a.query feature) = .ok e) features es)
    (hrpcs : List.Forall₂ (fun feature rpc => Rpc.Asks rpc version (.treatment (a.one feature) withConfig))
      features rpcs) :
    respondAll evaluator now (.registered i version) records rpcs =
      (es.map (Told i withConfig now), .registered i version,
        { records with
          impressions := ((features.map a.query).zipWith (fun q e => q.impression now e) es).foldl
            (fun f item => (f.push i.tag [item]).2) records.impressions }) := by
  induction hes generalizing rpcs records with
  | nil =>
    cases hrpcs
    rfl
  | @cons feature e features es he hes ih =>
    cases hrpcs with
    | @cons _ rpc _ rpcs hrpc hrpcs =>
      have haction : action evaluator now i (.treatment (a.one feature) withConfig) =
          .record i.tag [(a.query feature).impression now e] (.treatment (i.treatment withConfig now e)) := by
        show evaluateOne evaluator now i (a.query feature) withConfig = _
        rw [evaluateOne, he]
      unfold respondAll
      rw [respond_of_asks hrpc, haction]
      simp only [Records.perform, ih _ hrpcs]
      rfl

/-! ## With configurations or without -/

/-- What a request leads to, with configurations or without, is the same but for the configurations. -/
theorem perform_action_withoutConfigs (r : Request) (records : Records) :
    records.perform (action evaluator now i (r.withConfig false)) =
      ((records.perform (action evaluator now i (r.withConfig true))).1.withoutConfigs,
        (records.perform (action evaluator now i (r.withConfig true))).2) := by
  cases r with
  | treatment a withConfig =>
    show records.perform (evaluateOne _ _ _ _ false) =
      ((records.perform (evaluateOne _ _ _ _ true)).1.withoutConfigs,
        (records.perform (evaluateOne _ _ _ _ true)).2)
    unfold evaluateOne
    cases evaluator.evaluate (a.query a.features) <;> rfl
  | treatments a withConfig =>
    show records.perform (evaluateMany _ _ _ _ false) =
      ((records.perform (evaluateMany _ _ _ _ true)).1.withoutConfigs,
        (records.perform (evaluateMany _ _ _ _ true)).2)
    unfold evaluateMany
    cases evaluator.evaluateAll (a.features.map a.query) with
    | error failure => rfl
    | ok es =>
      have hresults : es.map (i.treatment false now) =
          (es.map (i.treatment true now)).map TreatmentPayload.withoutConfig := by
        rw [List.map_map]
        rfl
      simp only [Records.perform, Reply.withoutConfigs, Response.map, Response.ok, Option.map_some,
        Payload.withoutConfigs, hresults]
  | _ => rfl

/-! ## One request against a run -/

/-- **What it makes no difference to**, whatever the evaluator, the client, the state of the queues and
the counters. -/
structure Batching (evaluator : Evaluator) (now : Int64) (i : Identity) (version : UInt8)
    (records : Records) : Prop where
  /-- Whether features are asked for in one request or in one each: the answers are the same, and so are
  the queues and the counters. -/
  sameAsSingles (a : EvaluationArguments (List String)) (withConfig : Bool) (hne : a.features ≠ [])
    (hall : ∀ feature ∈ a.features, ∃ e, evaluator.evaluate (a.query feature) = .ok e)
    (batch : Rpc) (hbatch : batch.Asks version (.treatments a withConfig)) (singles : List Rpc)
    (hsingles : List.Forall₂
      (fun feature rpc => Rpc.Asks rpc version (.treatment (a.one feature) withConfig)) a.features singles) :
    ∃ results after,
      results.length = a.features.length ∧
      respond evaluator now (.registered i version) records batch =
        (.next (.ok (some (.treatments results))), .registered i version, after) ∧
      respondAll evaluator now (.registered i version) records singles =
        (results.map fun t => .next (.ok (some (.treatment t))), .registered i version, after)
  /-- Whether configurations are asked for: what is answered is the same without them, and what is left
  behind is the same. -/
  onlyConfigs (r : Request) (plain full : Rpc) (hplain : plain.Asks version (r.withConfig false))
    (hfull : full.Asks version (r.withConfig true)) :
    respond evaluator now (.registered i version) records plain =
      ((respond evaluator now (.registered i version) records full).1.withoutConfigs,
        (respond evaluator now (.registered i version) records full).2)
  /-- Several features are evaluated in one way. -/
  several (qs : List Query) (withConfig : Bool) :
    records.perform (evaluateMany evaluator now i qs withConfig) =
      (.ofResult ((evaluateAndQueue evaluator now i qs withConfig records).1.map .treatments),
        (evaluateAndQueue evaluator now i qs withConfig records).2)
  /-- One feature is evaluated in the same way, as a list of one, and its result is there. -/
  hasResult (q : Query) (withConfig : Bool) :
    records.perform (evaluateOne evaluator now i q withConfig) =
        (.ofResult ((evaluateAndQueue evaluator now i [q] withConfig records).1.bind (lastResult q.feature)),
          (evaluateAndQueue evaluator now i [q] withConfig records).2) ∧
      ∀ results, (evaluateAndQueue evaluator now i [q] withConfig records).1 = .ok results →
        ∃ t, lastResult q.feature results = .ok (.treatment t)
  /-- An offer that is cut short leaves something out, so what is dropped is the difference. -/
  offer (impressions : List Impression) :
    (records.impressions.push i.tag impressions).1 = .ok impressions.length ∨
      ∃ pushed, pushed < impressions.length ∧
        (records.impressions.push i.tag impressions).1 = .error (.full pushed)

/-- **One request for several features is a run of requests for one each**, and configurations are an
addition to the answers and no more. -/
theorem batch_is_run_of_singles (evaluator : Evaluator) (now : Int64) (i : Identity) (version : UInt8)
    (records : Records) : Batching evaluator now i version records where
  sameAsSingles := by
    intro a withConfig hne hall batch hbatch singles hsingles
    rcases evaluator.evaluateAll_cases (a.features.map a.query) with
      ⟨es, hok, hes⟩ | ⟨q, hq, failure, hfail, -⟩
    · rw [List.forall₂_map_left_iff] at hes
      have himpressions : (a.features.map a.query).zipWith (fun q e => q.impression now e) es ≠ [] := by
        rw [← List.length_pos_iff, List.length_zipWith, List.length_map, ← hes.length_eq, Nat.min_self]
        exact List.length_pos_iff.mpr hne
      let after : Records :=
        { records with
          impressions := (records.impressions.push i.tag
            ((a.features.map a.query).zipWith (fun q e => q.impression now e) es)).2 }
      refine ⟨es.map (i.treatment withConfig now), after, ?_, ?_,
        (respondAll_singles records hes hsingles).trans ?_⟩
      · rw [List.length_map, hes.length_eq]
      · rw [respond_of_asks hbatch]
        show ((records.perform (evaluateMany evaluator now i _ withConfig)).1, _,
          (records.perform (evaluateMany evaluator now i _ withConfig)).2) = _
        rw [evaluateMany, hok]
        rfl
      · rw [List.map_map, ← FanIn.push_eq_foldl _ _ himpressions]
        rfl
    · obtain ⟨feature, hfeature, rfl⟩ := List.mem_map.mp hq
      obtain ⟨e, he⟩ := hall feature hfeature
      rw [he] at hfail
      cases hfail
  onlyConfigs := by
    intro r plain full hplain hfull
    rw [respond_of_asks hplain, respond_of_asks hfull, perform_action_withoutConfigs]
  several := fun qs withConfig => perform_evaluateMany qs withConfig records
  hasResult := by
    intro q withConfig
    refine ⟨perform_evaluateOne q withConfig records, fun results hresults => ?_⟩
    obtain ⟨t, rfl⟩ := List.length_eq_one_iff.mp (length_of_evaluateAndQueue hresults)
    exact ⟨t, rfl⟩
  offer := records.impressions.push_result i.tag

/-- Three features, and room for one impression: the queue fills on the way, and two are dropped. -/
theorem batch_is_run_of_singles_queue_fills :
    let evaluator : Evaluator :=
      { RuleSet.empty.evaluator with evaluate := fun q => .ok ⟨"on", q.feature, 3, some "red"⟩ }
    let i : Identity := ⟨"shop", "sdk-1", ⟨1⟩⟩
    let a : EvaluationArguments (List String) := ⟨"user", some "", ["banner", "footer", "aside"], none⟩
    let singles := a.features.map fun feature => (Request.treatment (a.one feature) true).toRpc
    let batch := respond evaluator 7 (.registered i protocolVersion) (.new 1 1)
      (Request.treatments a true).toRpc
    let run := respondAll evaluator 7 (.registered i protocolVersion) (.new 1 1) singles
    batch.2 = run.2 ∧ run.2.2.impressions.stats = ⟨1, 2⟩ := by
  intro evaluator i a singles batch run
  have hsingles : List.Forall₂ (fun feature rpc =>
      Rpc.Asks rpc protocolVersion (.treatment (a.one feature) true)) a.features singles :=
    List.forall₂_map_right_iff.mpr (List.forall₂_same.mpr fun _ _ => Request.asks_toRpc _)
  obtain ⟨results, after, -, hbatch, hrun⟩ :=
    (batch_is_run_of_singles evaluator 7 i protocolVersion (.new 1 1)).sameAsSingles a true (by decide)
      (fun _ _ => ⟨_, rfl⟩) _ (Request.asks_toRpc _) singles hsingles
  have hsame : batch.2 = run.2 := (congrArg Prod.snd hbatch).trans (congrArg Prod.snd hrun).symm
  refine ⟨hsame, ?_⟩
  rw [← hsame]
  decide

end Session

end FlagSidecar
