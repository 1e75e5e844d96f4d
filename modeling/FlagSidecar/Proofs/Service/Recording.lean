import FlagSidecar.Proofs.Service.Failure

/-!
# FlagSidecar.Proofs.Service.Recording: what is answered is what is recorded

A request that is answered with success is recorded as it is answered. An evaluation is answered by one
entry for each requested feature and recorded by one impression for each, in the order of the request;
entry and impression at one place tell the same evaluation. All impressions of a request are offered at
once. A report is offered as one event, and the answer says whether it was queued. Nothing else is
recorded.

Main statement: `answered_is_recorded`.
-/

namespace FlagSidecar

/-! ## What tells an evaluation -/

/-- **An entry of an answer and an impression tell one evaluation** of a query: the entry with its
configuration if that was asked for, and with the data of the impression if the client's flags ask for
it; the impression with the query and the time. -/
structure Evaluation.Told (e : Evaluation) (i : Identity) (withConfig : Bool) (now : Int64) (q : Query)
    (entry : TreatmentPayload) (impression : Impression) : Prop where
  answered : entry.treatment = e.treatment
  config : entry.config = if withConfig then e.config else none
  listener : entry.listener =
    if i.flags.bits.toNat.testBit 0 then
      some ⟨impression.label, impression.time, impression.changeNumber⟩
    else none
  recorded : impression = {
    key := q.key, bucketingKey := q.bucketingKey, feature := q.feature
    treatment := e.treatment, label := e.label, changeNumber := e.changeNumber, time := now }

theorem Evaluation.told (e : Evaluation) (i : Identity) (withConfig : Bool) (now : Int64) (q : Query) :
    e.Told i withConfig now q (i.treatment withConfig now e) (q.impression now e) where
  answered := rfl
  config := rfl
  listener := by
    rw [← i.flags.returnImpressionData_eq]
    rfl
  recorded := rfl

/-- **How a request is recorded**, by what it is answered and what is offered to the queues. -/
inductive Recorded (evaluator : Evaluator) (i : Identity) (now : Int64) (events : FanIn ClientTag Event) :
    Request → Payload → Option Offer → Prop where
  | treatment (a : EvaluationArguments String) (withConfig : Bool) (e : Evaluation)
      (entry : TreatmentPayload) (impression : Impression)
      (hevaluate : evaluator.evaluate ⟨a.key, a.bucketingKey, a.features, a.attributes⟩ = .ok e)
      (htold : e.Told i withConfig now (a.query a.features) entry impression) :
      Recorded evaluator i now events (.treatment a withConfig) (.treatment entry)
        (some (.impressions i.tag [impression]))
  | treatments (a : EvaluationArguments (List String)) (withConfig : Bool)
      (entries : List TreatmentPayload) (batch : List Impression)
      (hentries : entries.length = a.features.length) (hbatch : batch.length = a.features.length)
      (htold : ∀ (k : Nat) (feature : String), a.features[k]? = some feature →
        ∃ e entry impression, entries[k]? = some entry ∧ batch[k]? = some impression ∧
          evaluator.evaluate ⟨a.key, a.bucketingKey, feature, a.attributes⟩ = .ok e ∧
          e.Told i withConfig now (a.query feature) entry impression) :
      Recorded evaluator i now events (.treatments a withConfig) (.treatments entries)
        (some (.impressions i.tag batch))
  | track (a : TrackArguments) (event : Event) (success : Bool)
      (hevent : event = {
        key := a.key, trafficType := a.trafficType, eventType := a.eventType, value := a.value
        properties := a.properties, timestamp := a.timestamp })
      (hsuccess : success = true ↔ (events.push i.tag [event]).1.moved = 1) :
      Recorded evaluator i now events (.track a) (.track success) (some (.event i.tag event))
  | flagNames :
      Recorded evaluator i now events .flagNames (.flagNames evaluator.flagNames) none
  | flag (name : String) :
      Recorded evaluator i now events (.flag name) (.flag (evaluator.flag name)) none
  | flags : Recorded evaluator i now events .flags (.flags evaluator.flags) none

/-! ## Offers and their results -/

/-- A single item is pushed or it is not. -/
theorem FanIn.moved_push_singleton {κ α : Type} [DecidableEq κ] (f : FanIn κ α) (tag : κ) (item : α) :
    (f.push tag [item]).1.toBool = true ↔ (f.push tag [item]).1.moved = 1 := by
  have hpush := (pushTo_self (.forSize f.queueSize) [item] f.queues tag).1
  replace hpush : (f.push tag [item]).1 = _ := hpush
  rw [hpush, Ring.push, Ring.pushFrom]
  cases Ring.pushOne? _ item with
  | none => exact iff_of_false Bool.false_ne_true (by intro h; cases h)
  | some r => exact iff_of_true rfl rfl

/-- What is answered depends on the queues for a report only. -/
theorem Records.fst_perform_congr {a : Action} (h : ∀ tag event, a ≠ .track tag event)
    (r r' : Records) : (r.perform a).1 = (r'.perform a).1 := by
  cases a with
  | track tag event => exact absurd rfl (h tag event)
  | _ => rfl

namespace Session

variable {evaluator : Evaluator} {now : Int64} {rpc : Rpc} {r : Request} {i : Identity}
  {version : UInt8}

/-- A request of a registered connection that does not fail has been understood. -/
theorem understood_of_not_fails (hfails : ¬ (registered i version).Fails evaluator rpc) :
    ∃ r : Request, OpCode.ofByte? rpc.opcode = some r.opCode ∧ Request.ofRpc r.opCode rpc = .ok r ∧
      r.opCode ≠ .register ∧ ∀ q ∈ r.queries, ∃ e, evaluator.evaluate q = .ok e := by
  cases hop : OpCode.ofByte? rpc.opcode with
  | none => exact absurd (.unknown (ofByte?_eq_none_iff.mp hop)) hfails
  | some op =>
    have hbyte := OpCode.byte_of_ofByte? hop
    cases hread : Request.ofRpc op rpc with
    | error fault => exact absurd (.arguments op fault hbyte hread) hfails
    | ok r =>
      obtain rfl := Request.opCode_of_ofRpc hread
      refine ⟨r, rfl, hread, ?_, ?_⟩
      · intro hregister
        exact hfails (.again (by intro h; cases h) (by rw [← hbyte, hregister]))
      · intro q hq
        cases he : evaluator.evaluate q with
        | error failure => exact absurd (.evaluation _ r q failure hbyte hread hq he) hfails
        | ok e => exact ⟨e, rfl⟩

/-- **What is done for a request that does not fail is what records it.** -/
theorem recorded_action (now : Int64) (i : Identity) (hregister : r.opCode ≠ .register)
    (hqueries : ∀ q ∈ r.queries, ∃ e, evaluator.evaluate q = .ok e) (records : Records) :
    ∃ payload, (records.perform (action evaluator now i r)).1 = .next (.ok (some payload)) ∧
      Recorded evaluator i now records.events r payload (action evaluator now i r).offer? := by
  cases r with
  | register j => exact absurd rfl hregister
  | treatment a withConfig =>
    obtain ⟨e, he⟩ := hqueries (a.query a.features) (List.mem_singleton_self _)
    rw [action, evaluateOne, he]
    exact ⟨_, rfl, .treatment a withConfig e _ _ he (e.told i withConfig now _)⟩
  | treatments a withConfig =>
    rw [action, evaluateMany]
    rcases evaluator.evaluateAll_cases (a.features.map a.query) with
      ⟨es, hall, hes⟩ | ⟨q, hmem, failure, hfail, -⟩
    · rw [hall]
      have hlength : es.length = a.features.length := by
        rw [← hes.length_eq, List.length_map]
      refine ⟨_, rfl, .treatments a withConfig _ _ ?_ ?_ ?_⟩
      · rw [List.length_map, hlength]
      · rw [List.length_zipWith, List.length_map, hlength, Nat.min_self]
      · intro k feature hfeature
        obtain ⟨hk, hfeature⟩ := List.getElem?_eq_some_iff.mp hfeature
        have hke : k < es.length := by omega
        have hevaluate := hes.get (by rw [List.length_map]; exact hk) hke
        simp only [List.get_eq_getElem, List.getElem_map, hfeature] at hevaluate
        refine ⟨es[k], _, _, ?_, ?_, hevaluate, es[k].told i withConfig now _⟩
        · rw [List.getElem?_map, List.getElem?_eq_getElem hke]
          rfl
        · rw [List.getElem?_zipWith, List.getElem?_map, List.getElem?_eq_getElem hk,
            List.getElem?_eq_getElem hke, hfeature]
          rfl
    · obtain ⟨e, he⟩ := hqueries q hmem
      cases he.symm.trans hfail
  | track a =>
    exact ⟨_, rfl, .track a a.event _ rfl (records.events.moved_push_singleton i.tag a.event)⟩
  | flagNames => exact ⟨_, rfl, .flagNames⟩
  | flag name => exact ⟨_, rfl, .flag name⟩
  | flags => exact ⟨_, rfl, .flags⟩

end Session

namespace Connection

variable {evaluator : Evaluator} {now : Int64} {records : Records} {c : Connection Script} {rpc : Rpc}
  {i : Identity} {version : UInt8}

/-- Only a request that is admitted and does not fail is answered with success. -/
theorem not_fails_of_answered (hsession : c.session = .registered i version)
    (hheard : c.heard? Script.wire = some rpc) {payload : Option Payload}
    (hok : (c.turn Script.wire evaluator now records).connection.link.sent =
      c.link.sent ++ [(Response.ok payload).write Payload.toCbor]) :
    rpc.version = version ∧ ¬ (Session.registered i version).Fails evaluator rpc := by
  have hversion : rpc.version = version := by
    -- a request of another version is not answered at all
    by_contra hother
    rw [turn_of_heard? hheard, hsession, Session.plan_registered_of_version hother] at hok
    replace hok : (Script.wire.receive c.link).2.sent = _ := hok
    rw [Script.sent_receive] at hok
    simpa using congrArg List.length hok
  refine ⟨hversion, ?_⟩
  intro hfails
  have hadmits : (Session.registered i version).Admits rpc := hversion
  rcases Session.plan_of_admits evaluator now hadmits with
    ⟨-, asked, e, hplan⟩ | ⟨hnot, -⟩
  · have hreply : (records.perform (c.session.plan evaluator now rpc).action).1 =
        .next .internalError := by
      rw [hsession, hplan]
      rfl
    rw [(turn_of_next hheard hreply).1, List.append_cancel_left_eq] at hok
    exact Response.write_ok_ne_refusal payload (List.singleton_inj.mp hok).symm
  · exact hnot hfails

/-- **What is answered is what is recorded.** A registered connection, over any queues, hears a request
and answers success. Then the request was understood; the payload that is sent and what the turn offers
to the queues record it, entry by entry and impression by impression; the queues change by that one offer
and by nothing else; and unless a report was made, the same is sent whatever the queues hold. -/
theorem answered_is_recorded (evaluator : Evaluator) (now : Int64) (records : Records)
    (c : Connection Script) (rpc : Rpc) (i : Identity) (version : UInt8)
    (hsession : c.session = .registered i version) (hheard : c.heard? Script.wire = some rpc)
    (hok : ∃ payload, (c.turn Script.wire evaluator now records).connection.link.sent =
      c.link.sent ++ [(Response.ok payload).write Payload.toCbor]) :
    let t := c.turn Script.wire evaluator now records
    let offer? := c.offer? Script.wire evaluator now
    ∃ (r : Request) (payload : Payload),
      OpCode.ofByte? rpc.opcode = some r.opCode ∧ Request.ofRpc r.opCode rpc = .ok r ∧
      t.connection.link.sent =
        c.link.sent ++ [(Response.ok (some payload)).write Payload.toCbor] ∧
      Recorded evaluator i now records.events r payload offer? ∧
      t.records = offer?.elim records records.offer ∧
      ((∀ a, r ≠ .track a) → ∀ records',
        (c.turn Script.wire evaluator now records').connection.link.sent =
          t.connection.link.sent) := by
  intro t offer?
  obtain ⟨payload₀, hok⟩ := hok
  obtain ⟨hversion, hfails⟩ := not_fails_of_answered hsession hheard hok
  obtain ⟨r, hop, hread, hregister, hqueries⟩ := Session.understood_of_not_fails hfails
  have hplan : c.session.plan evaluator now rpc =
      ⟨.registered i version, Session.asked evaluator r, Session.action evaluator now i r⟩ := by
    rw [hsession]
    exact Session.plan_registered_request hversion hop hread
  have hoffer : offer? = (Session.action evaluator now i r).offer? := by
    show Option.bind (Option.map _ (c.heard? Script.wire)) _ = _
    rw [hheard, Option.map_some, Option.bind_some, hplan]
  obtain ⟨payload, hreply, hrecorded⟩ :=
    Session.recorded_action now i hregister hqueries records
  have hsent : ∀ records' : Records,
      (records'.perform (Session.action evaluator now i r)).1 = .next (.ok (some payload)) →
      (c.turn Script.wire evaluator now records').connection.link.sent =
        c.link.sent ++ [(Response.ok (some payload)).write Payload.toCbor] := by
    intro records' hreply'
    exact (turn_of_next hheard (by rw [hplan]; exact hreply')).1
  refine ⟨r, payload, hop, hread, hsent records hreply, ?_, records_turn now records c, ?_⟩
  · rw [hoffer]
    exact hrecorded
  · intro htrack records'
    have hother : ∀ tag event, Session.action evaluator now i r ≠ .track tag event := by
      intro tag event haction
      rw [haction] at hrecorded
      cases hrecorded with
      | track a => exact htrack a rfl
    rw [hsent records' ((Records.fst_perform_congr hother records' records).trans hreply)]
    exact (hsent records hreply).symm

/-- Two features with their configurations, for a client that listens. There is room for one impression:
both features are answered, both impressions are offered, and the first is queued. -/
theorem answered_is_recorded_full_queue :
    let evaluator : Evaluator :=
      { RuleSet.empty.evaluator with evaluate := fun _ => .ok ⟨"on", "killed", 3, some "red"⟩ }
    let i : Identity := ⟨"shop", "sdk-1", ⟨1⟩⟩
    let request : Request := .treatments ⟨"user", some "", ["banner", "footer"], none⟩ true
    let c : Connection Script :=
      { link := ⟨[.ok request.toRpc.write], [], [], 0⟩, session := .registered i protocolVersion }
    let t := c.turn Script.wire evaluator 7 (.new 1 1)
    let banner : Impression := ⟨"user", some "", "banner", "on", "killed", 3, 7⟩
    let footer : Impression := ⟨"user", some "", "footer", "on", "killed", 3, 7⟩
    (∃ payload, t.connection.link.sent = [(Response.ok (some payload)).write Payload.toCbor] ∧
      Recorded evaluator i 7 (.new 1) request payload (some (.impressions i.tag [banner, footer]))) ∧
      t.records.impressions.held i.tag = [banner] := by
  intro evaluator i request c t banner footer
  have hheard : c.heard? Script.wire = some request.toRpc := Request.read?_write_nil (by decide)
  obtain ⟨r, payload, hop, hread, hsent, hrecorded, hrecords, -⟩ :=
    answered_is_recorded evaluator 7 (.new 1 1) c request.toRpc i protocolVersion rfl hheard
      ⟨some (.treatments [⟨"on", some "red", some ⟨"killed", 7, 3⟩⟩,
        ⟨"on", some "red", some ⟨"killed", 7, 3⟩⟩]), by decide⟩
  have hr : r = request := by
    have hcode : r.opCode = request.opCode :=
      Option.some.inj (hop.symm.trans (OpCode.ofByte?_byte request.opCode))
    rw [hcode] at hread
    exact Except.ok.inj (hread.symm.trans request.ofRpc_toRpc)
  have hoffer : c.offer? Script.wire evaluator 7 =
      some (.impressions i.tag [banner, footer]) := by decide
  rw [hr, hoffer] at hrecorded
  refine ⟨⟨payload, hsent, hrecorded⟩, ?_⟩
  show (c.turn Script.wire evaluator 7 (.new 1 1)).records.impressions.held i.tag = [banner]
  rw [hrecords, hoffer]
  decide

end Connection

end FlagSidecar
