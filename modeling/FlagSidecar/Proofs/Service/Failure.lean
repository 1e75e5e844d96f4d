import FlagSidecar.Proofs.Protocol.Request
import FlagSidecar.Proofs.Service.Pinning
import Mathlib.Data.List.Forall2

/-!
# FlagSidecar.Proofs.Service.Failure: a request fails for one of four reasons, and leaves no trace

A request that passes the checks of registration and version is answered, and the connection goes on. The
answer is an internal error in four cases and success in every other: there is no such operation, the
connection is registered already, the arguments are rejected, or the evaluator fails on a requested
feature. A request that fails changes neither the session nor a queue nor a counter, however far it got.

Main statement: `failure_leaves_no_trace`.
-/

namespace FlagSidecar

open Response (refusal)

/-! ## Evaluations of several features -/

/-- **Several queries are all evaluated, or one of them fails** and its failure is the result. -/
theorem Evaluator.evaluateAll_cases (evaluator : Evaluator) (qs : List Query) :
    (∃ es, evaluator.evaluateAll qs = .ok es ∧
      List.Forall₂ (fun q e => evaluator.evaluate q = .ok e) qs es) ∨
    ∃ q ∈ qs, ∃ failure, evaluator.evaluate q = .error failure ∧
      evaluator.evaluateAll qs = .error failure := by
  induction qs with
  | nil => exact .inl ⟨[], rfl, .nil⟩
  | cons q rest ih =>
    unfold evaluateAll
    cases hq : evaluator.evaluate q with
    | error failure => exact .inr ⟨q, List.mem_cons_self, failure, hq, rfl⟩
    | ok e =>
      rcases ih with ⟨es, hall, hes⟩ | ⟨q', hmem, failure, hfail, hall⟩
      · left
        refine ⟨e :: es, ?_, .cons hq hes⟩
        rw [hall]
        rfl
      · right
        refine ⟨q', List.mem_cons_of_mem q hmem, failure, hfail, ?_⟩
        rw [hall]
        rfl

/-! ## Requests and the ways in which they fail -/

/-- What a request asks the evaluator: one query for each requested feature. -/
def Request.queries : Request → List Query
  | .treatment a _ => [a.query a.features]
  | .treatments a _ => a.features.map a.query
  | _ => []

/-- A request is read as one of its own operation. -/
theorem Request.opCode_of_ofRpc {op : OpCode} {rpc : Rpc} {r : Request}
    (h : ofRpc op rpc = .ok r) : r.opCode = op := by
  have hmap : ∀ {α : Type} (read : Except ArgumentFault α) (f : α → Request),
      read.map f = .ok r → ∃ a, r = f a := by
    intro α read f hread
    cases read with
    | error fault => cases hread
    | ok a => exact ⟨a, (Except.ok.inj hread).symm⟩
  cases op <;>
  · obtain ⟨a, rfl⟩ := hmap _ _ h
    rfl

namespace Session

/-- The request passes the checks of registration and version. -/
def Admits : Session → Rpc → Prop
  | unregistered, rpc => rpc.opcode = OpCode.register.byte ∧ rpc.version = protocolVersion
  | registered _ version, rpc => rpc.version = version

/-- **The ways in which an admitted request fails.** -/
inductive Fails (evaluator : Evaluator) (session : Session) (rpc : Rpc) : Prop where
  /-- No operation has this code. -/
  | unknown (hop : ∀ op : OpCode, op.byte ≠ rpc.opcode)
  /-- The connection is registered, and this is a registration. -/
  | again (hsession : session ≠ unregistered) (hop : rpc.opcode = OpCode.register.byte)
  /-- The layout of the operation rejects the arguments. -/
  | arguments (op : OpCode) (fault : ArgumentFault) (hop : op.byte = rpc.opcode)
    (hread : Request.ofRpc op rpc = .error fault)
  /-- The evaluator fails on a requested feature. -/
  | evaluation (op : OpCode) (r : Request) (q : Query) (failure : EvaluationFailure)
    (hop : op.byte = rpc.opcode) (hread : Request.ofRpc op rpc = .ok r) (hq : q ∈ r.queries)
    (hfailure : evaluator.evaluate q = .error failure)

variable {evaluator : Evaluator} {now : Int64} {session : Session} {rpc : Rpc} {op : OpCode}
  {r : Request}

theorem ofByte?_eq_none_iff {b : UInt8} :
    OpCode.ofByte? b = none ↔ ∀ op : OpCode, op.byte ≠ b := by
  constructor
  · rintro hnone op rfl
    cases (OpCode.ofByte?_byte op).symm.trans hnone
  · intro h
    cases hop : OpCode.ofByte? b with
    | none => rfl
    | some op => exact absurd (OpCode.byte_of_ofByte? hop) (h op)

/-- A request that was understood fails if it registers again or the evaluator fails. -/
theorem fails_iff_of_read (hop : op.byte = rpc.opcode) (hread : Request.ofRpc op rpc = .ok r) :
    session.Fails evaluator rpc ↔ (session ≠ unregistered ∧ op = .register) ∨
      ∃ q ∈ r.queries, ∃ failure, evaluator.evaluate q = .error failure := by
  have heq : ∀ op' : OpCode, op'.byte = rpc.opcode → op' = op := by
    intro op' hop'
    have hcode := OpCode.ofByte?_byte op'
    rw [hop', ← hop, OpCode.ofByte?_byte] at hcode
    exact (Option.some.inj hcode).symm
  constructor
  · rintro (hunknown | ⟨hsession, hregister⟩ | ⟨op', fault, hop', hread'⟩ |
      ⟨op', r', q, failure, hop', hread', hq, hfailure⟩)
    · exact absurd hop (hunknown op)
    · exact .inl ⟨hsession, (heq .register hregister.symm).symm⟩
    · rw [heq op' hop', hread] at hread'
      cases hread'
    · rw [heq op' hop', hread] at hread'
      cases hread'
      exact .inr ⟨q, hq, failure, hfailure⟩
  · rintro (⟨hsession, rfl⟩ | ⟨q, hq, failure, hfailure⟩)
    · exact .again hsession hop.symm
    · exact .evaluation op r q failure hop hread hq hfailure

end Session

/-- The action is answered with success, whatever the queues hold. -/
def Action.Succeeds (a : Action) : Prop :=
  ∀ records : Records, ∃ payload, (records.perform a).1 = .next (.ok payload)

namespace Session

variable {evaluator : Evaluator} {now : Int64} {session : Session} {rpc : Rpc} {op : OpCode}
  {r : Request} {i : Identity} {version : UInt8}

/-- **What is done for a request that was understood**: nothing if the evaluator fails on one of its
features, and otherwise it succeeds. -/
theorem action_cases (evaluator : Evaluator) (now : Int64) (i : Identity)
    (hregister : r.opCode ≠ .register) :
    ((∃ q ∈ r.queries, ∃ failure, evaluator.evaluate q = .error failure) ∧
      ∃ failure, action evaluator now i r = .fail (.backend failure)) ∨
    ((∀ q ∈ r.queries, ∃ e, evaluator.evaluate q = .ok e) ∧
      (action evaluator now i r).Succeeds) := by
  cases r with
  | register j => exact absurd rfl hregister
  | treatment a withConfig =>
    rw [action, evaluateOne]
    cases hq : evaluator.evaluate (a.query a.features) with
    | error failure => exact .inl ⟨⟨_, List.mem_singleton_self _, failure, hq⟩, failure, rfl⟩
    | ok e =>
      right
      refine ⟨?_, fun records => ⟨_, rfl⟩⟩
      intro q hmem
      rw [List.mem_singleton.mp hmem]
      exact ⟨e, hq⟩
  | treatments a withConfig =>
    rw [action, evaluateMany]
    rcases evaluator.evaluateAll_cases (a.features.map a.query) with
      ⟨es, hall, hes⟩ | ⟨q, hmem, failure, hfail, hall⟩
    · right
      rw [hall]
      refine ⟨?_, fun records => ⟨_, rfl⟩⟩
      intro q hmem
      obtain ⟨k, hk, rfl⟩ := List.getElem_of_mem hmem
      exact ⟨_, hes.get hk (hes.length_eq ▸ hk)⟩
    · left
      rw [hall]
      exact ⟨⟨q, hmem, failure, hfail⟩, failure, rfl⟩
  | track a => exact .inr ⟨fun q hq => (List.not_mem_nil hq).elim, fun records => ⟨_, rfl⟩⟩
  | flagNames => exact .inr ⟨fun q hq => (List.not_mem_nil hq).elim, fun records => ⟨_, rfl⟩⟩
  | flag name => exact .inr ⟨fun q hq => (List.not_mem_nil hq).elim, fun records => ⟨_, rfl⟩⟩
  | flags => exact .inr ⟨fun q hq => (List.not_mem_nil hq).elim, fun records => ⟨_, rfl⟩⟩

/-- **Everything that an admitted request can lead to**: it fails and leaves the session alone, or it
succeeds. -/
theorem plan_of_admits (evaluator : Evaluator) (now : Int64) (h : session.Admits rpc) :
    (session.Fails evaluator rpc ∧
      ∃ asked e, plan evaluator now session rpc = ⟨session, asked, .fail e⟩) ∨
    (¬ session.Fails evaluator rpc ∧ (plan evaluator now session rpc).action.Succeeds) := by
  cases session with
  | unregistered =>
    obtain ⟨hop, hversion⟩ := h
    rw [plan_unregistered_register hop hversion]
    unfold register
    cases hread : Layout.register.ofRpc rpc with
    | error fault =>
      left
      refine ⟨.arguments .register fault hop.symm ?_, [], .args fault, rfl⟩
      rw [Request.ofRpc, hread]
      rfl
    | ok i =>
      right
      refine ⟨?_, fun records => ⟨none, rfl⟩⟩
      have hrequest : Request.ofRpc .register rpc = .ok (.register i) := by
        rw [Request.ofRpc, hread]
        rfl
      rw [fails_iff_of_read hop.symm hrequest]
      rintro (⟨hregistered, -⟩ | ⟨q, hq, -⟩)
      · exact hregistered rfl
      · cases hq
  | registered i version =>
    unfold plan
    rw [violation?_registered h]
    cases hop : OpCode.ofByte? rpc.opcode with
    | none => exact .inl ⟨.unknown (ofByte?_eq_none_iff.mp hop), [], _, rfl⟩
    | some op =>
      have hbyte := OpCode.byte_of_ofByte? hop
      show (_ ∧ ∃ asked e, serve evaluator now i version op rpc = _) ∨
        (_ ∧ (serve evaluator now i version op rpc).action.Succeeds)
      unfold serve
      by_cases hregister : op = .register
      · subst hregister
        exact .inl ⟨.again (by intro h; cases h) hbyte.symm, [], .alreadyRegistered, rfl⟩
      · rw [if_neg hregister]
        cases hread : Request.ofRpc op rpc with
        | error fault => exact .inl ⟨.arguments op fault hbyte hread, [], .args fault, rfl⟩
        | ok r =>
          rw [fails_iff_of_read hbyte hread]
          have hcode : r.opCode ≠ .register := by
            rw [Request.opCode_of_ofRpc hread]
            exact hregister
          rcases action_cases evaluator now i hcode with ⟨hfails, failure, haction⟩ | ⟨hok, haction⟩
          · left
            refine ⟨.inr hfails, asked evaluator r, .backend failure, ?_⟩
            simp only [haction]
          · right
            refine ⟨?_, haction⟩
            rintro (⟨-, hregister'⟩ | ⟨q, hq, failure, hfailure⟩)
            · exact hregister hregister'
            · obtain ⟨e, he⟩ := hok q hq
              cases he.symm.trans hfailure

end Session

/-- An answer of success is not the octets of an internal error. -/
theorem Response.write_ok_ne_refusal (payload : Option Payload) :
    (Response.ok payload).write Payload.toCbor ≠ refusal := by
  intro h
  -- the status is the fourth octet
  have hstatus : ((Response.ok payload).write Payload.toCbor)[3]? = refusal[3]? := by rw [h]
  cases hstatus

namespace Connection

variable {evaluator : Evaluator} {now : Int64} {records : Records} {c : Connection Script} {rpc : Rpc}
  {response : Response Payload}

/-! ## One turn -/

/-- A request that is answered while the connection goes on: the answer is sent, and what is left behind
is what the plan says. -/
theorem turn_of_next (hheard : c.heard? Script.wire = some rpc)
    (hreply : (records.perform (c.session.plan evaluator now rpc).action).1 = .next response) :
    let t := c.turn Script.wire evaluator now records
    t.connection.link.sent = c.link.sent ++ [response.write Payload.toCbor] ∧
      t.connection.session = (c.session.plan evaluator now rpc).session ∧
      t.records = (records.perform (c.session.plan evaluator now rpc).action).2 ∧
      (c.isOpen = true → (∀ e rest, c.link.sends ≠ .error e :: rest) →
        t.connection.isOpen = true) := by
  intro t
  let heard : Connection Script :=
    { c with
      link := (Script.wire.receive c.link).2
      session := (c.session.plan evaluator now rpc).session }
  have ht : t = ⟨heard.reply Script.wire (.next response),
      (records.perform (c.session.plan evaluator now rpc).action).2,
      (c.session.plan evaluator now rpc).asked⟩ := by
    show c.turn _ _ _ _ = _
    rw [turn_of_heard? hheard, hreply]
  rw [ht]
  refine ⟨?_, ?_, rfl, ?_⟩
  · rw [sent_reply_next]
    show (Script.wire.receive c.link).2.sent ++ _ = _
    rw [Script.sent_receive]
  · exact session_reply heard _
  · intro hopen hsend
    have hsends (e : LinkError) (rest : List (Except LinkError Unit)) :
        heard.link.sends ≠ .error e :: rest := by
      show (Script.wire.receive c.link).2.sends ≠ _
      rw [Script.sends_receive]
      exact hsend e rest
    exact isOpen_reply_next (c := heard) hopen hsends response

/-- **A failed request leaves no trace, and failures are exactly these.** A connection with any session,
over any queues, hears a request that passes the checks of registration and version. It answers an
internal error without a payload if and only if the request fails in one of the four ways; then the
session, all queues, tags and counters are as before, and the connection stays open unless the answer
cannot be sent. It answers success to every other request. -/
theorem failure_leaves_no_trace (evaluator : Evaluator) (now : Int64) (records : Records)
    (c : Connection Script) (rpc : Rpc) (hopen : c.isOpen = true)
    (hheard : c.heard? Script.wire = some rpc) (hadmits : c.session.Admits rpc) :
    let t := c.turn Script.wire evaluator now records
    (t.connection.link.sent = c.link.sent ++ [refusal] ↔ c.session.Fails evaluator rpc) ∧
      (c.session.Fails evaluator rpc →
        t.connection.session = c.session ∧ t.records = records ∧
          ((∀ e rest, c.link.sends ≠ .error e :: rest) → t.connection.isOpen = true)) ∧
      (¬ c.session.Fails evaluator rpc →
        ∃ payload, t.connection.link.sent =
          c.link.sent ++ [(Response.ok payload).write Payload.toCbor]) := by
  intro t
  rcases Session.plan_of_admits evaluator now hadmits with
    ⟨hfails, asked, e, hplan⟩ | ⟨hfails, hsucceeds⟩
  · have hreply : records.perform (c.session.plan evaluator now rpc).action =
        (.next .internalError, records) := by
      rw [hplan]
      rfl
    have hnext : (records.perform (c.session.plan evaluator now rpc).action).1 =
        .next .internalError := congrArg Prod.fst hreply
    obtain ⟨hsent, hsession, hrecords, hstays⟩ := turn_of_next hheard hnext
    rw [hplan] at hsession
    rw [hreply] at hrecords
    exact ⟨iff_of_true hsent hfails, fun _ => ⟨hsession, hrecords, hstays hopen⟩,
      fun h => absurd hfails h⟩
  · obtain ⟨payload, hreply⟩ := hsucceeds records
    obtain ⟨hsent, -, -, -⟩ := turn_of_next hheard hreply
    refine ⟨iff_of_false ?_ hfails, fun h => absurd h hfails, fun _ => ⟨payload, hsent⟩⟩
    intro hrefusal
    rw [show t.connection.link.sent = _ from hsent, List.append_cancel_left_eq] at hrefusal
    exact Response.write_ok_ne_refusal payload (List.singleton_inj.mp hrefusal)

/-- Two features are asked for at once. The evaluator answers the first and fails on the second: the
answer is an internal error, and no impression is queued. -/
theorem failure_leaves_no_trace_second_feature :
    let evaluator := RuleSet.empty.evaluator.failingOn ["footer"] "no rules"
    let request : Request := .treatments ⟨"user", none, ["banner", "footer"], none⟩ false
    let c : Connection Script :=
      { link := ⟨[.ok request.toRpc.write], [], [], 0⟩
        session := .registered ⟨"shop", "sdk-1", ⟨0⟩⟩ protocolVersion }
    let t := c.turn Script.wire evaluator 7 (.new 1 1)
    t.connection.link.sent = [refusal] ∧ t.records.impressions.queues.length = 0 ∧
      t.connection.isOpen = true := by
  intro evaluator request c t
  have hheard : c.heard? Script.wire = some request.toRpc := Request.read?_write_nil (by decide)
  obtain ⟨hsent, hleft, -⟩ :=
    failure_leaves_no_trace evaluator 7 (.new 1 1) c request.toRpc rfl hheard rfl
  have hfails : c.session.Fails evaluator request.toRpc := by
    refine .evaluation .treatments request ⟨"user", none, "footer", none⟩ ⟨"footer", "no rules"⟩
      rfl rfl ?_ rfl
    exact List.mem_cons_of_mem _ List.mem_cons_self
  obtain ⟨-, hrecords, hopen⟩ := hleft hfails
  refine ⟨hsent.mpr hfails, ?_, hopen ?_⟩
  · show (c.turn Script.wire evaluator 7 (.new 1 1)).records.impressions.queues.length = 0
    rw [hrecords]
    rfl
  · intro e rest h
    cases h

end Connection

end FlagSidecar
