import FlagSidecar.Protocol.Request
import FlagSidecar.Link.Error
import FlagSidecar.Record.Basic

/-!
# FlagSidecar.Service.Session: what a request means to a connection

A connection begins unregistered. Its first request has to be a registration in the protocol version
spoken here; the registration pins the identity and the version of the connection for good. Any other
first request is refused and ends the connection, and so does, silently, a request of another version.

`Session.plan` says what one request leads to. It reads the evaluator, the clock and the session and
nothing else; queues are touched only when the plan's action is carried out, so what a connection is
answered does not depend on other connections, the success of a track request apart.

An evaluation of several features is all or nothing: the first failure is the answer and nothing is
recorded.
-/

namespace FlagSidecar

/-- What a connection has declared so far. -/
inductive Session where
  | unregistered
  | registered (identity : Identity) (version : UInt8)
deriving DecidableEq

/-- What a request leads to. -/
inductive Action where
  /-- The connection ends without an answer. -/
  | close
  /-- An internal error is answered, and the connection ends. -/
  | refuse
  /-- An internal error is answered. -/
  | fail (e : ProtocolError)
  /-- Success without a payload is answered. -/
  | acknowledge
  | answer (payload : Payload)
  /-- The impressions are offered as one batch, and the payload is answered whatever becomes of them. -/
  | record (tag : ClientTag) (impressions : List Impression) (payload : Payload)
  /-- The event is offered, and whether it was queued is answered. -/
  | track (tag : ClientTag) (event : Event)
deriving DecidableEq

/-- What a request leads to, the session after it and how the evaluator was used. -/
structure Plan where
  session : Session
  asked : List Consultation
  action : Action

/-! ## Evaluations -/

namespace Evaluator

/-- Asks one query after the other; the first failure ends it. -/
def evaluateAll (e : Evaluator) : List Query → Except EvaluationFailure (List Evaluation)
  | [] => .ok []
  | q :: rest => do
    let r ← e.evaluate q
    let rs ← e.evaluateAll rest
    return r :: rs

/-- The queries that are asked until one fails. -/
def asked (e : Evaluator) : List Query → List Query
  | [] => []
  | q :: rest =>
    match e.evaluate q with
    | .ok _ => q :: e.asked rest
    | .error _ => [q]

end Evaluator

/-- What a client is told of an evaluation. -/
def Identity.treatment (i : Identity) (withConfig : Bool) (now : Int64) (e : Evaluation) :
    TreatmentPayload where
  treatment := e.treatment
  config := if withConfig then e.config else none
  listener :=
    if i.flags.returnImpressionData then some ⟨e.label, now, e.changeNumber⟩ else none

/-- The record of an evaluation. -/
def Query.impression (q : Query) (now : Int64) (e : Evaluation) : Impression :=
  ⟨q.key, q.bucketingKey, q.feature, e.treatment, e.label, e.changeNumber, now⟩

/-- The query of one feature. -/
def EvaluationArguments.query {φ : Type} (a : EvaluationArguments φ) (feature : String) : Query :=
  ⟨a.key, a.bucketingKey, feature, a.attributes⟩

def TrackArguments.event (a : TrackArguments) : Event :=
  ⟨a.key, a.trafficType, a.eventType, a.value, a.properties, a.timestamp⟩

namespace Session

/-! ## Requests of a registered connection -/

/-- Evaluates one feature. -/
def evaluateOne (evaluator : Evaluator) (now : Int64) (i : Identity) (q : Query)
    (withConfig : Bool) : Action :=
  match evaluator.evaluate q with
  | .error failure => .fail (.backend failure)
  | .ok e => .record i.tag [q.impression now e] (.treatment (i.treatment withConfig now e))

/-- Evaluates features in the order of the request. -/
def evaluateMany (evaluator : Evaluator) (now : Int64) (i : Identity) (qs : List Query)
    (withConfig : Bool) : Action :=
  match evaluator.evaluateAll qs with
  | .error failure => .fail (.backend failure)
  | .ok es =>
    .record i.tag (qs.zipWith (fun q e => q.impression now e) es)
      (.treatments (es.map (i.treatment withConfig now)))

/-- What a registered connection's request leads to. -/
def action (evaluator : Evaluator) (now : Int64) (i : Identity) : Request → Action
  | .register _ => .fail .alreadyRegistered
  | .treatment a withConfig => evaluateOne evaluator now i (a.query a.features) withConfig
  | .treatments a withConfig => evaluateMany evaluator now i (a.features.map a.query) withConfig
  | .track a => .track i.tag a.event
  | .flagNames => .answer (.flagNames evaluator.flagNames)
  | .flag name => .answer (.flag (evaluator.flag name))
  | .flags => .answer (.flags evaluator.flags)

/-- What a registered connection's request asks the evaluator. -/
def asked (evaluator : Evaluator) : Request → List Consultation
  | .register _ => []
  | .treatment a _ => (evaluator.asked [a.query a.features]).map .evaluate
  | .treatments a _ => (evaluator.asked (a.features.map a.query)).map .evaluate
  | .track _ => []
  | .flagNames => [.flagNames]
  | .flag name => [.flag name]
  | .flags => [.flags]

/-! ## Requests of any connection -/

/-- How a request breaks the rules of registration and version, if it does: by what it leads to. -/
def violation? : Session → Rpc → Option Action
  | unregistered, rpc =>
    if rpc.opcode ≠ OpCode.register.byte then some .refuse
    else if rpc.version ≠ protocolVersion then some .close
    else none
  | registered _ version, rpc => if rpc.version ≠ version then some .close else none

/-- The identity that a registration declares. -/
def register (rpc : Rpc) : Plan :=
  match Layout.register.ofRpc rpc with
  | .error fault => ⟨.unregistered, [], .fail (.args fault)⟩
  | .ok identity => ⟨.registered identity rpc.version, [], .acknowledge⟩

/-- What a request that breaks no rule leads to on a registered connection. -/
def serve (evaluator : Evaluator) (now : Int64) (i : Identity) (version : UInt8) (op : OpCode)
    (rpc : Rpc) : Plan :=
  let session := registered i version
  if op = .register then ⟨session, [], .fail .alreadyRegistered⟩
  else
    match Request.ofRpc op rpc with
    | .error fault => ⟨session, [], .fail (.args fault)⟩
    | .ok request => ⟨session, asked evaluator request, action evaluator now i request⟩

/-- What a request leads to. -/
def plan (evaluator : Evaluator) (now : Int64) (session : Session) (rpc : Rpc) : Plan :=
  match session.violation? rpc with
  | some action => ⟨session, [], action⟩
  | none =>
    match OpCode.ofByte? rpc.opcode with
    | none => ⟨session, [], .fail (.unknownOpCode rpc.opcode)⟩
    | some op =>
      match session with
      | unregistered => register rpc
      | registered i version => serve evaluator now i version op rpc

end Session

end FlagSidecar
