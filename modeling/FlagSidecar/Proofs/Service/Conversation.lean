import FlagSidecar.Flag.RuleSet
import FlagSidecar.Proofs.Link.Terminal
import FlagSidecar.Proofs.Service.Direct
import FlagSidecar.Proofs.Service.Run
import FlagSidecar.Service.Dialogue

/-!
# FlagSidecar.Proofs.Service.Conversation: a link is transparent

Between calls both ends of a connection wait, and the server is registered or not. From such a state a
call goes the whole way: the request is written, framed, carried, read and understood; the server acts and
answers; the answer is carried back and read as what it says. Afterwards both ends wait again. So a whole
conversation over the link comes to what the same calls come to with nothing in between.

Main statement: `conversation_transparent`.
-/

namespace FlagSidecar

/-! ## The server's turn -/

namespace Connection

variable {evaluator : Evaluator} {framer : Framer} {capacity : Nat} {c : Connection Terminal}
  {r : Request} {now : Int64} {records records' : Records} {response : Response Payload}

/-- **A request that has travelled to a waiting server is answered in one turn**, as the session's plan
says, and the server waits again. -/
theorem serve_arrived (hlink : c.link.Waits framer capacity) (houtcome : c.outcome = none)
    (hrequest : framer.Fits capacity r.toRpc.write) (p q : Passage)
    (hperform : records.perform (c.session.plan evaluator now r.toRpc).action =
      (.next response, records'))
    (hresponse : (response.write Payload.toCbor).length < framer.limit) :
    ∃ link, link.Waits framer capacity ∧
      link.outflow.written = framer.frame (response.write Payload.toCbor) ∧
      { c with link := (c.link.arrive p (framer.frame r.toRpc.write)).ready q }.serve Terminal.wire
          evaluator [now] records =
        ⟨⟨link, (c.session.plan evaluator now r.toRpc).session, none⟩, records',
          (c.session.plan evaluator now r.toRpc).asked⟩ := by
  obtain ⟨hready, houtflow⟩ := hlink.ready q
  obtain ⟨received, hreceive, hreceived, hkept⟩ := hready.receive p r.toRpc.write_ne_nil hrequest
  obtain ⟨link, hsend, hwaits, hwritten⟩ :=
    hreceived.send (hkept.trans houtflow) hresponse
  refine ⟨link, hwaits, hwritten, ?_⟩
  have hread : Rpc.read? r.toRpc.write = some r.toRpc :=
    Request.read?_write_nil (Nat.lt_of_lt_of_le hrequest.lt_limit framer.limit_le)
  have hheard : heard? Terminal.wire
      { c with link := (c.link.ready q).arrive p (framer.frame r.toRpc.write) } = some r.toRpc := by
    rw [heard?, hreceive]
    exact hread
  have hopen : isOpen
      { c with link := (c.link.ready q).arrive p (framer.frame r.toRpc.write) } = true := by
    rw [isOpen, houtcome]
    rfl
  -- what the server writes next and what it reads next do not touch each other
  show serve Terminal.wire evaluator [now] records
    { c with link := (c.link.ready q).arrive p (framer.frame r.toRpc.write) } = _
  rw [serve_cons_of_open hopen, turn_of_heard? hheard]
  simp only [hperform, hreceive, reply, send, hsend, houtcome]
  rw [if_pos (by rfl), serve, Turn.behind]
  simp only [List.append_nil]

end Connection

/-! ## Calls -/

namespace Dialogue

/-- **Both ends wait**, between calls, and this is what the client has declared. -/
structure Settled (framer : Framer) (clientCapacity serverCapacity : Nat) (session : Session)
    (d : Dialogue) : Prop where
  client : d.client.Waits framer clientCapacity
  server : d.server.link.Waits framer serverCapacity
  session_eq : d.server.session = session
  outcome_eq : d.server.outcome = none

theorem settled_new (framer : Framer) (clientOptions serverOptions : TransportOptions)
    (records : Records) :
    Settled framer (max 1 clientOptions.bufferSize) (max 1 serverOptions.bufferSize) .unregistered
      (new framer clientOptions serverOptions records) where
  client := Terminal.waits_new framer clientOptions
  server := Terminal.waits_new framer serverOptions
  session_eq := rfl
  outcome_eq := rfl

variable {evaluator : Evaluator} {framer : Framer} {clientCapacity serverCapacity : Nat}
  {session : Session} {d : Dialogue}

/-- **One call.** Where the session's plan gives an answer and goes on, the call returns what the answer
says, and both ends wait again. -/
theorem Settled.call (h : d.Settled framer clientCapacity serverCapacity session) (x : Exchange)
    {r : Request} {response : Response Payload} {records' : Records}
    (hrequest : framer.Fits serverCapacity r.toRpc.write)
    (hperform : d.records.perform (session.plan evaluator x.now r.toRpc).action =
      (.next response, records'))
    (hanswer : framer.Fits clientCapacity (response.write Payload.toCbor)) :
    ∃ d', (wire evaluator x).call r d = (r.answer (response.write Payload.toCbor), d') ∧
      d'.Settled framer clientCapacity serverCapacity
        (session.plan evaluator x.now r.toRpc).session ∧
      d'.records = records' := by
  obtain ⟨hclient, hserver, rfl, houtcome⟩ := h
  -- the request goes out, the server takes its turn, and the answer comes back
  obtain ⟨hready, houtflow⟩ := hclient.ready x.request
  obtain ⟨client, hsend, hsent, hwritten⟩ := hready.send houtflow hrequest.lt_limit
  obtain ⟨link, hlink, hanswered, hserve⟩ := Connection.serve_arrived hserver houtcome hrequest
    x.request x.answer hperform hanswer.lt_limit
  obtain ⟨client', hreceive, hreceived, -⟩ := hsent.receive x.answer response.write_ne_nil hanswer
  refine ⟨⟨client', ⟨link, (d.server.session.plan evaluator x.now r.toRpc).session, none⟩,
    records'⟩, ?_, ⟨hreceived, hlink, rfl, rfl⟩, rfl⟩
  have hwireSend : (wire evaluator x).send r.toRpc.write d =
      (.ok (), { d with
        client, server.link := d.server.link.arrive x.request (framer.frame r.toRpc.write) }) := by
    rw [← hwritten, wire]
    simp only [hsend]
  have hwireReceive : (wire evaluator x).receive { d with
        client, server.link := d.server.link.arrive x.request (framer.frame r.toRpc.write) } =
      (.ok (response.write Payload.toCbor), ⟨client', ⟨link,
        (d.server.session.plan evaluator x.now r.toRpc).session, none⟩, records'⟩) := by
    rw [wire]
    simp only [hserve, hanswered, hreceive]
  rw [Wire.call, hwireSend]
  simp only [hwireReceive]

/-- The call that registers. -/
theorem Settled.register (h : d.Settled framer clientCapacity serverCapacity .unregistered)
    (x : Exchange) (i : Identity)
    (hrequest : framer.Fits serverCapacity (Request.register i).toRpc.write)
    (hanswer : framer.Fits clientCapacity ((Response.ok none).write Payload.toCbor)) :
    ∃ d', (wire evaluator x).call (.register i) d = (.ok none, d') ∧
      d'.Settled framer clientCapacity serverCapacity (.registered i protocolVersion) ∧
      d'.records = d.records := by
  have hplan := Session.plan_sent_register evaluator x.now i
  have hperform : d.records.perform
      (Session.plan evaluator x.now .unregistered (Request.register i).toRpc).action =
        (.next (.ok none), d.records) := by
    rw [hplan]
    rfl
  obtain ⟨d', hcall, hsettled, hrecords⟩ := h.call x hrequest hperform hanswer
  rw [hplan] at hsettled
  rw [Request.answer_acknowledged rfl] at hcall
  exact ⟨d', hcall, hsettled, hrecords⟩

/-- **A call of a registered client** comes to what it comes to with nothing in between. -/
theorem Settled.request {i : Identity}
    (h : d.Settled framer clientCapacity serverCapacity (.registered i protocolVersion))
    (x : Exchange) {r : Request} (hrequest : framer.Fits serverCapacity r.toRpc.write)
    (hanswer : framer.Fits clientCapacity
      ((Direct.answer (Direct.call evaluator i x.now d.records r).1).write Payload.toCbor)) :
    ∃ d', (wire evaluator x).call r d = ((Direct.call evaluator i x.now d.records r).1, d') ∧
      d'.Settled framer clientCapacity serverCapacity (.registered i protocolVersion) ∧
      d'.records = (Direct.call evaluator i x.now d.records r).2 := by
  have hplan := Session.plan_sent evaluator x.now i r
  have hperform := Direct.perform_action evaluator i x.now d.records r
  obtain ⟨d', hcall, hsettled, hrecords⟩ := h.call x hrequest (by rw [hplan, hperform]) hanswer
  rw [hplan] at hsettled
  rw [Direct.answer_call (Nat.lt_of_lt_of_le hanswer.lt_limit framer.limit_le)] at hcall
  exact ⟨d', hcall, hsettled, hrecords⟩

/-! ## Conversations -/

/-- The calls with their times. -/
def timed (calls : List (Request × Exchange)) : List (Request × Int64) :=
  calls.map fun c => (c.1, c.2.now)

/-- **A registered client's conversation.** The induction is on the calls; what is carried along is that
both ends wait and that the queues are those of the calls made directly. -/
theorem Settled.converse {i : Identity} {calls : List (Request × Exchange)}
    (h : d.Settled framer clientCapacity serverCapacity (.registered i protocolVersion))
    (hrequests : ∀ c ∈ calls, framer.Fits serverCapacity c.1.toRpc.write)
    (hanswers : ∀ result ∈ (Direct.run evaluator i (timed calls) d.records).1,
      framer.Fits clientCapacity ((Direct.answer result).write Payload.toCbor)) :
    ∃ d', Dialogue.converse evaluator calls d =
        ((Direct.run evaluator i (timed calls) d.records).1, d') ∧
      d'.Settled framer clientCapacity serverCapacity (.registered i protocolVersion) ∧
      d'.records = (Direct.run evaluator i (timed calls) d.records).2 := by
  induction calls generalizing d with
  | nil => exact ⟨d, rfl, h, rfl⟩
  | cons c calls ih =>
    obtain ⟨r, x⟩ := c
    rw [timed, List.map_cons, Direct.run] at hanswers ⊢
    obtain ⟨hanswer, hlater⟩ := List.forall_mem_cons.mp hanswers
    obtain ⟨hrequest, hrequests⟩ := List.forall_mem_cons.mp hrequests
    obtain ⟨d₁, hcall, hsettled₁, hrecords₁⟩ := h.request x hrequest hanswer
    -- the later calls are made on the queues that the first one leaves behind
    rw [← hrecords₁] at hlater
    obtain ⟨d₂, hconverse, hsettled₂, hrecords₂⟩ := ih hsettled₁ hrequests hlater
    refine ⟨d₂, ?_, hsettled₂, ?_⟩
    · rw [Dialogue.converse, hcall]
      simp only [hconverse, hrecords₁]
      rfl
    · rw [hrecords₂, hrecords₁]
      rfl

end Dialogue

/-- **A link is transparent over whole conversations.** A client registers on a new connection and makes
any calls, over either framer and however the messages are written and read in pieces. Every message is
shorter than the buffer it is read into, and short enough for its length to be said. Then the registration
succeeds, each call returns what using the evaluator, the flags and the queues directly returns, the
queues are in the end what the same offers make of them directly, and the connection is still open. -/
theorem conversation_transparent (evaluator : Evaluator) (framer : Framer)
    (clientOptions serverOptions : TransportOptions) (records : Records) (i : Identity) (x : Exchange)
    (calls : List (Request × Exchange))
    (hrequests : ∀ c ∈ (.register i, x) :: calls,
      framer.Fits (max 1 serverOptions.bufferSize) c.1.toRpc.write)
    (hanswers : ∀ result ∈ .ok none :: (Direct.run evaluator i (Dialogue.timed calls) records).1,
      framer.Fits (max 1 clientOptions.bufferSize)
        ((Direct.answer result).write Payload.toCbor)) :
    let conversation := Dialogue.converse evaluator ((.register i, x) :: calls)
      (.new framer clientOptions serverOptions records)
    conversation.1 = .ok none :: (Direct.run evaluator i (Dialogue.timed calls) records).1 ∧
      conversation.2.records = (Direct.run evaluator i (Dialogue.timed calls) records).2 ∧
      conversation.2.server.isOpen = true ∧
      conversation.2.server.session = .registered i protocolVersion := by
  obtain ⟨hregister, hrequests⟩ := List.forall_mem_cons.mp hrequests
  obtain ⟨hacknowledgement, hanswers⟩ := List.forall_mem_cons.mp hanswers
  obtain ⟨d, hcall, hsettled, hrecords⟩ :=
    (Dialogue.settled_new framer clientOptions serverOptions records).register x i hregister
      hacknowledgement
  replace hrecords : d.records = records := hrecords
  rw [← hrecords] at hanswers
  obtain ⟨d', hconverse, hsettled', hrecords'⟩ := hsettled.converse hrequests hanswers
  rw [hrecords] at hconverse hrecords'
  intro conversation
  have hconversation : conversation =
      (.ok none :: (Direct.run evaluator i (Dialogue.timed calls) records).1, d') := by
    show Dialogue.converse _ _ _ = _
    rw [Dialogue.converse, hcall]
    simp only [hconverse]
  rw [hconversation]
  refine ⟨rfl, hrecords', ?_, hsettled'.session_eq⟩
  rw [Connection.isOpen, hsettled'.outcome_eq]
  rfl

/-- A treatment of a flag that is not defined, asked and answered in small pieces by a client that listens; a
report, which is queued; and a second registration. -/
theorem conversation_transparent_control :
    let client : Identity := ⟨"shop", "rust-1", ⟨1⟩⟩
    let conversation := Dialogue.converse RuleSet.empty.evaluator
      [(.register client, { now := 0 }),
        (.treatment ⟨"user", none, "banner", none⟩ false,
          { now := 7, request := ⟨[0, 2], [0, 0, 0, 0, 0]⟩, answer := ⟨[], [1, 5]⟩ }),
        (.track ⟨"user", "account", "order", none, none, 3⟩, { now := 8 }),
        (.register client, { now := 9 })]
      (.new .lengthPrefixed {} {} (.new 4 4))
    conversation.1 = [.ok none,
        .ok (some (.treatment ⟨"control", none, some ⟨"definition not found", 7, -1⟩⟩)),
        .ok (some (.track true)), .error (.remote 0x10)] ∧
      conversation.2.records.impressions.held ⟨"shop", "rust-1"⟩ =
        [⟨"user", none, "banner", "control", "definition not found", -1, 7⟩] ∧
      conversation.2.records.events.held ⟨"shop", "rust-1"⟩ =
        [⟨"user", "account", "order", none, none, 3⟩] := by
  have h := conversation_transparent RuleSet.empty.evaluator
    .lengthPrefixed {} {} (.new 4 4) ⟨"shop", "rust-1", ⟨1⟩⟩ { now := 0 }
    [(.treatment ⟨"user", none, "banner", none⟩ false,
        { now := 7, request := ⟨[0, 2], [0, 0, 0, 0, 0]⟩, answer := ⟨[], [1, 5]⟩ }),
      (.track ⟨"user", "account", "order", none, none, 3⟩, { now := 8 }),
      (.register ⟨"shop", "rust-1", ⟨1⟩⟩, { now := 9 })] (by decide) (by decide)
  intro client conversation
  obtain ⟨hresults, hrecords, -, -⟩ := h
  refine ⟨?_, ?_, ?_⟩
  · rw [hresults]
    rfl
  · rw [hrecords]
    decide
  · rw [hrecords]
    decide

end FlagSidecar
