import FlagSidecar.Proofs.Service.Server
import FlagSidecar.Service.Endpoint

/-!
# FlagSidecar.Proofs.Service.Endpoint: a client of an endpoint

Between its calls a client waits, and so does the connection that serves it. A call that both ends have room
for returns what the answer of the server says, and both wait again; every other call fails. So a client that
is admitted and registers talks to the evaluator and the queues of the endpoint, and to nothing in between.

Main statements: `Endpoint.Settled.call_answered` and `Endpoint.Settled.call_failed`;
`Endpoint.Serves.join_ok` and `Endpoint.Serves.join_failed`; `Endpoint.serves_start`.
-/

namespace FlagSidecar

/-! ## What a call takes -/

/-- A request and the answer to it can be held by the pipes between a server and its peers. -/
structure Server.Carries (framer : Framer) (r : Request) (response : Response Payload) : Prop where
  request_le : (framer.frame r.toRpc.write).length ≤ Server.pipeCapacity
  answer_le : (framer.frame (response.write Payload.toCbor)).length ≤ Server.pipeCapacity

/-- A client with these options waits long enough for an answer, and both ends have room for what they are
sent. -/
structure Caller.Suits (framer : Framer) (client : TransportOptions) (serverCapacity : Nat) (r : Request)
    (response : Response Payload) : Prop where
  patient : client.readTimeout.nanos ≠ 0
  request : framer.HasRoom serverCapacity r.toRpc.write
  answer : framer.HasRoom (max 1 client.bufferSize) (response.write Payload.toCbor)

instance (framer : Framer) (r : Request) (response : Response Payload) :
    Decidable (Server.Carries framer r response) :=
  decidable_of_iff (_ ∧ _) ⟨fun h => ⟨h.1, h.2⟩, fun h => ⟨h.request_le, h.answer_le⟩⟩

instance (framer : Framer) (client : TransportOptions) (serverCapacity : Nat) (r : Request)
    (response : Response Payload) : Decidable (Caller.Suits framer client serverCapacity r response) :=
  decidable_of_iff (_ ∧ _ ∧ _)
    ⟨fun h => ⟨h.1, h.2.1, h.2.2⟩, fun h => ⟨h.patient, h.request, h.answer⟩⟩

/-! ## Listeners and slots -/

/-- A path that is listened at leads to the listener, by sockets of its kind. -/
theorem SocketPath.connect_of_listen {place place' : SocketPath} {listener : ListenerId}
    {flavor : SocketFlavor} (h : place.listen listener flavor = (.ok (), place'))
    (other : SocketFlavor) :
    place'.connect other = if flavor = other then .ok listener else .error .wrongType := by
  rw [listen] at h
  generalize place.prepare listener flavor = prepared at h
  obtain ⟨_ | _, free⟩ := prepared
  · cases h
  obtain ⟨text, entry, listeners⟩ := free
  -- binding succeeds where there is nothing at the path, and fails everywhere else
  cases entry with
  | absent =>
    cases h
    simp [connect, flavorOf?]
  | orphan | blocked | other | socket owner => cases h

/-- A free slot is taken by the next connection. -/
theorem Acceptor.seat_of_free {a : Acceptor} (haccepting : a.phase = .accepting) (hfree : 0 < a.free) :
    a.seat.1 = some a.nextId := by
  have htake : a.step? .take =
      some (some (.taken a.nextId), { a with nextId := a.nextId + 1, phase := .seating a.nextId }) := by
    show a.advance? .take a.phase = _
    rw [haccepting]
    rfl
  have hgrant : step? { a with nextId := a.nextId + 1, phase := .seating a.nextId } .grant =
      some (none, { a with nextId := a.nextId + 1, free := a.free - 1, phase := .granted a.nextId }) :=
    if_pos hfree
  have hgranted : run [.take, .grant] a =
      ([.taken a.nextId],
        { a with nextId := a.nextId + 1, free := a.free - 1, phase := .granted a.nextId }) := by
    simp only [run, runSteps, step, htake, hgrant]
    rfl
  simp only [seat, hgranted]

namespace Endpoint

theorem key_injective {id id' : ConnectionId} (h : key id = key id') : id = id' := by
  have hdigits : Nat.toDigits 10 id.toNat = Nat.toDigits 10 id'.toNat := by
    have := congrArg String.toList h
    rwa [key, key, Nat.toString_eq_ofList_toDigits, Nat.toString_eq_ofList_toDigits,
      String.toList_ofList, String.toList_ofList] at this
  have hnat := congrArg (Nat.ofDigitChars 10 · 0) hdigits
  simp only [Nat.ofDigitChars_ten_toDigits] at hnat
  exact UInt64.toNat_inj.mp hnat

/-- **Client and connection wait**, between calls, and this is what the client has declared. -/
structure Settled (framer : Framer) (client : TransportOptions) (capacity : Nat) (evaluator : Evaluator)
    (time : Int64) (name : String) (session : Session) (e : Endpoint) : Prop where
  framer_eq : e.server.framer = framer
  evaluator_eq : e.server.evaluator = evaluator
  time_eq : e.server.time = time
  talks : ∃ c served, e.callers.get? name = some c ∧ c.transport.options = client ∧
    c.transport.GoesOn framer (max 1 client.bufferSize) ∧ e.served? c.connection = some served ∧
    served.Waits framer capacity session

variable {e : Endpoint} {framer : Framer} {client : TransportOptions} {capacity : Nat}
  {evaluator : Evaluator} {time : Int64} {name : String} {session : Session} {c : Caller} {served : Served}
  {payload : Bytes} {r : Request} {response : Response Payload}

/-! ## One end of the wire -/

/-- What is sent to a connection that is served is delivered to it. -/
theorem send_eq (hcaller : e.callers.get? name = some c)
    (htransport : c.transport.GoesOn framer capacity) (hserved : e.served? c.connection = some served)
    (hopen : served.isOpen = true) (hlimit : payload.length < framer.limit) :
    ∃ e', (wire name).send payload e = (.ok (), e') ∧ e'.callers = e.callers ∧
      e'.server = e.server.deliver (key c.connection) (framer.frame payload) := by
  obtain ⟨f, hwrite, hwritten⟩ := Framer.write_acceptances framer {} hlimit
  have houtflow : e.outflow c.connection = { acceptances := framer.acceptances {}, tail := .unlimited } := by
    rw [outflow, isServed, hserved]
    simp only [hopen]
    cases framer <;> rfl
  rw [← houtflow] at hwrite
  refine ⟨e.onServer (·.deliver (key c.connection) (framer.frame payload)), ?_, rfl, rfl⟩
  rw [← hwritten]
  simp only [wire, hcaller, htransport.send_of_done hwrite]

/-- What a client receives that waits for it. -/
theorem receive_eq (hcaller : e.callers.get? name = some c)
    (hpatient : c.transport.options.readTimeout.nanos ≠ 0) {result : Except LinkError Bytes}
    {t : Transport} {f : Inflow}
    (h : c.transport.receive (e.inflow c.connection) = (result, t, f)) :
    (wire name).receive e =
      (result, { e with
        callers := e.callers.insert name { c with transport := t }
        server := e.server.update (key c.connection)
          (·.mapLink fun d => { d with outbound := d.outbound.afterReading f }) }) := by
  have hwaits : ¬ c.cannotWait = true := by
    rw [Caller.cannotWait, decide_eq_true_eq]
    exact hpatient
  simp only [wire, hcaller, if_neg hwaits, h]

/-- A client that does not wait receives nothing. -/
theorem receive_impatient (hcaller : e.callers.get? name = some c)
    (htransport : c.transport.GoesOn framer capacity)
    (hpatient : c.transport.options.readTimeout.nanos = 0) :
    ∃ err e', (wire name).receive e = (.error err, e') := by
  have hwaits : c.cannotWait = true := by
    rw [Caller.cannotWait, decide_eq_true_eq]
    exact hpatient
  refine ⟨.timeout .receive c.transport.options.readTimeout, e, ?_⟩
  simp only [wire, hcaller, if_pos hwaits, htransport.receive_stalled]

/-- An answer comes to the client as a whole. -/
theorem inflow_answered (hframer : e.server.framer = framer) {id : ConnectionId}
    (hserved : e.served? id = some served) {link : Duplex} {octets : Bytes} (hne : octets ≠ [])
    (hconnection : served.connection = ⟨link.answered octets, session, none⟩) :
    e.inflow id = ⟨framer.deliveries {} octets, .stalled⟩ := by
  have hempty : ¬ octets.isEmpty = true := by rwa [List.isEmpty_iff]
  have hopen : served.isOpen = true := by
    rw [Served.isOpen, hconnection]
    rfl
  obtain ⟨byte, rest, rfl⟩ := List.exists_cons_of_ne_nil hne
  rw [inflow, hserved]
  simp only [hconnection, Duplex.answered, hframer, hopen, if_neg hempty, if_true]
  cases framer <;> rfl

/-- A connection that has ended without an answer has none for the client. -/
theorem receive_ended {id : ConnectionId} (hserved : e.served? id = some served)
    (hended : served.isOpen = false) (hcontent : served.connection.link.outbound.content = [])
    {t : Transport} (h : t.GoesOn framer capacity) :
    ∃ err t' f, t.receive (e.inflow id) = (.error err, t', f) := by
  have hclosed : ¬ served.isOpen = true := by
    rw [hended]
    exact Bool.false_ne_true
  have hinflow : e.inflow id = ⟨[.failure .connectionReset], .eof⟩ ∨ e.inflow id = ⟨[], .eof⟩ := by
    rw [inflow, hserved]
    simp only [hcontent, List.isEmpty_nil, if_true, if_neg hclosed, List.nil_append]
    split
    · exact .inl rfl
    · exact .inr rfl
  rcases hinflow with hreset | heof
  · rw [hreset]
    exact ⟨_, _, _, h.receive_of_failed (Framer.read_failure framer t.buffer _ _ _)⟩
  · obtain ⟨t', hreceive⟩ := h.receive_ended
    rw [heof]
    exact ⟨_, _, _, hreceive⟩

/-! ## Calls -/

/-- The client waits, and an answer with these octets is on its way to it. -/
structure Answered (framer : Framer) (client : TransportOptions) (capacity : Nat) (evaluator : Evaluator)
    (time : Int64) (name : String) (session : Session) (answer : Bytes) (e : Endpoint) : Prop where
  framer_eq : e.server.framer = framer
  evaluator_eq : e.server.evaluator = evaluator
  time_eq : e.server.time = time
  talks : ∃ (c : Caller) (served : Served) (link : Duplex), e.callers.get? name = some c ∧ c.transport.options = client ∧
    c.transport.GoesOn framer (max 1 client.bufferSize) ∧ e.served? c.connection = some served ∧
    link.Waits framer capacity Server.pipeCapacity ∧
    served.connection = ⟨link.answered (framer.frame answer), session, none⟩

/-- **A request that is sent is answered**, if the server has room for it. -/
theorem Settled.send (h : e.Settled framer client capacity evaluator time name session)
    {records' : Records} (hcarries : Server.Carries framer r response)
    (hroom : framer.HasRoom capacity r.toRpc.write)
    (hperform : e.server.records.perform
      (session.plan evaluator time r.toRpc).action = (.next response, records')) :
    ∃ e', (wire name).send r.toRpc.write e = (.ok (), e') ∧
      e'.Answered framer client capacity evaluator time name
        (session.plan evaluator time r.toRpc).session
        (response.write Payload.toCbor) ∧
      e'.server.records = records' := by
  obtain ⟨hframer, rfl, rfl, c, served, hcaller, hoptions, htransport, hserved, hwaits⟩ := h
  have hlimit := Framer.lt_limit_of_le (Nat.le_refl _) hcarries.request_le
  obtain ⟨served', link, hlink, hfind, hconnection, hrecords⟩ :=
    Server.deliver_answered hserved hwaits hcarries.request_le hroom hperform hcarries.answer_le
  have hagree := Server.agreeBut_deliver e.server (key c.connection) (framer.frame r.toRpc.write)
  obtain ⟨e', hsend, hcallers, hserver⟩ := send_eq hcaller htransport hserved hwaits.isOpen hlimit
  rw [← hcallers] at hcaller
  rw [← hserver] at hfind hrecords hagree
  exact ⟨e', hsend, ⟨hagree.framer_eq.trans hframer, hagree.evaluator_eq, hagree.time_eq, c, served',
    link, hcaller, hoptions, htransport, hfind, hlink, hconnection⟩, hrecords⟩

/-- A call whose answer is not received fails. -/
theorem call_of_receive_error {e₁ e' : Endpoint} {err : LinkError}
    (hsend : (wire name).send r.toRpc.write e = (.ok (), e₁))
    (hreceive : (wire name).receive e₁ = (.error err, e')) :
    e.call name r = (.error err, e') := by
  rw [call, Wire.call, hsend]
  simp only [hreceive]

/-- A request that the server has no room for is never answered. -/
theorem Settled.call_overfull (h : e.Settled framer client capacity evaluator time name session)
    (hpatient : client.readTimeout.nanos ≠ 0)
    (hpipe : (framer.frame r.toRpc.write).length ≤ Server.pipeCapacity)
    (hroom : ¬ framer.HasRoom capacity r.toRpc.write) :
    ∃ err e', e.call name r = (.error err, e') := by
  obtain ⟨-, -, -, c, served, hcaller, rfl, htransport, hserved, hwaits⟩ := h
  have hlimit := Framer.lt_limit_of_le (Nat.le_refl _) hpipe
  obtain ⟨served', hfind, hended, hcontent⟩ := Server.deliver_overfull hserved hwaits hpipe hroom
  obtain ⟨e', hsend, hcallers, hserver⟩ := send_eq hcaller htransport hserved hwaits.isOpen hlimit
  rw [← hcallers] at hcaller
  rw [← hserver] at hfind
  obtain ⟨err, t, f, hreceive⟩ := receive_ended hfind hended hcontent htransport
  exact ⟨err, _, call_of_receive_error hsend (receive_eq hcaller hpatient hreceive)⟩

/-- A client that does not wait has no answer. -/
theorem Settled.call_impatient (h : e.Settled framer client capacity evaluator time name session)
    (hpipe : (framer.frame r.toRpc.write).length ≤ Server.pipeCapacity)
    (hpatient : client.readTimeout.nanos = 0) : ∃ err e', e.call name r = (.error err, e') := by
  obtain ⟨-, -, -, c, served, hcaller, rfl, htransport, hserved, hwaits⟩ := h
  have hlimit := Framer.lt_limit_of_le (Nat.le_refl _) hpipe
  obtain ⟨e₁, hsend, hcallers, -⟩ := send_eq hcaller htransport hserved hwaits.isOpen hlimit
  rw [← hcallers] at hcaller
  obtain ⟨err, e', hreceive⟩ := receive_impatient hcaller htransport hpatient
  exact ⟨err, e', call_of_receive_error hsend hreceive⟩

section Receive

variable {answer : Bytes} (h : e.Answered framer client capacity evaluator time name session answer)
  (hne : answer ≠ []) (hlimit : answer.length < framer.limit)
  (hpatient : client.readTimeout.nanos ≠ 0)

include h hne hlimit hpatient

/-- **The answer is received**, if the client has room for it. -/
theorem Answered.receive (hroom : framer.HasRoom (max 1 client.bufferSize) answer) :
    ∃ e', (wire name).receive e = (.ok answer, e') ∧
      e'.Settled framer client capacity evaluator time name session ∧
      e'.server.records = e.server.records := by
  obtain ⟨hframer, rfl, rfl, c, served, link, hcaller, rfl, htransport, hserved, hlink, hconnection⟩ := h
  have hread := Framer.read_whole (b := c.transport.buffer) .stalled hlimit hne
    (by rwa [htransport.capacity_eq])
  rw [← inflow_answered hframer hserved (framer.frame_ne_nil hne) hconnection] at hread
  have hreceive := receive_eq hcaller hpatient (htransport.receive_of_done hread)
  refine ⟨_, hreceive, ?_, ?_⟩
  · have hagree := Server.agreeBut_update e.server (key c.connection)
      (·.mapLink fun d => { d with outbound := d.outbound.afterReading ⟨[], .stalled⟩ })
    refine ⟨hagree.framer_eq.trans hframer, hagree.evaluator_eq, hagree.time_eq, _, _,
      (NameMap.get?_insert _ _ _ _).trans (if_pos rfl), rfl, htransport.overwrite answer,
      Server.find?_update hserved _, ?_⟩
    rw [Served.mapLink, hconnection]
    refine ⟨?_, rfl, rfl⟩
    simp only [hlink.read_answered]
    exact hlink
  · exact Server.records_update _ _ _

/-- The answer is not received if the client has no room for it. -/
theorem Answered.receive_overfull (hroom : ¬ framer.HasRoom (max 1 client.bufferSize) answer) :
    ∃ err e', (wire name).receive e = (.error err, e') := by
  obtain ⟨hframer, rfl, rfl, c, served, link, hcaller, rfl, htransport, hserved, hlink, hconnection⟩ := h
  obtain ⟨err, b, f, hread⟩ := Framer.read_whole_overfull (b := c.transport.buffer) .stalled hlimit hne
    (by rwa [htransport.capacity_eq])
  rw [← inflow_answered hframer hserved (framer.frame_ne_nil hne) hconnection] at hread
  exact ⟨_, _, receive_eq hcaller hpatient (htransport.receive_of_failed hread)⟩

end Receive

section Call

variable (h : e.Settled framer client capacity evaluator time name session) {records' : Records}
  (hcarries : Server.Carries framer r response)
  (hperform : e.server.records.perform
    (session.plan evaluator time r.toRpc).action = (.next response, records'))

include h hcarries hperform

/-- **A call that suits both ends returns what the answer says**, and both ends wait again. -/
theorem Settled.call_answered (hsuits : Caller.Suits framer client capacity r response) :
    ∃ e', e.call name r = (r.answer (response.write Payload.toCbor), e') ∧
      e'.Settled framer client capacity evaluator time name
        (session.plan evaluator time r.toRpc).session ∧
      e'.server.records = records' := by
  have hlimit := Framer.lt_limit_of_le (Nat.le_refl _) hcarries.answer_le
  obtain ⟨e₁, hsend, hanswered, hrecords⟩ := h.send hcarries hsuits.request hperform
  obtain ⟨e', hreceive, hsettled, hrecords'⟩ :=
    hanswered.receive response.write_ne_nil hlimit hsuits.patient hsuits.answer
  refine ⟨e', ?_, hsettled, hrecords'.trans hrecords⟩
  rw [call, Wire.call, hsend]
  simp only [hreceive]

/-- **A call that does not suit both ends fails.** -/
theorem Settled.call_failed (hsuits : ¬ Caller.Suits framer client capacity r response) :
    ∃ err e', e.call name r = (.error err, e') := by
  by_cases hpatient : client.readTimeout.nanos = 0
  · exact h.call_impatient hcarries.request_le hpatient
  by_cases hrequest : framer.HasRoom capacity r.toRpc.write
  · have hlimit := Framer.lt_limit_of_le (Nat.le_refl _) hcarries.answer_le
    obtain ⟨e₁, hsend, hanswered, -⟩ := h.send hcarries hrequest hperform
    obtain ⟨err, e', hreceive⟩ := hanswered.receive_overfull response.write_ne_nil hlimit hpatient
      fun hanswer => hsuits ⟨hpatient, hrequest, hanswer⟩
    exact ⟨err, e', call_of_receive_error hsend hreceive⟩
  · exact h.call_overfull hpatient hcarries.request_le hrequest

end Call

/-- Closing a connection that waits records nothing. -/
theorem Settled.records_close (h : e.Settled framer client capacity evaluator time name session) :
    (e.close name).server.records = e.server.records := by
  obtain ⟨-, -, -, c, served, hcaller, -, -, hserved, hwaits⟩ := h
  have hserver : (e.close name).server = e.server.close (key c.connection) := by
    simp only [close, wire, hcaller]
    rfl
  rw [hserver]
  exact Server.records_close hserved hwaits

/-! ## Calls of a client that registers -/

section Registered

variable {i : Identity}

/-- The acknowledgement of a registration. -/
theorem perform_register (records : Records) (evaluator : Evaluator) (time : Int64) (i : Identity) :
    records.perform (Session.plan evaluator time .unregistered
      (Request.register i).toRpc).action = (.next (.ok none), records) := by
  rw [Session.plan_sent_register]
  rfl

/-- The answer to a request is what the call would come to with nothing in between. -/
theorem perform_request (records : Records) (evaluator : Evaluator) (time : Int64) (i : Identity)
    (r : Request) :
    records.perform (Session.plan evaluator time (.registered i protocolVersion)
      r.toRpc).action =
      (.next (Direct.answer (Direct.call evaluator i time records r).1),
        (Direct.call evaluator i time records r).2) := by
  rw [Session.plan_sent]
  exact Direct.perform_action evaluator i time records r

/-- The call that registers. -/
theorem Settled.register (h : e.Settled framer client capacity evaluator time name .unregistered)
    (hcarries : Server.Carries framer (.register i) (.ok none))
    (hsuits : Caller.Suits framer client capacity (.register i) (.ok none)) :
    ∃ e', e.call name (.register i) = (.ok none, e') ∧
      e'.Settled framer client capacity evaluator time name (.registered i protocolVersion) ∧
      e'.server.records = e.server.records := by
  obtain ⟨e', hcall, hsettled, hrecords⟩ :=
    h.call_answered hcarries (perform_register e.server.records evaluator time i) hsuits
  rw [Session.plan_sent_register] at hsettled
  rw [Request.answer_acknowledged rfl] at hcall
  exact ⟨e', hcall, hsettled, hrecords⟩

/-- **A call of a registered client** comes to what it comes to with nothing in between. -/
theorem Settled.request
    (h : e.Settled framer client capacity evaluator time name (.registered i protocolVersion))
    (hcarries : Server.Carries framer r
      (Direct.answer (Direct.call evaluator i time e.server.records r).1))
    (hsuits : Caller.Suits framer client capacity r
      (Direct.answer (Direct.call evaluator i time e.server.records r).1)) :
    ∃ e', e.call name r = ((Direct.call evaluator i time e.server.records r).1, e') ∧
      e'.Settled framer client capacity evaluator time name (.registered i protocolVersion) ∧
      e'.server.records = (Direct.call evaluator i time e.server.records r).2 := by
  have hlimit := Framer.lt_limit_of_le (Nat.le_refl _) hcarries.answer_le
  obtain ⟨e', hcall, hsettled, hrecords⟩ :=
    h.call_answered hcarries (perform_request e.server.records evaluator time i r) hsuits
  rw [Session.plan_sent] at hsettled
  rw [Direct.answer_call (Nat.lt_of_lt_of_le hlimit framer.limit_le)] at hcall
  exact ⟨e', hcall, hsettled, hrecords⟩

end Registered

/-! ## Connecting -/

/-- **An endpoint that serves an evaluator**, with no client of this name: the last one, if there was one, has
ended. -/
structure Serves (evaluator : Evaluator) (name : String) (e : Endpoint) : Prop where
  evaluator_eq : e.server.evaluator = evaluator
  /-- Messages are told apart as on the sockets that its listener takes. -/
  framer_eq : ∀ flavor listener, e.place.connect flavor = .ok listener →
    e.server.framer = flavor.framer
  former_ended : ∀ c, e.callers.get? name = some c →
    e.isServed c.connection = false ∧ e.acceptor.seat.1 ≠ some c.connection

/-- Closing a connection that has ended leaves the others as they are, and the records. -/
theorem shutdown_ended {id : ConnectionId}
    (h : ∀ c, e.callers.get? name = some c → e.isServed c.connection = false ∧ c.connection ≠ id) :
    ((wire name).shutdown e).server.evaluator = e.server.evaluator ∧
      ((wire name).shutdown e).server.time = e.server.time ∧
      ((wire name).shutdown e).server.framer = e.server.framer ∧
      ((wire name).shutdown e).served? id = e.served? id ∧
      ((wire name).shutdown e).server.records = e.server.records := by
  cases hcaller : e.callers.get? name with
  | none =>
    have hshutdown : (wire name).shutdown e = e := by simp only [wire, hcaller]
    rw [hshutdown]
    exact ⟨rfl, rfl, rfl, rfl, rfl⟩
  | some c =>
    obtain ⟨hended, hne⟩ := h c hcaller
    have hserver : ((wire name).shutdown e).server = e.server.close (key c.connection) := by
      simp only [wire, hcaller]
      rfl
    have hagree := Server.agreeBut_close e.server (key c.connection)
    rw [served?, hserver]
    refine ⟨hagree.evaluator_eq, hagree.time_eq, hagree.framer_eq,
      hagree.find_eq _ fun hkey => hne (key_injective hkey).symm,
      Server.records_close_of_ended fun served hserved => ?_⟩
    rwa [isServed, served?, hserved] at hended

/-- **A client that is admitted can talk to the evaluator.** -/
theorem Serves.connects (h : e.Serves evaluator name) {flavor : SocketFlavor} {listener : ListenerId}
    (hconnect : e.place.connect flavor = .ok listener) {id : ConnectionId} {acceptor : Acceptor}
    (hseat : e.acceptor.seat = (some id, acceptor)) (client : TransportOptions) :
    ∃ e', e.connect name flavor client = (.admitted id, e') ∧
      e'.Settled flavor.framer client (max 1 e.server.options.bufferSize) evaluator e.server.time name
        .unregistered ∧
      e'.server.records = e.server.records := by
  have hknock : e.knock flavor =
      (.admitted id, { e with acceptor, server := e.server.connect (key id) }) := by
    simp only [knock, hconnect, hseat]
  generalize he₁ : { e with acceptor, server := e.server.connect (key id) } = e₁ at hknock
  have hserver : e₁.server = e.server.connect (key id) := by rw [← he₁]
  have hcallers : e₁.callers = e.callers := by rw [← he₁]
  have hagree := Server.agreeBut_connect e.server (key id)
  have hformer : ∀ c, e₁.callers.get? name = some c →
      e₁.isServed c.connection = false ∧ c.connection ≠ id := by
    intro c hcaller
    rw [hcallers] at hcaller
    obtain ⟨hended, hseated⟩ := h.former_ended c hcaller
    have hne : c.connection ≠ id := by
      rintro rfl
      exact hseated (by rw [hseat])
    have hother : e₁.served? c.connection = e.served? c.connection := by
      rw [served?, hserver, hagree.find_eq _ fun hkey => hne (key_injective hkey), served?]
    refine ⟨?_, hne⟩
    rw [isServed, hother]
    exact hended
  have hserved : e₁.served? id = some
      { connection := { link := .new (.new e.server.framer e.server.options) Server.pipeCapacity }
        waitsSince := e.server.clock } := by
    rw [served?, hserver]
    exact (NameMap.get?_insert _ _ _ _).trans (if_pos rfl)
  obtain ⟨hevaluator, htime, hframer, hkept, hrecords⟩ := shutdown_ended hformer
  refine ⟨{ (wire name).shutdown e₁ with
    callers := ((wire name).shutdown e₁).callers.insert name ⟨id, .new flavor.framer client⟩ },
    ?_, ⟨?_, ?_, ?_, _, _, (NameMap.get?_insert _ _ _ _).trans (if_pos rfl), rfl,
      Transport.goesOn_new flavor.framer client, hkept.trans hserved, ?_⟩, ?_⟩
  · rw [connect, hknock]
  · show ((wire name).shutdown e₁).server.framer = flavor.framer
    rw [hframer, hserver, hagree.framer_eq, h.framer_eq flavor listener hconnect]
  · show ((wire name).shutdown e₁).server.evaluator = evaluator
    rw [hevaluator, hserver, hagree.evaluator_eq, h.evaluator_eq]
  · show ((wire name).shutdown e₁).server.time = e.server.time
    rw [htime, hserver, hagree.time_eq]
  · refine ⟨?_, rfl, rfl⟩
    rw [← h.framer_eq flavor listener hconnect]
    exact Duplex.waits_new e.server.framer e.server.options Server.pipeCapacity
  · show ((wire name).shutdown e₁).server.records = e.server.records
    rw [hrecords, hserver]
    rfl

/-- There is a listener for sockets of this kind, and a slot for the next one. -/
structure Admits (e : Endpoint) (flavor : SocketFlavor) : Prop where
  listens : ∃ listener, e.place.connect flavor = .ok listener
  seats : ∃ id, e.acceptor.seat.1 = some id

/-! ### A new endpoint -/

section Start

variable {place place' : SocketPath} {options : AcceptorOptions} {records : Records}
  (hstart : start place options evaluator records = (.ok e, place'))

include hstart

/-- What is started is a listener at the path, with nobody connected to it. -/
theorem of_start : place.listen place.freshId options.flavor = (.ok (), e.place) ∧
    e.acceptor = { limit := options.maxConnections } ∧ e.callers = .empty ∧
    e.server.evaluator = evaluator ∧ e.server.framer = options.flavor.framer ∧
    e.server.options = options.transport ∧ e.server.records = records := by
  rw [start] at hstart
  rcases hlisten : place.listen place.freshId options.flavor with ⟨_ | _, taken⟩
  · simp only [hlisten] at hstart
    cases hstart
  · simp only [hlisten] at hstart
    cases hstart
    exact ⟨rfl, rfl, rfl, rfl, rfl, rfl, rfl⟩

/-- **A new endpoint serves its evaluator**, to clients of any name. -/
theorem serves_start (name : String) : e.Serves evaluator name := by
  obtain ⟨hlisten, -, hcallers, hevaluator, hframer, -⟩ := of_start hstart
  refine ⟨hevaluator, fun flavor listener hconnect => ?_, fun c hcaller => ?_⟩
  · rw [SocketPath.connect_of_listen hlisten] at hconnect
    split at hconnect
    next hflavor => rw [hframer, hflavor]
    next => cases hconnect
  · rw [hcallers] at hcaller
    cases hcaller

theorem admits_start (hconnections : 0 < options.maxConnections) : e.Admits options.flavor := by
  obtain ⟨hlisten, hacceptor, -⟩ := of_start hstart
  refine ⟨⟨_, (SocketPath.connect_of_listen hlisten _).trans (if_pos rfl)⟩, _, Acceptor.seat_of_free ?_ ?_⟩
  · rw [hacceptor]
  · rw [hacceptor]
    exact hconnections

end Start

section Join

variable {i : Identity} {options : ClientOptions} (h : e.Serves evaluator name)
  (hcarries : Server.Carries e.server.framer (.register i) (.ok none))

include h hcarries

/-- **A client that is admitted registers**, if that suits both ends. -/
theorem Serves.join_ok (hadmits : e.Admits options.flavor)
    (hsuits : Caller.Suits e.server.framer options.transport (max 1 e.server.options.bufferSize)
      (.register i) (.ok none)) :
    ∃ e', e.join name options i = (.ok (), e') ∧
      e'.Settled e.server.framer options.transport (max 1 e.server.options.bufferSize) evaluator
        e.server.time name (.registered i protocolVersion) ∧
      e'.server.records = e.server.records := by
  obtain ⟨⟨listener, hconnect⟩, id, hseat⟩ := hadmits
  obtain ⟨e₁, hconnected, hsettled, hrecords⟩ :=
    h.connects hconnect (Prod.ext hseat rfl) options.transport
  rw [← h.framer_eq options.flavor listener hconnect] at hsettled
  obtain ⟨e', hcall, hsettled', hrecords'⟩ := hsettled.register hcarries hsuits
  refine ⟨e', ?_, hsettled', hrecords'.trans hrecords⟩
  rw [join, hconnected]
  simp only [hcall]
  rfl

/-- A client that is not admitted, or whose registration does not suit both ends, fails. -/
theorem Serves.join_failed
    (hfails : ¬ (e.Admits options.flavor ∧ Caller.Suits e.server.framer options.transport
      (max 1 e.server.options.bufferSize) (.register i) (.ok none))) :
    ∃ err e', e.join name options i = (.error err, e') := by
  cases hconnect : e.place.connect options.flavor with
  | error err =>
    refine ⟨.io ("failed to connect to " ++ options.path) err, e, ?_⟩
    simp only [join, connect, knock, hconnect]
  | ok listener =>
    rcases hseat : e.acceptor.seat with ⟨_ | id, acceptor⟩
    · refine ⟨.framing (.io .connectionReset), { e with acceptor }, ?_⟩
      simp only [join, connect, knock, hconnect, hseat]
    · obtain ⟨e₁, hconnected, hsettled, -⟩ := h.connects hconnect hseat options.transport
      rw [← h.framer_eq options.flavor listener hconnect] at hsettled
      obtain ⟨err, e', hcall⟩ := hsettled.call_failed hcarries
        (perform_register e₁.server.records evaluator e.server.time i)
        fun hsuits => hfails ⟨⟨⟨listener, hconnect⟩, id, by rw [hseat]⟩, hsuits⟩
      refine ⟨err, e', ?_⟩
      rw [join, hconnected]
      simp only [hcall]
      rfl

end Join

end Endpoint

end FlagSidecar
