import FlagSidecar.Proofs.Link.Duplex
import FlagSidecar.Proofs.Service.Direct
import FlagSidecar.Proofs.Service.Run
import FlagSidecar.Service.Server

/-!
# FlagSidecar.Proofs.Service.Server: a message delivered to a server

Between messages a connection of a server waits. A request that is delivered to it takes one turn: it is
answered and the connection waits again, or the connection ends if its buffer has no room for the request.
The end of the peer ends it too. Whatever happens to a connection, the others stay as they are.

Main statements: `Server.deliver_answered`, `Server.deliver_overfull` and `Server.records_close`.
-/

namespace FlagSidecar

/-! ## Turns -/

namespace Connection

variable {evaluator : Evaluator} {framer : Framer} {capacity room : Nat} {c : Connection Duplex}
  {r : Request} {now : Int64} {records records' : Records} {response : Response Payload}

/-- A turn that receives nothing ends the connection, and nothing else. -/
theorem turn_of_error {e : LinkError} {link : Duplex}
    (h : Duplex.wire.receive c.link = (.error e, link)) (evaluator : Evaluator) (now : Int64)
    (records : Records) :
    c.turn Duplex.wire evaluator now records =
      ⟨{ c with link }.finish Duplex.wire (if e.isEof then .peerClosed else .transportFailure),
        records, []⟩ := by
  rw [turn, h]
  rfl

/-- **A request that was delivered to a waiting connection is answered in one turn**, as the plan of the session
says, and but for its answer the connection waits again. -/
theorem turn_answered (hlink : c.link.Waits framer capacity room) (houtcome : c.outcome = none)
    (hlimit : r.toRpc.write.length < framer.limit)
    (hroom : framer.HasRoom capacity r.toRpc.write)
    (hperform : records.perform (c.session.plan evaluator now r.toRpc).action =
      (.next response, records'))
    (hlimit' : (response.write Payload.toCbor).length < framer.limit)
    (hanswer : (framer.frame (response.write Payload.toCbor)).length ≤ room) :
    ∃ link : Duplex, link.Waits framer capacity room ∧
      { c with link := c.link.filled (framer.frame r.toRpc.write) }.turn Duplex.wire evaluator now
          records =
        ⟨⟨link.answered (framer.frame (response.write Payload.toCbor)),
            (c.session.plan evaluator now r.toRpc).session, none⟩, records',
          (c.session.plan evaluator now r.toRpc).asked⟩ := by
  obtain ⟨link, hreceive, hwaits⟩ := hlink.receive r.toRpc.write_ne_nil hlimit hroom
  have hsend := hwaits.send response.write_ne_nil hlimit' hanswer
  refine ⟨link, hwaits, ?_⟩
  have hheard : heard? Duplex.wire
      { c with link := c.link.filled (framer.frame r.toRpc.write) } = some r.toRpc := by
    rw [heard?, hreceive]
    exact Request.read?_write_nil (Nat.lt_of_lt_of_le hlimit framer.limit_le)
  rw [turn_of_heard? hheard]
  simp only [hperform, hreceive, reply, send, hsend, houtcome]
  rw [if_pos (by rfl)]

/-- **A request that the buffer has no room for ends the connection**, which has nothing for its peer. -/
theorem turn_overfull (hlink : c.link.Waits framer capacity room)
    (hlimit : r.toRpc.write.length < framer.limit)
    (hroom : ¬ framer.HasRoom capacity r.toRpc.write) (evaluator : Evaluator) (now : Int64)
    (records : Records) :
    ∃ c', { c with link := c.link.filled (framer.frame r.toRpc.write) }.turn Duplex.wire evaluator now
        records = ⟨c', records, []⟩ ∧ c'.isOpen = false ∧ c'.link.outbound.content = [] := by
  obtain ⟨e, link, hreceive, houtbound⟩ :=
    hlink.receive_overfull r.toRpc.write_ne_nil hlimit hroom
  refine ⟨_, turn_of_error hreceive evaluator now records, rfl, ?_⟩
  show link.outbound.content = []
  rw [houtbound, hlink.outbound_eq]

/-- **The end of the peer ends the connection**, and nothing else. -/
theorem turn_closed (hlink : c.link.Waits framer capacity room) (evaluator : Evaluator) (now : Int64)
    (records : Records) :
    ∃ c', { c with link := c.link.peerClose }.turn Duplex.wire evaluator now records =
      ⟨c', records, []⟩ ∧ c'.isOpen = false := by
  obtain ⟨link, hreceive⟩ := hlink.receive_closed
  exact ⟨_, turn_of_error hreceive evaluator now records, rfl⟩

end Connection

/-! ## Servers -/

/-- **A served connection that waits**, and this is what its peer has declared. -/
structure Served.Waits (framer : Framer) (capacity : Nat) (session : Session) (s : Served) : Prop where
  link : s.connection.link.Waits framer capacity Server.pipeCapacity
  session_eq : s.connection.session = session
  outcome_eq : s.connection.outcome = none

theorem Served.Waits.isOpen {framer : Framer} {capacity : Nat} {session : Session} {s : Served}
    (h : s.Waits framer capacity session) : s.isOpen = true := by
  rw [Served.isOpen, Connection.isOpen, h.outcome_eq]
  rfl

namespace Server

/-- **One connection apart, the servers agree** in their connections, and in how they serve them. -/
structure AgreeBut (id : String) (s s' : Server) : Prop where
  evaluator_eq : s'.evaluator = s.evaluator
  framer_eq : s'.framer = s.framer
  options_eq : s'.options = s.options
  time_eq : s'.time = s.time
  find_eq : ∀ other, other ≠ id → s'.find? other = s.find? other

variable {id : String} {s s' s'' : Server} {served : Served} {framer : Framer} {capacity : Nat}
  {session : Session}

theorem AgreeBut.refl (id : String) (s : Server) : AgreeBut id s s :=
  ⟨rfl, rfl, rfl, rfl, fun _ _ => rfl⟩

theorem AgreeBut.trans (h : AgreeBut id s s') (h' : AgreeBut id s' s'') : AgreeBut id s s'' where
  evaluator_eq := h'.evaluator_eq.trans h.evaluator_eq
  framer_eq := h'.framer_eq.trans h.framer_eq
  options_eq := h'.options_eq.trans h.options_eq
  time_eq := h'.time_eq.trans h.time_eq
  find_eq other hother := (h'.find_eq other hother).trans (h.find_eq other hother)

/-- A connection under its id. -/
theorem find?_insert (s : Server) (records : Records) (asked : List Query) (id other : String)
    (served : Served) :
    find? { s with records, asked, connections := s.connections.insert id served } other =
      if id = other then some served else s.find? other :=
  NameMap.get?_insert s.connections id other served

theorem agreeBut_insert (s : Server) (records : Records) (asked : List Query) (id : String)
    (served : Served) :
    AgreeBut id s { s with records, asked, connections := s.connections.insert id served } where
  evaluator_eq := rfl
  framer_eq := rfl
  options_eq := rfl
  time_eq := rfl
  find_eq other hother := by rw [find?_insert, if_neg hother.symm]

theorem agreeBut_connect (s : Server) (id : String) : AgreeBut id s (s.connect id) :=
  agreeBut_insert s s.records s.asked id _

theorem agreeBut_update (s : Server) (id : String) (f : Served → Served) :
    AgreeBut id s (s.update id f) := by
  rw [update]
  split
  · exact .refl id s
  · exact agreeBut_insert s s.records s.asked id _

/-- Serving a connection leaves the others alone. The induction is on the turns. -/
theorem agreeBut_run (id : String) (turns : Nat) (s : Server) : AgreeBut id s (s.run id turns) := by
  induction turns generalizing s with
  | zero => exact .refl id s
  | succ turns ih =>
    rw [run]
    split
    · exact .refl id s
    · split
      · exact (agreeBut_insert s _ _ id _).trans (ih _)
      · exact .refl id s

theorem agreeBut_settle (s : Server) (id : String) : AgreeBut id s (s.settle id) := by
  rw [settle]
  split
  · exact .refl id s
  · exact agreeBut_run id _ s

theorem agreeBut_deliver (s : Server) (id : String) (octets : Bytes) :
    AgreeBut id s (s.deliver id octets) :=
  (agreeBut_update s id _).trans (agreeBut_settle _ id)

theorem agreeBut_close (s : Server) (id : String) : AgreeBut id s (s.close id) :=
  ((agreeBut_update s id _).trans (agreeBut_settle _ id)).trans (agreeBut_update _ id _)

/-! ## Serving one connection -/

theorem find?_update (h : s.find? id = some served) (f : Served → Served) :
    (s.update id f).find? id = some (f served) := by
  rw [update, h]
  exact (NameMap.get?_insert s.connections id id (f served)).trans (if_pos rfl)

theorem records_update (s : Server) (id : String) (f : Served → Served) :
    (s.update id f).records = s.records := by
  rw [update]
  split <;> rfl

/-- A connection that has ended, or that waits, is left as it is. -/
theorem run_of_idle (h : s.find? id = some served) (hidle : ¬ (served.isOpen ∧ served.isReady))
    (turns : Nat) : s.run id turns = s := by
  cases turns with
  | zero => rfl
  | succ turns => rw [run, h]; exact if_neg hidle

theorem run_of_ready (h : s.find? id = some served) (hopen : served.isOpen = true)
    (hready : served.isReady = true) (turns : Nat) :
    s.run id (turns + 1) = (s.absorb id
      (served.connection.turn Duplex.wire s.evaluator s.time s.records)).run id turns := by
  rw [run, h]
  exact if_pos ⟨hopen, hready⟩

theorem isReady_iff : served.isReady = true ↔ ¬ served.connection.link.Quiet := by
  rw [Served.isReady, Duplex.Quiet]
  split <;> simp_all

/-- **A connection that can receive and then waits or has ended is served for one turn.** -/
theorem settle_of_turn (h : s.find? id = some served) (hopen : served.isOpen = true)
    (hready : ¬ served.connection.link.Quiet) {t : Turn Duplex}
    (hturn : served.connection.turn Duplex.wire s.evaluator s.time s.records = t)
    (hidle : t.connection.isOpen = true → t.connection.link.Quiet) :
    s.settle id = s.absorb id t := by
  have hfind : (s.absorb id t).find? id = some { connection := t.connection, waitsSince := s.clock } :=
    (NameMap.get?_insert _ _ _ _).trans (if_pos rfl)
  rw [settle, h]
  show s.run id (served.connection.link.inbound.content.length + 1 + 1) = _
  rw [run_of_ready h hopen (isReady_iff.mpr hready), hturn,
    run_of_idle hfind fun hend => isReady_iff.mp hend.2 (hidle hend.1)]

/-- After something that its peer does an open connection is served for one turn, if it can receive then. -/
theorem settle_mapLink (h : s.find? id = some served) (hopen : served.isOpen = true)
    (act : Duplex → Duplex) {link : Duplex} (hact : act served.connection.link = link)
    (hready : ¬ link.Quiet) {t : Turn Duplex}
    (hturn : { served.connection with link }.turn Duplex.wire s.evaluator s.time s.records = t)
    (hidle : t.connection.isOpen = true → t.connection.link.Quiet) :
    ∃ served', ((s.update id (·.mapLink act)).settle id).find? id = some served' ∧
      served'.connection = t.connection ∧
      ((s.update id (·.mapLink act)).settle id).records = t.records := by
  subst hact
  have hfind := find?_update h (·.mapLink act)
  have hagree := agreeBut_update s id (·.mapLink act)
  rw [← records_update s id (·.mapLink act), ← hagree.evaluator_eq, ← hagree.time_eq] at hturn
  rw [settle_of_turn hfind hopen hready hturn hidle]
  exact ⟨_, (NameMap.get?_insert _ _ _ _).trans (if_pos rfl), rfl, rfl⟩

section Deliver

variable {r : Request} (h : s.find? id = some served) (hwaits : served.Waits framer capacity session)
  (hpipe : (framer.frame r.toRpc.write).length ≤ pipeCapacity)

include h hwaits hpipe

/-- **A request that is delivered is answered**, as the plan of the session says, and but for its answer the
connection waits again. -/
theorem deliver_answered (hroom : framer.HasRoom capacity r.toRpc.write)
    {response : Response Payload} {records' : Records}
    (hperform : s.records.perform (session.plan s.evaluator s.time r.toRpc).action =
      (.next response, records'))
    (hanswer : (framer.frame (response.write Payload.toCbor)).length ≤ pipeCapacity) :
    ∃ (served' : Served) (link : Duplex), link.Waits framer capacity pipeCapacity ∧
      (s.deliver id (framer.frame r.toRpc.write)).find? id = some served' ∧
      served'.connection = ⟨link.answered (framer.frame (response.write Payload.toCbor)),
        (session.plan s.evaluator s.time r.toRpc).session, none⟩ ∧
      (s.deliver id (framer.frame r.toRpc.write)).records = records' := by
  have hopen := hwaits.isOpen
  obtain ⟨hlink, rfl, houtcome⟩ := hwaits
  have hframe := framer.frame_ne_nil r.toRpc.write_ne_nil
  have hlimit := Framer.lt_limit_of_le (Nat.le_refl _) hpipe
  obtain ⟨link, hlink', hturn⟩ := Connection.turn_answered hlink houtcome hlimit hroom hperform
    (Framer.lt_limit_of_le (Nat.le_refl _) hanswer) hanswer
  obtain ⟨served', hfind, hconnection, hrecords⟩ := settle_mapLink h hopen
    (fun d => (d.peerWrite (framer.frame r.toRpc.write)).2) (hlink.peerWrite hframe hpipe)
    (hlink.not_quiet_filled r.toRpc.write_ne_nil hlimit) hturn fun _ => hlink'.quiet_answered _
  exact ⟨served', link, hlink', hfind, hconnection, hrecords⟩

/-- **A request that the buffer has no room for ends the connection**, which has nothing for its peer. -/
theorem deliver_overfull (hroom : ¬ framer.HasRoom capacity r.toRpc.write) :
    ∃ served', (s.deliver id (framer.frame r.toRpc.write)).find? id = some served' ∧
      served'.isOpen = false ∧ served'.connection.link.outbound.content = [] := by
  have hopen := hwaits.isOpen
  obtain ⟨hlink, rfl, houtcome⟩ := hwaits
  have hframe := framer.frame_ne_nil r.toRpc.write_ne_nil
  have hlimit := Framer.lt_limit_of_le (Nat.le_refl _) hpipe
  obtain ⟨c, hturn, hended, hcontent⟩ := Connection.turn_overfull (c := served.connection) hlink
    hlimit hroom s.evaluator s.time s.records
  obtain ⟨served', hfind, rfl, -⟩ := settle_mapLink h hopen
    (fun d => (d.peerWrite (framer.frame r.toRpc.write)).2) (hlink.peerWrite hframe hpipe)
    (hlink.not_quiet_filled r.toRpc.write_ne_nil hlimit) hturn fun hopen => by
      rw [hended] at hopen
      cases hopen
  exact ⟨served', hfind, hended, hcontent⟩

end Deliver

/-- **Closing a connection records nothing**, if it waits. -/
theorem records_close (h : s.find? id = some served) (hwaits : served.Waits framer capacity session) :
    (s.close id).records = s.records := by
  have hopen := hwaits.isOpen
  obtain ⟨hlink, rfl, houtcome⟩ := hwaits
  obtain ⟨c, hturn, hended⟩ := Connection.turn_closed (c := served.connection) hlink s.evaluator
    s.time s.records
  obtain ⟨-, -, -, hrecords⟩ := settle_mapLink h hopen Duplex.peerClose rfl
    hlink.not_quiet_closed hturn fun hopen => by
      rw [hended] at hopen
      cases hopen
  rw [close, records_update]
  exact hrecords

/-- Closing a connection that has ended, or that there is not, records nothing. -/
theorem records_close_of_ended (h : ∀ served, s.find? id = some served → served.isOpen = false) :
    (s.close id).records = s.records := by
  rw [close, records_update, hangUp, ← records_update s id (·.mapLink Duplex.peerClose)]
  cases hfind : s.find? id with
  | none =>
    have hupdate : s.update id (·.mapLink Duplex.peerClose) = s := by rw [update, hfind]
    rw [hupdate, settle, hfind]
  | some served =>
    have hfind' := find?_update hfind (·.mapLink Duplex.peerClose)
    have hended : ¬ (served.mapLink Duplex.peerClose).isOpen = true := by
      show ¬ served.isOpen = true
      rw [h served hfind]
      exact Bool.false_ne_true
    rw [settle, hfind']
    simp only [run_of_idle hfind' fun hidle => hended hidle.1]

end Server

end FlagSidecar
