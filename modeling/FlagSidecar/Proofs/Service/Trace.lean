import FlagSidecar.Proofs.Service.Failure
import FlagSidecar.Service.Trace

/-!
# FlagSidecar.Proofs.Service.Trace: every way in which a run can go on or end

To trace sockets changes nothing about what is done with them. `Runs` says, turn by turn, what a run can
have done so far and how it stands then: each rule is one way in which a turn can end, and the contacts
that it makes are all that the turn does with the sockets. Every run follows these rules, and what they say
of contacts, replies and outcomes is read off them by induction.

Main statements: `Connection.plain_serve`, `Connection.runs_serve`.
-/

namespace FlagSidecar

/-! ## Tracing changes nothing -/

namespace Connection

variable {σ : Type} {wire : Wire σ} {evaluator : Evaluator}

theorem plain_reply (c : Connection (Traced σ)) (r : Reply) :
    (c.reply wire.traced r).plain = c.plain.reply wire r := by
  cases r with
  | silence => rfl
  | last response => rfl
  | next response =>
    -- the trace does not decide whether the answer could be sent
    show (if (wire.send _ c.link.link).1.toBool then _ else _ : Connection (Traced σ)).plain =
      if (wire.send _ c.link.link).1.toBool then _ else _
    split <;> rfl

theorem plain_turn (wire : Wire σ) (evaluator : Evaluator) (c : Connection (Traced σ)) (now : Int64) (records : Records) :
    (c.turn wire.traced evaluator now records).plain =
      c.plain.turn wire evaluator now records := by
  unfold turn
  show (react _ _ _ _ (wire.receive c.link.link).1
    ⟨⟨(wire.receive c.link.link).2, _⟩, c.session, c.outcome⟩).plain = react _ _ _ _
      (wire.receive c.link.link).1 ⟨(wire.receive c.link.link).2, c.session, c.outcome⟩
  generalize wire.receive c.link.link = reception
  obtain ⟨received, link⟩ := reception
  cases received with
  | error e => rfl
  | ok octets =>
    simp only [react]
    cases Rpc.read? octets with
    | none => rfl
    | some rpc =>
      unfold Turn.plain
      simp only [plain_reply]
      rfl

/-- **A run over traced sockets is the run over the sockets**, with its contacts noted. -/
theorem plain_serve (clock : List Int64) (records : Records) (c : Connection (Traced σ)) :
    (c.serve wire.traced evaluator clock records).plain =
      c.plain.serve wire evaluator clock records := by
  induction clock generalizing records c with
  | nil => rfl
  | cons now clock ih =>
    have hturn := plain_turn wire evaluator c now records
    cases hopen : c.isOpen with
    | false =>
      rw [serve_of_ended hopen, serve_of_ended (c := c.plain) hopen]
      rfl
    | true =>
      rw [serve_cons_of_open hopen, serve_cons_of_open (c := c.plain) hopen, ← hturn]
      exact congrArg (Turn.behind · (c.turn wire.traced evaluator now records).asked)
        (ih (c.turn wire.traced evaluator now records).records
          (c.turn wire.traced evaluator now records).connection)

end Connection

/-! ## What a request means -/

namespace Session

variable {evaluator : Evaluator} {now : Int64} {session : Session} {rpc : Rpc}

/-- A request is out of order, of another version, or admitted. -/
theorem order_cases (session : Session) (rpc : Rpc) :
    session.OutOfOrder rpc ∨ session.OtherVersion rpc ∨ session.Admits rpc := by
  cases session with
  | unregistered =>
    by_cases hop : rpc.opcode = OpCode.register.byte
    · by_cases hversion : rpc.version = protocolVersion
      · exact .inr (.inr ⟨hop, hversion⟩)
      · exact .inr (.inl ⟨hop, hversion⟩)
    · exact .inl hop
  | registered i version =>
    by_cases hversion : rpc.version = version
    · exact .inr (.inr hversion)
    · exact .inr (.inl hversion)

theorem plan_of_outOfOrder (evaluator : Evaluator) (now : Int64) (h : session.OutOfOrder rpc) :
    plan evaluator now session rpc = ⟨session, [], .refuse⟩ := by
  cases session with
  | unregistered => exact plan_unregistered_of_opcode h
  | registered i version => exact h.elim

theorem plan_of_otherVersion (evaluator : Evaluator) (now : Int64) (h : session.OtherVersion rpc) :
    plan evaluator now session rpc = ⟨session, [], .close⟩ := by
  cases session with
  | unregistered => exact plan_unregistered_of_version h.1 h.2
  | registered i version => exact plan_registered_of_version h

/-- An admitted request is answered, and the connection goes on. -/
theorem exists_next_of_admits (evaluator : Evaluator) (now : Int64) (records : Records)
    (h : session.Admits rpc) :
    ∃ response, (records.perform (plan evaluator now session rpc).action).1 = .next response := by
  rcases plan_of_admits evaluator now h with ⟨-, asked, e, hplan⟩ | ⟨-, hsucceeds⟩
  · rw [hplan]
    exact ⟨_, rfl⟩
  · obtain ⟨payload, hreply⟩ := hsucceeds records
    exact ⟨_, hreply⟩

end Session

namespace Progress

variable {evaluator : Evaluator} {p : Progress} {now : Int64} {rpc : Rpc}

theorem reply_of_outOfOrder (evaluator : Evaluator) (now : Int64) (h : p.session.OutOfOrder rpc) :
    p.reply evaluator now rpc = .last .internalError := by
  rw [reply, Session.plan_of_outOfOrder evaluator now h]
  rfl

/-- Only a request of another version gets no answer. -/
theorem reply_of_otherVersion (evaluator : Evaluator) (now : Int64) (h : p.session.OtherVersion rpc) :
    p.reply evaluator now rpc = .silence := by
  rw [reply, Session.plan_of_otherVersion evaluator now h]
  rfl

theorem session_dispatch_of_outOfOrder (h : p.session.OutOfOrder rpc) :
    (p.dispatch evaluator now rpc).session = p.session := by
  rw [dispatch, Session.plan_of_outOfOrder evaluator now h]

theorem session_dispatch_of_otherVersion (h : p.session.OtherVersion rpc) :
    (p.dispatch evaluator now rpc).session = p.session := by
  rw [dispatch, Session.plan_of_otherVersion evaluator now h]

end Progress

/-! ## The rules of a run -/

/-- **What a run can have done** after so many readings of the clock: how far the requests are, which
contacts were made, and the outcome if there is one. -/
inductive Runs (evaluator : Evaluator) (records : Records) :
    List Int64 → Progress → List Contact → Option Outcome → Prop
  | start : Runs evaluator records [] { records } [] none
  /-- An admitted request is answered. -/
  | answered {clock now p contacts octets rpc payload}
    (before : Runs evaluator records clock p contacts none) (hread : Rpc.read? octets = some rpc)
    (hadmits : p.session.Admits rpc) (hreply : (p.reply evaluator now rpc).octets? = some payload) :
    Runs evaluator records (clock ++ [now]) (p.dispatch evaluator now rpc)
      (contacts ++ [.received (.ok octets), .sent payload (.ok ())]) none
  /-- The peer has closed between messages. -/
  | left {clock now p contacts} (before : Runs evaluator records clock p contacts none) :
    Runs evaluator records (clock ++ [now]) p
      (contacts ++ [.received (.error (.framing .eof)), .shutDown]) (some .peerClosed)
  /-- No message could be received. -/
  | receiveFailed {clock now p contacts e} (before : Runs evaluator records clock p contacts none)
    (hclean : e ≠ .framing .eof) :
    Runs evaluator records (clock ++ [now]) p (contacts ++ [.received (.error e), .shutDown])
      (some .transportFailure)
  /-- A message is no request. -/
  | unreadable {clock now p contacts octets} (before : Runs evaluator records clock p contacts none)
    (hread : Rpc.read? octets = none) :
    Runs evaluator records (clock ++ [now]) p (contacts ++ [.received (.ok octets), .shutDown])
      (some .malformedMessage)
  /-- A request of another version is not answered. -/
  | otherVersion {clock now p contacts octets rpc}
    (before : Runs evaluator records clock p contacts none) (hread : Rpc.read? octets = some rpc)
    (hversion : p.session.OtherVersion rpc) :
    Runs evaluator records (clock ++ [now]) (p.dispatch evaluator now rpc)
      (contacts ++ [.received (.ok octets), .shutDown]) (some .protocolViolation)
  /-- A request out of its order is answered with an internal error. -/
  | outOfOrder {clock now p contacts octets rpc}
    (before : Runs evaluator records clock p contacts none) (hread : Rpc.read? octets = some rpc)
    (horder : p.session.OutOfOrder rpc) :
    Runs evaluator records (clock ++ [now]) (p.dispatch evaluator now rpc)
      (contacts ++ [.received (.ok octets), .sent Response.refusal (.ok ()), .shutDown])
      (some .protocolViolation)
  /-- An answer cannot be sent, be it the last one or not. -/
  | sendFailed {clock now p contacts octets rpc payload e}
    (before : Runs evaluator records clock p contacts none) (hread : Rpc.read? octets = some rpc)
    (hreply : (p.reply evaluator now rpc).octets? = some payload) :
    Runs evaluator records (clock ++ [now]) (p.dispatch evaluator now rpc)
      (contacts ++ [.received (.ok octets), .sent payload (.error e), .shutDown])
      (some .transportFailure)
  /-- Nothing happens any more. -/
  | ended {clock now p contacts outcome}
    (before : Runs evaluator records clock p contacts (some outcome)) :
    Runs evaluator records (clock ++ [now]) p contacts (some outcome)

/-! ## Every run follows the rules -/

section

variable {σ : Type} {wire : Wire σ}

theorem Wire.receive_traced {s : Traced σ} {received : Except LinkError Bytes} {link : σ}
    (h : wire.receive s.link = (received, link)) :
    wire.traced.receive s = (received, ⟨link, s.contacts ++ [.received received]⟩) := by
  simp only [Wire.traced, h]

end

theorem LinkError.isEof_iff {e : LinkError} : e.isEof = true ↔ e = .framing .eof := by
  constructor
  · intro h
    unfold isEof at h
    split at h
    · rfl
    · cases h
  · rintro rfl
    rfl

namespace Connection

variable {σ : Type} {wire : Wire σ} {evaluator : Evaluator} {records : Records} {clock : List Int64}
  {p : Progress} {contacts : List Contact} {now : Int64} {octets : Bytes} {rpc : Rpc}
  {c : Connection (Traced σ)}

theorem send_traced {response : Response Payload} {result : Except LinkError Unit} {link : σ}
    (h : wire.send (response.write Payload.toCbor) c.link.link = (result, link)) :
    c.send wire.traced response = (result,
      { c with
        link := ⟨link, c.link.contacts ++ [.sent (response.write Payload.toCbor) result]⟩ }) := by
  simp only [send, Wire.traced, h]

/-- **What becomes of a request that was heard follows the rules.** -/
theorem runs_reply (before : Runs evaluator records clock p contacts none)
    (hread : Rpc.read? octets = some rpc) (houtcome : c.outcome = none)
    (hcontacts : c.link.contacts = contacts ++ [.received (.ok octets)]) :
    Runs evaluator records (clock ++ [now]) (p.dispatch evaluator now rpc)
      (c.reply wire.traced (p.reply evaluator now rpc)).link.contacts
      (c.reply wire.traced (p.reply evaluator now rpc)).outcome := by
  rcases p.session.order_cases rpc with horder | hversion | hadmits
  · have hreply := Progress.reply_of_outOfOrder evaluator now horder
    cases hsend : wire.send Response.refusal c.link.link with
    | mk result link =>
      have hsent : c.send wire.traced .internalError = (result,
          { c with link := ⟨link, c.link.contacts ++ [.sent Response.refusal result]⟩ }) :=
        send_traced hsend
      have hc : c.reply wire.traced (.last .internalError) =
          finish wire.traced (if result.toBool then .protocolViolation else .transportFailure)
            { c with link := ⟨link, c.link.contacts ++ [.sent Response.refusal result]⟩ } := by
        simp only [reply, hsent]
      rw [hreply, hc]
      show Runs _ _ _ _ ((c.link.contacts ++ [_]) ++ [.shutDown]) (some _)
      rw [hcontacts, List.append_assoc, List.append_assoc]
      cases result with
      | error e => exact .sendFailed before hread (by rw [hreply]; rfl)
      | ok _ => exact .outOfOrder before hread horder
  · rw [Progress.reply_of_otherVersion evaluator now hversion]
    show Runs _ _ _ _ (c.link.contacts ++ [.shutDown]) (some .protocolViolation)
    rw [hcontacts, List.append_assoc]
    exact .otherVersion before hread hversion
  · obtain ⟨response, hreply⟩ : ∃ response, p.reply evaluator now rpc = .next response :=
      Session.exists_next_of_admits evaluator now p.records hadmits
    have hoctets : (p.reply evaluator now rpc).octets? = some (response.write Payload.toCbor) := by
      rw [hreply]
      rfl
    cases hsend : wire.send (response.write Payload.toCbor) c.link.link with
    | mk result link =>
      have hsent := send_traced hsend
      rw [hreply]
      cases result with
      | error e =>
        have hc : c.reply wire.traced (.next response) =
            finish wire.traced .transportFailure
              { c with
                link := ⟨link,
                  c.link.contacts ++ [.sent (response.write Payload.toCbor) (.error e)]⟩ } := by
          simp only [reply, hsent]
          rfl
        rw [hc]
        show Runs _ _ _ _ ((c.link.contacts ++ [_]) ++ [.shutDown]) (some _)
        rw [hcontacts, List.append_assoc, List.append_assoc]
        exact .sendFailed before hread hoctets
      | ok _ =>
        have hc : c.reply wire.traced (.next response) =
            { c with
              link := ⟨link, c.link.contacts ++ [.sent (response.write Payload.toCbor) (.ok ())]⟩ } := by
          simp only [reply, hsent]
          rfl
        rw [hc]
        show Runs _ _ _ _ (c.link.contacts ++ [_]) c.outcome
        rw [hcontacts, houtcome, List.append_assoc]
        exact .answered before hread hadmits hoctets

/-- **A turn of an open connection follows the rules.** -/
theorem runs_turn {t : Turn (Traced σ)} {replies : List Reply} (hopen : t.connection.outcome = none)
    (before : Runs evaluator records clock
      ⟨t.connection.session, t.records, t.asked, replies⟩ t.connection.link.contacts none)
    (now : Int64) :
    let next := (t.connection.turn wire.traced evaluator now t.records).behind t.asked
    ∃ replies', Runs evaluator records (clock ++ [now])
      ⟨next.connection.session, next.records, next.asked, replies'⟩ next.connection.link.contacts
      next.connection.outcome := by
  intro next
  obtain ⟨⟨⟨link, contacts⟩, session, outcome⟩, queues, asked⟩ := t
  replace hopen : outcome = none := hopen
  subst hopen
  cases hreceive : wire.receive link with
  | mk received link' =>
    have htraced := Wire.receive_traced (s := ⟨link, contacts⟩) hreceive
    cases received with
    | error e =>
      refine ⟨replies, ?_⟩
      have hnext : next = (⟨finish wire.traced
          (if e.isEof then .peerClosed else .transportFailure)
          ⟨⟨link', contacts ++ [.received (.error e)]⟩, session, none⟩, queues, []⟩ :
            Turn (Traced σ)).behind asked := by
        show Turn.behind (turn ..) _ = _
        rw [turn, htraced]
        rfl
      rw [hnext]
      show Runs _ _ _ ⟨session, queues, asked ++ [], replies⟩ ((contacts ++ [_]) ++ [.shutDown])
        (some (if e.isEof then .peerClosed else .transportFailure))
      rw [List.append_nil, List.append_assoc]
      by_cases heof : e.isEof = true
      · rw [if_pos heof, LinkError.isEof_iff.mp heof]
        exact .left before
      · rw [if_neg heof]
        exact .receiveFailed before fun h => heof (LinkError.isEof_iff.mpr h)
    | ok octets =>
      cases hread : Rpc.read? octets with
      | none =>
        refine ⟨replies, ?_⟩
        have hnext : next = (⟨finish wire.traced .malformedMessage
            ⟨⟨link', contacts ++ [.received (.ok octets)]⟩, session, none⟩, queues, []⟩ :
              Turn (Traced σ)).behind asked :=
          congrArg (Turn.behind · asked) (turn_of_malformed htraced hread)
        rw [hnext]
        show Runs _ _ _ ⟨session, queues, asked ++ [], replies⟩ ((contacts ++ [_]) ++ [.shutDown]) _
        rw [List.append_nil, List.append_assoc]
        exact .unreadable before hread
      | some rpc =>
        have hheard : heard? wire.traced ⟨⟨link, contacts⟩, session, none⟩ = some rpc := by
          unfold heard?
          rw [htraced]
          exact hread
        let p : Progress := ⟨session, queues, asked, replies⟩
        -- the connection when it has heard the request
        let c : Connection (Traced σ) := ⟨⟨link', contacts ++ [.received (.ok octets)]⟩,
          (session.plan evaluator now rpc).session, none⟩
        have hnext : next = Turn.behind ⟨c.reply wire.traced (p.reply evaluator now rpc),
            (p.dispatch evaluator now rpc).records, (session.plan evaluator now rpc).asked⟩ asked := by
          show Turn.behind (turn ..) _ = _
          rw [turn_of_heard? hheard, htraced]
          rfl
        have hruns : Runs evaluator records (clock ++ [now]) (p.dispatch evaluator now rpc)
            (c.reply wire.traced (p.reply evaluator now rpc)).link.contacts
            (c.reply wire.traced (p.reply evaluator now rpc)).outcome :=
          runs_reply before hread rfl rfl
        refine ⟨replies ++ [p.reply evaluator now rpc], ?_⟩
        rw [hnext]
        have hsession : (c.reply wire.traced (p.reply evaluator now rpc)).session =
            (session.plan evaluator now rpc).session := session_reply c _
        show Runs _ _ _ ⟨(c.reply wire.traced (p.reply evaluator now rpc)).session, _, _, _⟩ _ _
        rw [hsession]
        exact hruns

/-- **Every run follows the rules.** -/
theorem runs_serve (wire : Wire σ) (evaluator : Evaluator) (clock : List Int64) (records : Records)
    (link : σ) :
    let t := serve wire.traced evaluator clock records { link := { link } }
    ∃ replies, Runs evaluator records clock
      ⟨t.connection.session, t.records, t.asked, replies⟩ t.connection.link.contacts
      t.connection.outcome := by
  intro t
  refine serve_induction (motive := fun clock (t : Turn (Traced σ)) => ∃ replies,
    Runs evaluator records clock
      ⟨t.connection.session, t.records, t.asked, replies⟩ t.connection.link.contacts
      t.connection.outcome) ?_ ?_ ?_ clock
  · exact ⟨[], .start⟩
  · intro clock now hopen ih
    have houtcome := Option.isNone_iff_eq_none.mp hopen
    rw [serve_concat_of_open hopen]
    obtain ⟨replies, hruns⟩ := ih
    rw [houtcome] at hruns
    exact runs_turn houtcome hruns now
  · intro clock now hended ih
    obtain ⟨replies, hruns⟩ := ih
    refine ⟨replies, ?_⟩
    generalize serve _ _ _ _ _ = t at hended hruns ⊢
    cases houtcome : t.connection.outcome with
    | none =>
      unfold isOpen at hended
      rw [houtcome] at hended
      cases hended
    | some outcome =>
      rw [houtcome] at hruns
      exact .ended hruns

end Connection

end FlagSidecar
