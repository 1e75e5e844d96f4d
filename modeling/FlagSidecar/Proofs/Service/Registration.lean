import FlagSidecar.Flag.RuleSet
import FlagSidecar.Proofs.Service.Run

/-!
# FlagSidecar.Proofs.Service.Registration: registration comes first

A fresh connection hears a list of messages, and its answers can be sent. Until a registration succeeds
it is in one of the states `awaiting`: all it has heard are registrations whose arguments were rejected,
each answered by an internal error, and it has touched neither the evaluator nor the queues. The next
message is one of five kinds, and what becomes of the connection is settled by the kind.

Main statement: `registration_precedes`.
-/

namespace FlagSidecar

/-- The octets of an internal error. -/
def Response.refusal : Bytes := (internalError : Response Payload).write Payload.toCbor

/-- The octets of success without a payload. -/
def Response.acknowledgement : Bytes := (ok none : Response Payload).write Payload.toCbor

open Response (refusal acknowledgement)

namespace Connection

/-- A connection that has refused so many of the messages it hears, and is still open and
unregistered. -/
def awaiting (messages : List Bytes) (refused : Nat) : Connection Script where
  link := ⟨(messages.drop refused).map .ok, [], List.replicate refused refusal, 0⟩

/-- What a fresh connection comes to that hears these messages and then the end. -/
def listen (evaluator : Evaluator) (records : Records) (messages : List Bytes)
    (clock : List Int64) : Turn Script :=
  (awaiting messages 0).serve Script.wire evaluator clock records

/-- What a run has answered, what its connection has declared, and how it ended if it has. -/
def sight (t : Turn Script) : List Bytes × Session × Option Outcome :=
  (t.connection.link.sent, t.connection.session, t.connection.outcome)

/-! ## The next message -/

section

variable {evaluator : Evaluator} {now : Int64} {records : Records} {octets : Bytes} {rpc : Rpc}
  {rest : List (Except LinkError Bytes)} {sent : List Bytes} {shutdowns : Nat}

/-- Any request but a registration is answered by an internal error and ends the connection. -/
theorem turn_refused (hread : Rpc.read? octets = some rpc)
    (hop : rpc.opcode ≠ OpCode.register.byte) :
    (⟨⟨.ok octets :: rest, [], sent, shutdowns⟩, .unregistered, none⟩ : Connection Script).turn
        Script.wire evaluator now records =
      ⟨⟨⟨rest, [], sent ++ [refusal], shutdowns + 1⟩, .unregistered, some .protocolViolation⟩,
        records, []⟩ := by
  rw [turn_of_heard? (by exact hread), Session.plan_unregistered_of_opcode hop]
  rfl

/-- A registration in another version ends the connection without an answer. -/
theorem turn_otherVersion (hread : Rpc.read? octets = some rpc)
    (hop : rpc.opcode = OpCode.register.byte) (hversion : rpc.version ≠ protocolVersion) :
    (⟨⟨.ok octets :: rest, [], sent, shutdowns⟩, .unregistered, none⟩ : Connection Script).turn
        Script.wire evaluator now records =
      ⟨⟨⟨rest, [], sent, shutdowns + 1⟩, .unregistered, some .protocolViolation⟩, records, []⟩ := by
  rw [turn_of_heard? (by exact hread), Session.plan_unregistered_of_version hop hversion]
  rfl

/-- A registration with rejected arguments is answered by an internal error, and that is all. -/
theorem turn_rejected (hread : Rpc.read? octets = some rpc) (h : rpc.RejectedRegistration) :
    (⟨⟨.ok octets :: rest, [], sent, shutdowns⟩, .unregistered, none⟩ : Connection Script).turn
        Script.wire evaluator now records =
      ⟨⟨⟨rest, [], sent ++ [refusal], shutdowns⟩, .unregistered, none⟩, records, []⟩ := by
  obtain ⟨fault, hplan⟩ := Session.plan_of_rejected evaluator now h
  rw [turn_of_heard? (by exact hread), hplan]
  rfl

/-- A registration that is in order is acknowledged. -/
theorem turn_declared {i : Identity} (hread : Rpc.read? octets = some rpc) (h : rpc.Declares i) :
    (⟨⟨.ok octets :: rest, [], sent, shutdowns⟩, .unregistered, none⟩ : Connection Script).turn
        Script.wire evaluator now records =
      ⟨⟨⟨rest, [], sent ++ [acknowledgement], shutdowns⟩, .registered i protocolVersion, none⟩,
        records, []⟩ := by
  rw [turn_of_heard? (by exact hread), Session.plan_of_declares evaluator now h]
  rfl

/-- What is no request ends the connection without an answer. -/
theorem turn_undecodable (hread : Rpc.read? octets = none) :
    (⟨⟨.ok octets :: rest, [], sent, shutdowns⟩, .unregistered, none⟩ : Connection Script).turn
        Script.wire evaluator now records =
      ⟨⟨⟨rest, [], sent, shutdowns + 1⟩, .unregistered, some .malformedMessage⟩, records, []⟩ := by
  rw [turn_of_malformed rfl hread]
  rfl

end

/-! ## Runs -/

/-- The next message of an awaiting connection. -/
theorem awaiting_eq {messages : List Bytes} {refused : Nat} {m : Bytes}
    (hm : messages[refused]? = some m) :
    awaiting messages refused =
      ⟨⟨.ok m :: (messages.drop (refused + 1)).map .ok, [], List.replicate refused refusal, 0⟩,
        .unregistered, none⟩ := by
  obtain ⟨hlt, rfl⟩ := List.getElem?_eq_some_iff.mp hm
  rw [awaiting, List.drop_eq_getElem_cons hlt, List.map_cons]

/-- **An open, unregistered connection awaits**: it has refused everything it has heard. -/
structure Awaits (records : Records) (messages : List Bytes) (refused : Nat) (t : Turn Script) :
    Prop where
  turn_eq : t = ⟨awaiting messages refused, records, []⟩
  refused_le : refused ≤ messages.length
  rejected : ∀ m ∈ messages.take refused, ∃ rpc, Rpc.read? m = some rpc ∧ rpc.RejectedRegistration

variable {evaluator : Evaluator} {records : Records} {messages : List Bytes} {clock : List Int64}

/-- One turn of an awaiting connection: unless it registers the connection it neither asks nor offers
anything, and unless it ends the connection its message is refused. -/
theorem Awaits.turn {refused : Nat} {t : Turn Script} (h : Awaits records messages refused t)
    (now : Int64)
    (hsession : (t.connection.turn Script.wire evaluator now t.records).connection.session =
      .unregistered) :
    (t.connection.turn Script.wire evaluator now t.records).asked = [] ∧
      (t.connection.turn Script.wire evaluator now t.records).records = records ∧
      ((t.connection.turn Script.wire evaluator now t.records).connection.isOpen = true →
        Awaits records messages (refused + 1)
          (t.connection.turn Script.wire evaluator now t.records)) := by
  obtain ⟨rfl, hle, hrejected⟩ := h
  dsimp only at hsession ⊢
  -- an open connection is what has to be shown to await, so the endings need no more
  cases hm : messages[refused]? with
  | none =>
    have hdrop : messages.drop refused = [] :=
      List.drop_eq_nil_of_le (List.getElem?_eq_none_iff.mp hm)
    have hend : (awaiting messages refused).turn Script.wire evaluator now records =
        ⟨⟨⟨[], [], List.replicate refused refusal, 1⟩, .unregistered, some .peerClosed⟩,
          records, []⟩ := by
      rw [awaiting, hdrop]
      rfl
    rw [hend]
    refine ⟨rfl, rfl, ?_⟩
    intro hopen
    cases hopen
  | some m =>
    rw [awaiting_eq hm] at hsession ⊢
    cases hread : Rpc.read? m with
    | none =>
      rw [turn_undecodable hread]
      refine ⟨rfl, rfl, ?_⟩
      intro hopen
      cases hopen
    | some rpc =>
      rcases Session.plan_unregistered evaluator now rpc with
        ⟨hop, -⟩ | ⟨hop, hversion, -⟩ | ⟨hrpc, -⟩ | ⟨i, hrpc, -⟩
      · rw [turn_refused hread hop]
        refine ⟨rfl, rfl, ?_⟩
        intro hopen
        cases hopen
      · rw [turn_otherVersion hread hop hversion]
        refine ⟨rfl, rfl, ?_⟩
        intro hopen
        cases hopen
      · -- the one kind of message after which the connection still awaits
        rw [turn_rejected hread hrpc]
        obtain ⟨hlt, -⟩ := List.getElem?_eq_some_iff.mp hm
        refine ⟨rfl, rfl, fun _ => ⟨?_, hlt, ?_⟩⟩
        · rw [awaiting, List.replicate_succ']
        · intro m' hm'
          rw [List.take_add_one, hm, List.mem_append] at hm'
          rcases hm' with hm' | hm'
          · exact hrejected m' hm'
          · rw [Option.toList_some, List.mem_singleton] at hm'
            subst hm'
            exact ⟨rpc, hread, hrpc⟩
      · rw [turn_declared hread hrpc] at hsession
        cases hsession

/-- **Before registration nothing is asked and nothing is offered**, and a connection that is still open
has refused all it has heard. -/
theorem listen_unregistered
    (h : (listen evaluator records messages clock).connection.session = .unregistered) :
    (listen evaluator records messages clock).asked = [] ∧
      (listen evaluator records messages clock).records = records ∧
      ((listen evaluator records messages clock).connection.isOpen = true →
        Awaits records messages clock.length (listen evaluator records messages clock)) := by
  revert h
  refine serve_induction (motive := fun clock t => t.connection.session = .unregistered →
    t.asked = [] ∧ t.records = records ∧
      (t.connection.isOpen = true → Awaits records messages clock.length t)) ?_ ?_ ?_ clock
  · intro _
    refine ⟨rfl, rfl, fun _ => ⟨rfl, Nat.zero_le _, ?_⟩⟩
    intro m hm
    cases hm
  · intro clock now hopen ih hsession
    rw [serve_concat_of_open hopen] at hsession ⊢
    generalize (awaiting messages 0).serve Script.wire evaluator clock records = t at *
    -- a registration would have outlived the turn
    have hbefore : t.connection.session = .unregistered := by
      cases hs : t.connection.session with
      | unregistered => rfl
      | registered i version =>
        have hafter : _ = Session.registered i version :=
          session_turn_of_registered Script.wire evaluator hs now t.records
        cases hafter.symm.trans hsession
    obtain ⟨hasked, -, hawaits⟩ := ih hbefore
    obtain ⟨hturnAsked, hrecords, hnext⟩ := (hawaits hopen).turn now hsession
    rw [Turn.behind, hasked, List.nil_append, List.length_append]
    exact ⟨hturnAsked, hrecords, hnext⟩
  · intro clock now hended ih hsession
    obtain ⟨hasked, hrecords, -⟩ := ih hsession
    refine ⟨hasked, hrecords, ?_⟩
    intro hopen
    cases hopen.symm.trans hended

/-- The next turn of a run that awaits. -/
theorem listen_concat (h : Awaits records messages clock.length
    (listen evaluator records messages clock)) (now : Int64) :
    listen evaluator records messages (clock ++ [now]) =
      (awaiting messages clock.length).turn Script.wire evaluator now records := by
  have hturn : (awaiting messages 0).serve Script.wire evaluator clock records =
      ⟨awaiting messages clock.length, records, []⟩ := h.turn_eq
  have hopen : ((awaiting messages 0).serve Script.wire evaluator clock
      records).connection.isOpen = true := by
    rw [hturn]
    rfl
  rw [listen, serve_concat_of_open hopen, hturn]
  rfl

/-- **What the next message does to a run that awaits**, by the kind of the message. -/
theorem sight_listen_concat (h : Awaits records messages clock.length
    (listen evaluator records messages clock)) (now : Int64) {m : Bytes}
    (hm : messages[clock.length]? = some m) :
    (Rpc.read? m = none →
      sight (listen evaluator records messages (clock ++ [now])) =
        (List.replicate clock.length refusal, .unregistered, some .malformedMessage)) ∧
    ∀ rpc, Rpc.read? m = some rpc →
      (rpc.opcode ≠ OpCode.register.byte →
        sight (listen evaluator records messages (clock ++ [now])) =
          (List.replicate clock.length refusal ++ [refusal], .unregistered,
            some .protocolViolation)) ∧
      (rpc.opcode = OpCode.register.byte → rpc.version ≠ protocolVersion →
        sight (listen evaluator records messages (clock ++ [now])) =
          (List.replicate clock.length refusal, .unregistered, some .protocolViolation)) ∧
      (rpc.RejectedRegistration →
        sight (listen evaluator records messages (clock ++ [now])) =
          (List.replicate clock.length refusal ++ [refusal], .unregistered, none)) ∧
      ∀ i, rpc.Declares i →
        sight (listen evaluator records messages (clock ++ [now])) =
          (List.replicate clock.length refusal ++ [acknowledgement],
            .registered i protocolVersion, none) := by
  rw [listen_concat h, awaiting_eq hm]
  constructor
  · intro hread
    rw [turn_undecodable hread, sight]
  · intro rpc hread
    refine ⟨?_, ?_, ?_, ?_⟩
    · intro hop
      rw [turn_refused hread hop, sight]
    · intro hop hversion
      rw [turn_otherVersion hread hop hversion, sight]
    · intro hrpc
      rw [turn_rejected hread hrpc, sight]
    · intro i hrpc
      rw [turn_declared hread hrpc, sight]

/-- **Registration comes first.** At any point of a run of a fresh connection: as long as no registration
has succeeded, the evaluator has not been asked and the queues are as they were; a connection that is
also still open has heard rejected registrations only, one internal error for each, and its next message
decides as its kind says; and an ended connection processes nothing more. -/
theorem registration_precedes (evaluator : Evaluator) (records : Records) (messages : List Bytes)
    (clock : List Int64) :
    let t := listen evaluator records messages clock
    (t.connection.session = .unregistered → t.asked = [] ∧ t.records = records) ∧
    (t.connection.session = .unregistered → t.connection.isOpen = true →
      clock.length ≤ messages.length ∧
      (∀ m ∈ messages.take clock.length, ∃ rpc, Rpc.read? m = some rpc ∧ rpc.RejectedRegistration) ∧
      t.connection.link.sent = List.replicate clock.length refusal ∧
      ∀ (now : Int64) (m : Bytes), messages[clock.length]? = some m →
        let t' := listen evaluator records messages (clock ++ [now])
        (Rpc.read? m = none →
          sight t' = (t.connection.link.sent, .unregistered, some .malformedMessage)) ∧
        ∀ rpc, Rpc.read? m = some rpc →
          (rpc.opcode ≠ OpCode.register.byte →
            sight t' =
              (t.connection.link.sent ++ [refusal], .unregistered, some .protocolViolation)) ∧
          (rpc.opcode = OpCode.register.byte → rpc.version ≠ protocolVersion →
            sight t' = (t.connection.link.sent, .unregistered, some .protocolViolation)) ∧
          (rpc.RejectedRegistration →
            sight t' = (t.connection.link.sent ++ [refusal], .unregistered, none)) ∧
          ∀ i, rpc.Declares i →
            sight t' = (t.connection.link.sent ++ [acknowledgement],
              .registered i protocolVersion, none)) ∧
    (t.connection.isOpen = false →
      ∀ more, listen evaluator records messages (clock ++ more) = t) := by
  intro t
  refine ⟨?_, ?_, ?_⟩
  · intro hsession
    obtain ⟨hasked, hrecords, -⟩ := listen_unregistered hsession
    exact ⟨hasked, hrecords⟩
  · intro hsession hopen
    obtain ⟨-, -, hwaiting⟩ := listen_unregistered hsession
    have hawaits := hwaiting hopen
    have hsent : t.connection.link.sent = List.replicate clock.length refusal := by
      show (listen evaluator records messages clock).connection.link.sent = _
      rw [hawaits.turn_eq]
      rfl
    refine ⟨hawaits.refused_le, hawaits.rejected, hsent, ?_⟩
    intro now m hm
    rw [hsent]
    exact sight_listen_concat hawaits now hm
  · intro hended more
    exact serve_append_of_ended hended more

/-- A registration without arguments, and then a request for the flags. -/
theorem registration_precedes_flags :
    sight (listen RuleSet.empty.evaluator (.new 1 1)
      [(Rpc.request .register []).write, Request.flags.toRpc.write] [0, 0]) =
      ([refusal, refusal], .unregistered, some .protocolViolation) := by
  obtain ⟨-, hawaits, -⟩ := registration_precedes RuleSet.empty.evaluator (.new 1 1)
    [(Rpc.request .register []).write, Request.flags.toRpc.write] [0]
  obtain ⟨-, -, hsent, hnext⟩ := hawaits (by decide) (by decide)
  have hread : Rpc.read? Request.flags.toRpc.write = some Request.flags.toRpc := rfl
  have hop : Request.flags.toRpc.opcode ≠ OpCode.register.byte := by decide
  have hsight := ((hnext 0 Request.flags.toRpc.write rfl).2 Request.flags.toRpc hread).1 hop
  rw [hsent] at hsight
  exact hsight

end Connection

end FlagSidecar
