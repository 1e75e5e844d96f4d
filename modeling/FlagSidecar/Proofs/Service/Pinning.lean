import FlagSidecar.Proofs.Service.Registration

/-!
# FlagSidecar.Proofs.Service.Pinning: identity and version of a connection

The first registration that succeeds pins the identity and the version of a connection for the rest of
its life. What it offers goes to the queues of that identity's tag; other registrations are refused, and
a request of another version ends the connection silently.

A connection is met with any list of results for its receives and its sends.

Main statement: `identity_pinned`.
-/

namespace FlagSidecar

open Response (refusal)

/-! ## Listed results -/

theorem Script.sent_receive (s : Script) : (wire.receive s).2.sent = s.sent := by
  obtain ⟨receives, sends, sent, shutdowns⟩ := s
  cases receives <;> rfl

theorem Script.sends_receive (s : Script) : (wire.receive s).2.sends = s.sends := by
  obtain ⟨receives, sends, sent, shutdowns⟩ := s
  cases receives <;> rfl

namespace Connection

variable {evaluator : Evaluator} {records : Records} {c : Connection Script}

/-- An answer is sent once, whether or not that succeeds. -/
theorem sent_reply_next (c : Connection Script) (response : Response Payload) :
    (c.reply Script.wire (.next response)).link.sent =
      c.link.sent ++ [response.write Payload.toCbor] := by
  obtain ⟨⟨receives, sends, sent, shutdowns⟩, session, outcome⟩ := c
  cases sends with
  | nil => rfl
  | cons result rest => cases result <;> rfl

/-- A connection goes on after an answer that could be sent. -/
theorem isOpen_reply_next {c : Connection Script} (hopen : c.isOpen = true)
    (hsend : ∀ e rest, c.link.sends ≠ .error e :: rest) (response : Response Payload) :
    (c.reply Script.wire (.next response)).isOpen = true := by
  obtain ⟨⟨receives, sends, sent, shutdowns⟩, session, outcome⟩ := c
  cases sends with
  | nil => exact hopen
  | cons result rest =>
    cases result with
    | error e => exact absurd rfl (hsend e rest)
    | ok u => exact hopen

/-! ## The next request of a registered connection -/

/-- **Another version ends the connection silently.** -/
theorem serve_concat_of_version {clock : List Int64} {i : Identity} {version : UInt8} {rpc : Rpc}
    (hopen : (c.serve Script.wire evaluator clock records).connection.isOpen = true)
    (hsession : (c.serve Script.wire evaluator clock records).connection.session =
      .registered i version)
    (hheard : (c.serve Script.wire evaluator clock records).connection.heard? Script.wire = some rpc)
    (hversion : rpc.version ≠ version) (now : Int64) :
    (c.serve Script.wire evaluator (clock ++ [now]) records).asked =
        (c.serve Script.wire evaluator clock records).asked ∧
      (c.serve Script.wire evaluator (clock ++ [now]) records).records =
        (c.serve Script.wire evaluator clock records).records ∧
      sight (c.serve Script.wire evaluator (clock ++ [now]) records) =
        ((c.serve Script.wire evaluator clock records).connection.link.sent,
          .registered i version, some .protocolViolation) := by
  rw [serve_concat_of_open hopen]
  generalize c.serve Script.wire evaluator clock records = t at *
  rw [turn_of_heard? hheard, hsession, Session.plan_registered_of_version hversion]
  refine ⟨List.append_nil t.asked, rfl, ?_⟩
  show ((Script.wire.receive t.connection.link).2.sent, _, _) = _
  rw [Script.sent_receive]
  rfl

/-- **A second registration is refused**, valid or not, and the connection goes on. -/
theorem serve_concat_of_register {clock : List Int64} {i : Identity} {version : UInt8} {rpc : Rpc}
    (hopen : (c.serve Script.wire evaluator clock records).connection.isOpen = true)
    (hsession : (c.serve Script.wire evaluator clock records).connection.session =
      .registered i version)
    (hheard : (c.serve Script.wire evaluator clock records).connection.heard? Script.wire = some rpc)
    (hversion : rpc.version = version) (hop : rpc.opcode = OpCode.register.byte) (now : Int64) :
    (c.serve Script.wire evaluator (clock ++ [now]) records).asked =
        (c.serve Script.wire evaluator clock records).asked ∧
      (c.serve Script.wire evaluator (clock ++ [now]) records).records =
        (c.serve Script.wire evaluator clock records).records ∧
      (c.serve Script.wire evaluator (clock ++ [now]) records).connection.link.sent =
        (c.serve Script.wire evaluator clock records).connection.link.sent ++ [refusal] ∧
      ((∀ e rest, (c.serve Script.wire evaluator clock records).connection.link.sends ≠
          .error e :: rest) →
        (c.serve Script.wire evaluator (clock ++ [now]) records).connection.isOpen = true) := by
  rw [serve_concat_of_open hopen]
  generalize c.serve Script.wire evaluator clock records = t at *
  rw [turn_of_heard? hheard, hsession, Session.plan_registered_register hversion hop]
  let heard : Connection Script :=
    { t.connection with
      link := (Script.wire.receive t.connection.link).2, session := .registered i version }
  refine ⟨List.append_nil t.asked, rfl, ?_, ?_⟩
  · have hsent := sent_reply_next heard .internalError
    rw [Script.sent_receive] at hsent
    exact hsent
  · intro hsend
    -- receiving takes nothing from the listed results of sends
    have hsends (e : LinkError) (rest : List (Except LinkError Unit)) :
        heard.link.sends ≠ .error e :: rest := by
      rw [Script.sends_receive]
      exact hsend e rest
    exact isOpen_reply_next (c := heard) hopen hsends .internalError

/-! ## Runs -/

/-- **A registration is declared**: by a request that was heard while the connection was still
unregistered, in the version spoken here. -/
theorem declared_of_registered {σ : Type} {wire : Wire σ} {c : Connection σ}
    (hfresh : c.session = .unregistered) (clock : List Int64) :
    ∀ i version, (c.serve wire evaluator clock records).connection.session =
        .registered i version →
      version = protocolVersion ∧
      ∃ before now after rpc, clock = before ++ now :: after ∧
        (c.serve wire evaluator before records).connection.session = .unregistered ∧
        (c.serve wire evaluator before records).connection.heard? wire = some rpc ∧
        rpc.Declares i := by
  refine serve_induction (motive := fun clock t => ∀ i version,
    t.connection.session = .registered i version → version = protocolVersion ∧
      ∃ before now after rpc, clock = before ++ now :: after ∧
        (c.serve wire evaluator before records).connection.session = .unregistered ∧
        (c.serve wire evaluator before records).connection.heard? wire = some rpc ∧
        rpc.Declares i) ?_ ?_ ?_ clock
  · intro i version h
    cases hfresh.symm.trans h
  · intro clock now hopen ih i version h
    rw [serve_concat_of_open hopen] at h
    replace h : ((c.serve wire evaluator clock records).connection.turn wire evaluator now
      (c.serve wire evaluator clock records).records).connection.session =
        .registered i version := h
    cases hbefore : (c.serve wire evaluator clock records).connection.session with
    | registered j v =>
      rw [session_turn_of_registered wire evaluator hbefore] at h
      rw [h] at hbefore
      obtain ⟨hversion, before, now', after, rpc, hclock, hrun⟩ := ih i version hbefore
      exact ⟨hversion, before, now', after ++ [now], rpc, by rw [hclock]; simp, hrun⟩
    | unregistered =>
      -- this is the turn that registers: its request is the one that declares
      rw [session_turn, plan?] at h
      cases hheard : (c.serve wire evaluator clock records).connection.heard? wire with
      | none =>
        rw [hheard, hbefore] at h
        cases h
      | some rpc =>
        rw [hheard, hbefore] at h
        replace h : (Session.plan evaluator now .unregistered rpc).session =
          .registered i version := h
        rcases Session.plan_unregistered evaluator now rpc with
          ⟨-, hp⟩ | ⟨-, -, hp⟩ | ⟨-, fault, hp⟩ | ⟨j, hrpc, hp⟩
        · rw [hp] at h
          cases h
        · rw [hp] at h
          cases h
        · rw [hp] at h
          cases h
        · rw [hp] at h
          cases h
          exact ⟨rfl, clock, now, [], rpc, rfl, hbefore, hheard, hrpc⟩
  · intro clock now hended ih i version h
    obtain ⟨hversion, before, now', after, rpc, hclock, hrun⟩ := ih i version h
    exact ⟨hversion, before, now', after ++ [now], rpc, by rw [hclock]; simp, hrun⟩

/-- **Identity and version are pinned.** A fresh connection meets any results of its receives and sends.
What it does to the queues is what it offers, and unregistered it offers nothing. At every point at which
it is registered, the version is the one spoken here, the identity was declared by the first registration
that succeeded, all offers of the run go to its tag and the queues of other tags are as they were;
the registration stays as it is whatever follows; a request of another version ends the connection
silently; and a second registration is answered by an internal error and nothing else. -/
theorem identity_pinned (evaluator : Evaluator) (records : Records) (script : Script)
    (clock : List Int64) :
    let c : Connection Script := { link := script }
    let t := c.serve Script.wire evaluator clock records
    let offers := c.offers Script.wire evaluator clock records
    t.records = offers.foldl Records.offer records ∧
    (t.connection.session = .unregistered → offers = []) ∧
    ∀ i version, t.connection.session = .registered i version →
      version = protocolVersion ∧
      (∃ before now after rpc, clock = before ++ now :: after ∧
        (c.serve Script.wire evaluator before records).connection.session = .unregistered ∧
        (c.serve Script.wire evaluator before records).connection.heard? Script.wire = some rpc ∧
        rpc.Declares i) ∧
      (∀ o ∈ offers, o.tag = i.tag) ∧
      (∀ tag, i.tag ≠ tag → Records.AgreeOn tag t.records records) ∧
      (∀ more, (c.serve Script.wire evaluator (clock ++ more) records).connection.session =
        .registered i version) ∧
      ∀ now rpc, t.connection.isOpen = true → t.connection.heard? Script.wire = some rpc →
        let t' := c.serve Script.wire evaluator (clock ++ [now]) records
        (rpc.version ≠ version →
          t'.asked = t.asked ∧ t'.records = t.records ∧
          sight t' = (t.connection.link.sent, .registered i version, some .protocolViolation)) ∧
        (rpc.version = version → rpc.opcode = OpCode.register.byte →
          t'.asked = t.asked ∧ t'.records = t.records ∧
          t'.connection.link.sent = t.connection.link.sent ++ [refusal] ∧
          ((∀ e rest, t.connection.link.sends ≠ .error e :: rest) →
            t'.connection.isOpen = true)) := by
  intro c t offers
  have hrecords : t.records = offers.foldl Records.offer records := records_serve clock records c
  refine ⟨hrecords, ?_, ?_⟩
  · intro hsession
    apply List.eq_nil_iff_forall_not_mem.mpr
    intro o ho
    obtain ⟨i, version, hregistered, -⟩ := tag_of_mem_offers ho
    cases hsession.symm.trans hregistered
  · intro i version hsession
    obtain ⟨hversion, hdeclared⟩ := declared_of_registered rfl clock i version hsession
    have htag : ∀ o ∈ offers, o.tag = i.tag := by
      intro o ho
      -- the log's tag is that of the registration the run ends with, and this is the one
      obtain ⟨j, v, hregistered, htag⟩ := tag_of_mem_offers ho
      cases hsession.symm.trans hregistered
      exact htag
    refine ⟨hversion, hdeclared, htag, ?_, ?_, ?_⟩
    · intro tag hne
      have hothers : ∀ o ∈ offers, o.tag ≠ tag := by
        intro o ho
        rw [htag o ho]
        exact hne
      rw [hrecords]
      exact Records.agreeOn_foldl_offer hothers records
    · intro more
      rw [serve_append]
      exact session_serve_of_registered hsession more
    · intro now rpc hopen hheard
      constructor
      · intro hother
        exact serve_concat_of_version hopen hsession hheard hother now
      · intro hsame hop
        exact serve_concat_of_register hopen hsession hheard hsame hop now

/-- A client that registers twice. -/
theorem identity_pinned_twice :
    let registration := (Request.register ⟨"shop", "rust-1", ⟨0⟩⟩).toRpc.write
    let c : Connection Script := { link := ⟨[.ok registration, .ok registration], [], [], 0⟩ }
    let t := c.serve Script.wire RuleSet.empty.evaluator [0, 0] (.new 1 1)
    t.connection.link.sent = [Response.acknowledgement, refusal] ∧
      t.connection.session = .registered ⟨"shop", "rust-1", ⟨0⟩⟩ protocolVersion ∧
      t.connection.isOpen = true := by
  intro registration c t
  obtain ⟨-, -, hpinned⟩ := identity_pinned RuleSet.empty.evaluator (.new 1 1)
    ⟨[.ok registration, .ok registration], [], [], 0⟩ [0]
  obtain ⟨-, -, -, -, hlater, hnext⟩ :=
    hpinned ⟨"shop", "rust-1", ⟨0⟩⟩ protocolVersion (by decide)
  have hheard : (c.serve Script.wire RuleSet.empty.evaluator [0] (.new 1 1)).connection.heard?
      Script.wire = some (Request.register ⟨"shop", "rust-1", ⟨0⟩⟩).toRpc := rfl
  obtain ⟨-, -, hsent, hopen⟩ := (hnext 0 _ (by decide) hheard).2 rfl rfl
  refine ⟨hsent, hlater [0], ?_⟩
  apply hopen
  intro e rest h
  cases h

end Connection

end FlagSidecar
