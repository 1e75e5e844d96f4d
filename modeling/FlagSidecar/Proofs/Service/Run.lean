import FlagSidecar.Proofs.Service.Offers
import FlagSidecar.Service.Connection
import Mathlib.Data.List.Induction

/-!
# FlagSidecar.Proofs.Service.Run: runs of a connection

What a turn does to the session, to the queues and to the evaluator is settled by the plan of the request
it receives, if it receives one. A run is a run of its first turns followed by a run of the others, and
it goes no further than its end. So what every turn of an open connection preserves, a run preserves.

The offers of a run are a log of what its turns offer to the queues: the run changes them by these
offers, one after the other, and by nothing else.

Main statements: `Connection.serve_append`, `Connection.serve_induction`, `Connection.records_serve`.
-/

namespace FlagSidecar

/-- The turn as the last of several, before which so much had been asked. -/
def Turn.behind {σ : Type} (t : Turn σ) (asked : List Consultation) : Turn σ :=
  { t with asked := asked ++ t.asked }

namespace Connection

variable {σ : Type} (wire : Wire σ) (evaluator : Evaluator)

/-! ## One turn -/

/-- The request that the next turn receives, if it receives one. -/
def heard? (c : Connection σ) : Option Rpc := (wire.receive c.link).1.toOption.bind Rpc.read?

/-- What that request leads to. -/
def plan? (now : Int64) (c : Connection σ) : Option Plan :=
  (c.heard? wire).map (c.session.plan evaluator now)

/-- What the next turn offers. -/
def offer? (now : Int64) (c : Connection σ) : Option Offer :=
  (c.plan? wire evaluator now).bind (·.action.offer?)

section

variable {wire evaluator}

/-- A reply never touches the session. -/
theorem session_reply (c : Connection σ) (r : Reply) : (c.reply wire r).session = c.session := by
  cases r with
  | silence => rfl
  | last response => rfl
  | next response =>
    -- whether the answer could be sent decides about the outcome only
    unfold reply
    show (if _ then _ else _ : Connection σ).session = _
    split <;> rfl

/-- **What a turn does is what its plan says**: to the session, the queues and the evaluator. -/
theorem turn_eq_plan (now : Int64) (records : Records) (c : Connection σ) :
    (c.turn wire evaluator now records).connection.session =
        (c.plan? wire evaluator now).elim c.session Plan.session ∧
      (c.turn wire evaluator now records).records =
        (c.offer? wire evaluator now).elim records records.offer ∧
      (c.turn wire evaluator now records).asked =
        (c.plan? wire evaluator now).elim [] Plan.asked := by
  unfold offer? plan? heard? turn
  rcases wire.receive c.link with ⟨received, link⟩
  cases received with
  | error e => exact ⟨rfl, rfl, rfl⟩
  | ok octets =>
    simp only [react, Except.toOption, Option.bind_some]
    cases Rpc.read? octets with
    | none => exact ⟨rfl, rfl, rfl⟩
    | some rpc =>
      refine ⟨?_, ?_, rfl⟩
      · apply session_reply
      · exact Records.snd_perform records _

theorem session_turn (now : Int64) (records : Records) (c : Connection σ) :
    (c.turn wire evaluator now records).connection.session =
      (c.plan? wire evaluator now).elim c.session Plan.session :=
  (turn_eq_plan now records c).1

theorem records_turn (now : Int64) (records : Records) (c : Connection σ) :
    (c.turn wire evaluator now records).records =
      (c.offer? wire evaluator now).elim records records.offer :=
  (turn_eq_plan now records c).2.1

/-- A turn that receives a request. -/
theorem turn_of_heard? {now : Int64} {records : Records} {c : Connection σ} {rpc : Rpc}
    (h : c.heard? wire = some rpc) :
    c.turn wire evaluator now records =
      ⟨{ c with
          link := (wire.receive c.link).2
          session := (c.session.plan evaluator now rpc).session }.reply wire
          (records.perform (c.session.plan evaluator now rpc).action).1,
        (records.perform (c.session.plan evaluator now rpc).action).2,
        (c.session.plan evaluator now rpc).asked⟩ := by
  unfold heard? at h
  unfold turn
  generalize wire.receive c.link = reception at h ⊢
  obtain ⟨received, link⟩ := reception
  cases received with
  | error e => cases h
  | ok octets =>
    replace h : Rpc.read? octets = some rpc := h
    simp only [react, h]

/-- A turn that receives what is no request. -/
theorem turn_of_malformed {now : Int64} {records : Records} {c : Connection σ} {octets : Bytes}
    {link : σ} (hreceive : wire.receive c.link = (.ok octets, link))
    (hread : Rpc.read? octets = none) :
    c.turn wire evaluator now records =
      ⟨{ c with link }.finish wire .malformedMessage, records, []⟩ := by
  rw [turn, hreceive]
  simp only [react, hread]

/-- The plan of a turn is a plan of the session for some request. -/
theorem exists_of_plan? {now : Int64} {c : Connection σ} {p : Plan}
    (h : c.plan? wire evaluator now = some p) :
    ∃ rpc, p = c.session.plan evaluator now rpc := by
  obtain ⟨rpc, -, hp⟩ := Option.map_eq_some_iff.mp h
  exact ⟨rpc, hp.symm⟩

/-- A registration outlives every turn. -/
theorem session_turn_of_registered (wire : Wire σ) (evaluator : Evaluator) {c : Connection σ}
    {i : Identity} {version : UInt8} (h : c.session = .registered i version) (now : Int64)
    (records : Records) :
    (c.turn wire evaluator now records).connection.session = .registered i version := by
  rw [session_turn]
  cases hp : c.plan? wire evaluator now with
  | none => exact h
  | some p =>
    obtain ⟨rpc, rfl⟩ := exists_of_plan? hp
    rw [h]
    exact Session.session_plan_registered evaluator now i version rpc

end

/-! ## Runs -/

section

variable {wire evaluator} {records : Records} {c : Connection σ}

/-- An ended connection takes no turns. -/
theorem serve_of_ended (hended : c.isOpen = false) (clock : List Int64) :
    c.serve wire evaluator clock records = ⟨c, records, []⟩ := by
  cases clock with
  | nil => rfl
  | cons now clock => rw [serve, if_neg (by rw [hended]; exact Bool.false_ne_true)]

theorem serve_cons_of_open (hopen : c.isOpen = true) (now : Int64) (clock : List Int64) :
    c.serve wire evaluator (now :: clock) records =
      ((c.turn wire evaluator now records).connection.serve wire evaluator clock
        (c.turn wire evaluator now records).records).behind
          (c.turn wire evaluator now records).asked := by
  rw [serve, if_pos hopen]
  rfl

/-- **A run is continued from where it stands.** -/
theorem serve_append (clock more : List Int64) (records : Records) (c : Connection σ) :
    c.serve wire evaluator (clock ++ more) records =
      ((c.serve wire evaluator clock records).connection.serve wire evaluator more
        (c.serve wire evaluator clock records).records).behind
          (c.serve wire evaluator clock records).asked := by
  induction clock generalizing records c with
  | nil => rfl
  | cons now clock ih =>
    cases hopen : c.isOpen with
    | true =>
      rw [List.cons_append, serve_cons_of_open hopen, serve_cons_of_open hopen, ih]
      simp only [Turn.behind, List.append_assoc]
    | false =>
      -- neither the first readings nor the others are of any use
      rw [serve_of_ended hopen, serve_of_ended hopen]
      simp only [serve_of_ended hopen, Turn.behind, List.append_nil]

/-- One reading more is one turn more, as long as the connection is open. -/
theorem serve_concat_of_open {clock : List Int64}
    (hopen : (c.serve wire evaluator clock records).connection.isOpen = true) (now : Int64) :
    c.serve wire evaluator (clock ++ [now]) records =
      ((c.serve wire evaluator clock records).connection.turn wire evaluator now
        (c.serve wire evaluator clock records).records).behind
          (c.serve wire evaluator clock records).asked := by
  rw [serve_append, serve_cons_of_open hopen]
  simp only [serve, Turn.behind, List.append_nil]

/-- **Nothing happens after the end**: whatever the clock still shows, the run stays as it is. -/
theorem serve_append_of_ended {clock : List Int64}
    (hended : (c.serve wire evaluator clock records).connection.isOpen = false)
    (more : List Int64) :
    c.serve wire evaluator (clock ++ more) records = c.serve wire evaluator clock records := by
  rw [serve_append, serve_of_ended hended]
  simp only [Turn.behind, List.append_nil]

/-- **Induction along a run.** What holds at the start, and after a turn if it held before it on an open
connection, holds after every run. -/
theorem serve_induction {motive : List Int64 → Turn σ → Prop}
    (start : motive [] ⟨c, records, []⟩)
    (turn : ∀ clock now, (c.serve wire evaluator clock records).connection.isOpen = true →
      motive clock (c.serve wire evaluator clock records) →
      motive (clock ++ [now]) (c.serve wire evaluator (clock ++ [now]) records))
    (ended : ∀ clock now, (c.serve wire evaluator clock records).connection.isOpen = false →
      motive clock (c.serve wire evaluator clock records) →
      motive (clock ++ [now]) (c.serve wire evaluator clock records))
    (clock : List Int64) : motive clock (c.serve wire evaluator clock records) := by
  induction clock using List.reverseRecOn with
  | nil => exact start
  | append_singleton clock now ih =>
    cases hopen : (c.serve wire evaluator clock records).connection.isOpen with
    | true => exact turn clock now hopen ih
    | false =>
      rw [serve_append_of_ended hopen]
      exact ended clock now hopen ih

/-- A registration outlives every run. -/
theorem session_serve_of_registered {i : Identity} {version : UInt8}
    (h : c.session = .registered i version) (clock : List Int64) :
    (c.serve wire evaluator clock records).connection.session = .registered i version := by
  refine serve_induction (motive := fun _ t => t.connection.session = .registered i version)
    h ?_ ?_ clock
  · intro clock now hopen ih
    rw [serve_concat_of_open hopen]
    exact session_turn_of_registered wire evaluator ih now _
  · intro clock now hended ih
    exact ih

end

/-! ## The log of offers -/

/-- What a run offers, in order. -/
def offers : (clock : List Int64) → Records → Connection σ → List Offer
  | [], _, _ => []
  | now :: clock, records, c =>
    if c.isOpen then
      let t := c.turn wire evaluator now records
      (c.offer? wire evaluator now).toList ++ offers clock t.records t.connection
    else []

variable {wire evaluator}

/-- **A run changes the queues by its offers, in order, and by nothing else.** -/
theorem records_serve (clock : List Int64) (records : Records) (c : Connection σ) :
    (c.serve wire evaluator clock records).records =
      (c.offers wire evaluator clock records).foldl Records.offer records := by
  induction clock generalizing records c with
  | nil => rfl
  | cons now clock ih =>
    cases hopen : c.isOpen with
    | true =>
      rw [serve_cons_of_open hopen, offers, if_pos hopen, List.foldl_append]
      have hturn : (c.turn wire evaluator now records).records =
          (c.offer? wire evaluator now).toList.foldl Records.offer records := by
        rw [records_turn]
        cases c.offer? wire evaluator now <;> rfl
      rw [← hturn]
      exact ih _ _
    | false =>
      rw [serve_of_ended hopen, offers, if_neg (by rw [hopen]; exact Bool.false_ne_true)]
      rfl

/-- An ended connection offers nothing. -/
theorem offers_of_ended {records : Records} {c : Connection σ} (hended : c.isOpen = false)
    (clock : List Int64) : c.offers wire evaluator clock records = [] := by
  cases clock with
  | nil => rfl
  | cons now clock => rw [offers, if_neg (by rw [hended]; exact Bool.false_ne_true)]

/-- The offers of a run are those of its first turns and those of the others. -/
theorem offers_append (clock more : List Int64) (records : Records) (c : Connection σ) :
    c.offers wire evaluator (clock ++ more) records =
      c.offers wire evaluator clock records ++
        (c.serve wire evaluator clock records).connection.offers wire evaluator more
          (c.serve wire evaluator clock records).records := by
  induction clock generalizing records c with
  | nil => rfl
  | cons now clock ih =>
    cases hopen : c.isOpen with
    | true =>
      rw [List.cons_append, offers, offers, if_pos hopen, if_pos hopen, serve_cons_of_open hopen,
        List.append_assoc]
      exact congrArg _ (ih _ _)
    | false =>
      rw [serve_of_ended hopen, offers_of_ended hopen, offers_of_ended hopen, offers_of_ended hopen]
      rfl

/-- **A run offers under one tag only**, that of the registration it ends with. -/
theorem tag_of_mem_offers {clock : List Int64} {records : Records} {c : Connection σ} {o : Offer}
    (ho : o ∈ c.offers wire evaluator clock records) :
    ∃ i version, (c.serve wire evaluator clock records).connection.session =
      .registered i version ∧ o.tag = i.tag := by
  induction clock generalizing records c with
  | nil => cases ho
  | cons now clock ih =>
    cases hopen : c.isOpen with
    | true =>
      rw [offers, if_pos hopen, List.mem_append] at ho
      rw [serve_cons_of_open hopen]
      rcases ho with ho | ho
      · obtain ⟨p, hp, hoffer⟩ := Option.bind_eq_some_iff.mp (Option.mem_toList.mp ho)
        obtain ⟨rpc, rfl⟩ := exists_of_plan? hp
        obtain ⟨i, version, hsession, htag⟩ := Session.tag_of_offer?_plan hoffer
        have hturn := session_turn_of_registered wire evaluator hsession now records
        exact ⟨i, version, session_serve_of_registered hturn clock, htag⟩
      · exact ih ho
    | false =>
      rw [offers, if_neg (by rw [hopen]; exact Bool.false_ne_true)] at ho
      cases ho

end Connection

end FlagSidecar
