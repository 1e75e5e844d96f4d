import FlagSidecar.Proofs.Link.CutOff
import FlagSidecar.Proofs.Service.Trace

/-!
# FlagSidecar.Proofs.Service.Lockstep: answers in lockstep, and what each ending is called

A connection receives a message and sends its answer, and so on, until a last turn; then its sockets are
shut down, and nothing is done any more. What the run has done is what its requests come to when they are
dispatched, and what it has sent are the replies to them. The last contacts decide the outcome: a clean end
of the stream, octets that are no request, a request against the rules of registration and version, or
anything else that goes wrong with the sockets.

All this is read off the rules of a run by induction on it.

Main statement: `Connection.served_in_lockstep`.
-/

namespace FlagSidecar

namespace Runs

variable {evaluator : Evaluator} {records : Records} {clock : List Int64} {p : Progress}
  {contacts : List Contact} {outcome : Option Outcome}

/-! ## Requests and answers -/

/-- Readings of the clock that no request meets are of no use. -/
theorem zip_append_of_length_le {α β : Type} {l : List α} {r : List β} (h : r.length ≤ l.length)
    (more : List α) : (l ++ more).zip r = l.zip r := by
  induction r generalizing l with
  | nil => rw [List.zip_nil_right, List.zip_nil_right]
  | cons b r ih =>
    cases l with
    | nil => cases h
    | cons a l =>
      rw [List.cons_append, List.zip_cons_cons, List.zip_cons_cons, ih (Nat.le_of_succ_le_succ h)]

/-- How far the requests among the contacts have come, and whether there is one for each reading. -/
structure Dispatched (evaluator : Evaluator) (records : Records) (clock : List Int64) (p : Progress)
    (rpcs : List Rpc) (outcome : Option Outcome) : Prop where
  progress_eq : p = Progress.dispatchAll evaluator { records } (clock.zip rpcs)
  length_le : rpcs.length ≤ clock.length
  length_eq : outcome = none → rpcs.length = clock.length

/-- One request more. -/
theorem Dispatched.concat {rpcs : List Rpc} (h : Dispatched evaluator records clock p rpcs none)
    (now : Int64) (rpc : Rpc) (outcome : Option Outcome) :
    Dispatched evaluator records (clock ++ [now]) (p.dispatch evaluator now rpc) (rpcs ++ [rpc])
      outcome := by
  obtain ⟨hprogress, -, hlength⟩ := h
  have heq : (rpcs ++ [rpc]).length = (clock ++ [now]).length := by
    rw [List.length_append, List.length_append, hlength rfl]
    rfl
  refine ⟨?_, Nat.le_of_eq heq, fun _ => heq⟩
  rw [List.zip_append (hlength rfl).symm, Progress.dispatchAll, List.foldl_append]
  exact congrArg (Progress.dispatch evaluator · now rpc) hprogress

/-- A reading without a request, after which the run is over. -/
theorem Dispatched.over {rpcs : List Rpc} (h : Dispatched evaluator records clock p rpcs outcome)
    (now : Int64) (last : Outcome) :
    Dispatched evaluator records (clock ++ [now]) p rpcs (some last) := by
  obtain ⟨hprogress, hle, -⟩ := h
  refine ⟨?_, ?_, fun h => by cases h⟩
  · rw [zip_append_of_length_le hle]
    exact hprogress
  · rw [List.length_append]
    exact Nat.le_add_right_of_le hle

/-- A turn that hears a request, and no other. -/
theorem filterMap_rpc?_heard {octets : Bytes} {rpc : Rpc} (hread : Rpc.read? octets = some rpc)
    (contacts : List Contact) {more : List Contact} (hmore : more.filterMap Contact.rpc? = []) :
    (contacts ++ .received (.ok octets) :: more).filterMap Contact.rpc? =
      contacts.filterMap Contact.rpc? ++ [rpc] := by
  have hheard : (Contact.received (.ok octets)).rpc? = some rpc := hread
  rw [List.filterMap_append, List.filterMap_cons_some hheard, hmore]

/-- A turn that hears none. -/
theorem filterMap_rpc?_unheard (contacts : List Contact) {more : List Contact}
    (hmore : more.filterMap Contact.rpc? = []) :
    (contacts ++ more).filterMap Contact.rpc? = contacts.filterMap Contact.rpc? := by
  rw [List.filterMap_append, hmore, List.append_nil]

/-- **What a run did is what its requests come to**, one for each reading of the clock as long as the
connection is open. -/
theorem dispatched (h : Runs evaluator records clock p contacts outcome) :
    Dispatched evaluator records clock p (contacts.filterMap Contact.rpc?) outcome := by
  induction h with
  | start => exact ⟨rfl, Nat.le_refl 0, fun _ => rfl⟩
  | @answered _ now _ _ _ rpc _ before hread hadmits hreply ih =>
    rw [filterMap_rpc?_heard hread _ rfl]
    exact ih.concat now rpc none
  | @left _ now _ _ before ih =>
    rw [filterMap_rpc?_unheard _ rfl]
    exact ih.over now _
  | @receiveFailed _ now _ _ _ before hclean ih =>
    rw [filterMap_rpc?_unheard _ rfl]
    exact ih.over now _
  | @unreadable _ now _ _ octets before hread ih =>
    have hunheard : [Contact.received (.ok octets), .shutDown].filterMap Contact.rpc? = [] := by
      simp [Contact.rpc?, hread]
    rw [filterMap_rpc?_unheard _ hunheard]
    exact ih.over now _
  | @otherVersion _ now _ _ _ rpc before hread hversion ih =>
    rw [filterMap_rpc?_heard hread _ rfl]
    exact ih.concat now rpc _
  | @outOfOrder _ now _ _ _ rpc before hread horder ih =>
    rw [filterMap_rpc?_heard hread _ rfl]
    exact ih.concat now rpc _
  | @sendFailed _ now _ _ _ rpc _ _ before hread hreply ih =>
    rw [filterMap_rpc?_heard hread _ rfl]
    exact ih.concat now rpc _
  | @ended _ now _ _ outcome before ih => exact ih.over now outcome

/-- **One answer for each request that gets one**, in order, and nothing else is sent. -/
theorem payloads_eq (h : Runs evaluator records clock p contacts outcome) :
    contacts.filterMap Contact.payload? = p.replies.filterMap Reply.octets? := by
  -- a turn that sends what its request is replied with
  have hturn : ∀ {p : Progress} {contacts : List Contact} {more : List Contact} {now : Int64}
      {rpc : Rpc}, contacts.filterMap Contact.payload? = p.replies.filterMap Reply.octets? →
      more.filterMap Contact.payload? = (p.reply evaluator now rpc).octets?.toList →
      (contacts ++ more).filterMap Contact.payload? =
        (p.dispatch evaluator now rpc).replies.filterMap Reply.octets? := by
    intro p contacts more now rpc hbefore hmore
    rw [List.filterMap_append, hbefore, hmore, Progress.dispatch, List.filterMap_append]
    cases hreply : (p.reply evaluator now rpc).octets? <;> simp [hreply]
  induction h with
  | start => rfl
  | answered before hread hadmits hreply ih => exact hturn ih (by rw [hreply]; rfl)
  | left before ih =>
    rw [List.filterMap_append, ih]
    exact List.append_nil _
  | receiveFailed before hclean ih =>
    rw [List.filterMap_append, ih]
    exact List.append_nil _
  | unreadable before hread ih =>
    rw [List.filterMap_append, ih]
    exact List.append_nil _
  | otherVersion before hread hversion ih =>
    exact hturn ih (by rw [Progress.reply_of_otherVersion _ _ hversion]; rfl)
  | outOfOrder before hread horder ih =>
    exact hturn ih (by rw [Progress.reply_of_outOfOrder _ _ horder]; rfl)
  | sendFailed before hread hreply ih => exact hturn ih (by rw [hreply]; rfl)
  | ended before ih => exact ih

/-! ## Turns one after the other -/

/-- A message is received and an answer is sent. -/
def exchange (x : Bytes × Bytes) : List Contact := [.received (.ok x.1), .sent x.2 (.ok ())]

/-- What is done in the last turn of a connection: nothing that is received is answered, or an answer is
the last that is sent; then the sockets are shut down. -/
inductive LastTurn : List Contact → Prop
  | unanswered (received : Except LinkError Bytes) : LastTurn [.received received, .shutDown]
  | answered (message answer : Bytes) (result : Except LinkError Unit) :
    LastTurn [.received (.ok message), .sent answer result, .shutDown]

/-- The contacts of a run: messages and answers in turns, one for each reading, until the last turn. -/
inductive InTurns (clock : List Int64) (contacts : List Contact) : Option Outcome → Prop
  | going (exchanges : List (Bytes × Bytes)) (hlength : exchanges.length = clock.length)
    (hcontacts : contacts = exchanges.flatMap exchange) : InTurns clock contacts none
  | ended (exchanges : List (Bytes × Bytes)) (last : List Contact) (outcome : Outcome)
    (hlength : exchanges.length < clock.length) (hlast : LastTurn last)
    (hcontacts : contacts = exchanges.flatMap exchange ++ last) : InTurns clock contacts (some outcome)

theorem InTurns.last {last : List Contact} (h : InTurns clock contacts none) (hlast : LastTurn last)
    (now : Int64) (outcome : Outcome) :
    InTurns (clock ++ [now]) (contacts ++ last) (some outcome) := by
  obtain ⟨exchanges, hlength, rfl⟩ := h
  refine .ended exchanges last outcome ?_ hlast rfl
  rw [List.length_append, hlength]
  exact Nat.lt_add_one _

/-- **Every run is made in turns.** -/
theorem inTurns (h : Runs evaluator records clock p contacts outcome) :
    InTurns clock contacts outcome := by
  induction h with
  | start => exact .going [] rfl rfl
  | @answered _ now _ _ octets _ payload before hread hadmits hreply ih =>
    obtain ⟨exchanges, hlength, rfl⟩ := ih
    refine .going (exchanges ++ [(octets, payload)]) ?_ ?_
    · rw [List.length_append, List.length_append, hlength]
      rfl
    · rw [List.flatMap_append]
      rfl
  | @left _ now _ _ before ih => exact ih.last (.unanswered _) now _
  | @receiveFailed _ now _ _ _ before hclean ih => exact ih.last (.unanswered _) now _
  | @unreadable _ now _ _ _ before hread ih => exact ih.last (.unanswered _) now _
  | @otherVersion _ now _ _ _ _ before hread hversion ih => exact ih.last (.unanswered _) now _
  | @outOfOrder _ now _ _ _ _ before hread horder ih => exact ih.last (.answered ..) now _
  | @sendFailed _ now _ _ _ _ _ _ before hread hreply ih => exact ih.last (.answered ..) now _
  | @ended _ now _ _ _ before ih =>
    obtain ⟨⟩ | ⟨exchanges, last, outcome, hlength, hlast, hcontacts⟩ := ih
    refine .ended exchanges last _ ?_ hlast hcontacts
    rw [List.length_append]
    exact Nat.lt_add_right 1 hlength

/-! ## What an ending is called -/

/-- The outcome that the last contacts of a connection tell of, the latest first. -/
def verdict : List Contact → Option Outcome
  | .shutDown :: .received (.error e) :: _ =>
    some (if e.isEof then .peerClosed else .transportFailure)
  | .shutDown :: .received (.ok octets) :: _ =>
    some (if (Rpc.read? octets).isSome then .protocolViolation else .malformedMessage)
  | .shutDown :: .sent _ (.ok _) :: _ => some .protocolViolation
  | .shutDown :: .sent _ (.error _) :: _ => some .transportFailure
  | _ => none

/-- **The outcome can be told from the last contacts.** -/
theorem outcome_eq_verdict (h : Runs evaluator records clock p contacts outcome) :
    outcome = verdict contacts.reverse := by
  induction h with
  | start => rfl
  | answered before hread hadmits hreply ih => simp [verdict]
  | left before ih => simp [verdict, LinkError.isEof]
  | receiveFailed before hclean ih => simp [verdict, LinkError.isEof_iff, hclean]
  | unreadable before hread ih => simp [verdict, hread]
  | otherVersion before hread hversion ih => simp [verdict, hread]
  | outOfOrder before hread horder ih => simp [verdict]
  | sendFailed before hread hreply ih => simp [verdict]
  | ended before ih => exact ih

/-- Contacts that end as they do with an outcome tell of it. -/
theorem verdict_of_shows {session : Session} {o : Outcome} (h : o.Shows session contacts) :
    verdict contacts.reverse = some o := by
  cases o with
  | peerClosed =>
    obtain ⟨before, rfl⟩ := h
    simp [verdict, LinkError.isEof]
  | malformedMessage =>
    obtain ⟨octets, hread, before, rfl⟩ := h
    simp [verdict, hread]
  | protocolViolation =>
    obtain ⟨octets, rpc, hread, ⟨-, before, rfl⟩ | ⟨-, before, rfl⟩⟩ := h
    · simp [verdict, hread]
    · simp [verdict]
  | transportFailure =>
    obtain ⟨e, hclean, before, rfl⟩ | ⟨payload, e, before, rfl⟩ := h
    · simp [verdict, LinkError.isEof_iff, hclean]
    · simp [verdict]

/-- The contacts of a run that has ended show how. -/
theorem shows {o : Outcome} (h : Runs evaluator records clock p contacts (some o)) :
    o.Shows p.session contacts := by
  generalize houtcome : some o = outcome at h
  induction h with
  | start => cases houtcome
  | answered before hread hadmits hreply ih => cases houtcome
  | left before ih =>
    cases houtcome
    exact List.suffix_append _ _
  | receiveFailed before hclean ih =>
    cases houtcome
    exact .inl ⟨_, hclean, List.suffix_append _ _⟩
  | unreadable before hread ih =>
    cases houtcome
    exact ⟨_, hread, List.suffix_append _ _⟩
  | otherVersion before hread hversion ih =>
    cases houtcome
    -- a request that ends the connection leaves the session as it is
    rw [Progress.session_dispatch_of_otherVersion hversion]
    exact ⟨_, _, hread, .inl ⟨hversion, List.suffix_append _ _⟩⟩
  | outOfOrder before hread horder ih =>
    cases houtcome
    rw [Progress.session_dispatch_of_outOfOrder horder]
    exact ⟨_, _, hread, .inr ⟨horder, List.suffix_append _ _⟩⟩
  | sendFailed before hread hreply ih =>
    cases houtcome
    exact .inr ⟨_, _, (List.suffix_cons _ _).trans (List.suffix_append _ _)⟩
  | ended before ih => exact ih houtcome

/-- **An outcome is exactly what the last contacts show.** -/
theorem outcome_iff (h : Runs evaluator records clock p contacts outcome) (o : Outcome) :
    outcome = some o ↔ o.Shows p.session contacts := by
  constructor
  · rintro rfl
    exact h.shows
  · intro hshows
    exact h.outcome_eq_verdict.trans (verdict_of_shows hshows)

/-! ## The shutdown -/

theorem shutDown_not_mem_exchanges (exchanges : List (Bytes × Bytes)) :
    Contact.shutDown ∉ exchanges.flatMap exchange := by
  intro h
  obtain ⟨x, -, hx⟩ := List.mem_flatMap.mp h
  simp [exchange] at hx

theorem LastTurn.exists_before {last : List Contact} (h : LastTurn last) :
    ∃ before, .shutDown ∉ before ∧ last = before ++ [.shutDown] := by
  cases h with
  | unanswered received => exact ⟨[.received received], by simp, rfl⟩
  | answered message answer result =>
    exact ⟨[.received (.ok message), .sent answer result], by simp, rfl⟩

/-- The sockets are shut down when the run ends, and at no other time. -/
theorem exists_before_shutDown (h : Runs evaluator records clock p contacts outcome) :
    ∃ before, .shutDown ∉ before ∧
      contacts = before ++ if outcome.isSome then [.shutDown] else [] := by
  obtain ⟨exchanges, -, rfl⟩ | ⟨exchanges, last, o, -, hlast, rfl⟩ := h.inTurns
  · exact ⟨_, shutDown_not_mem_exchanges exchanges, (List.append_nil _).symm⟩
  · obtain ⟨before, hbefore, rfl⟩ := hlast.exists_before
    refine ⟨exchanges.flatMap exchange ++ before, ?_, (List.append_assoc ..).symm⟩
    rw [List.mem_append, not_or]
    exact ⟨shutDown_not_mem_exchanges exchanges, hbefore⟩

end Runs

/-! ## Sockets after the end -/

namespace Connection

variable {σ : Type} {wire : Wire σ} {evaluator : Evaluator}

/-- A connection that is open, or whose sockets are shut down. -/
def OpenOrShut (wire : Wire σ) (c : Connection σ) : Prop :=
  c.outcome = none ∨ ∃ link, c.link = wire.shutdown link

theorem openOrShut_finish (o : Outcome) (c : Connection σ) : (c.finish wire o).OpenOrShut wire :=
  .inr ⟨c.link, rfl⟩

theorem openOrShut_reply {c : Connection σ} (hopen : c.outcome = none) (r : Reply) :
    (c.reply wire r).OpenOrShut wire := by
  cases r with
  | silence => exact openOrShut_finish _ c
  | last response => exact openOrShut_finish _ _
  | next response =>
    unfold reply
    show OpenOrShut wire (if _ then _ else _)
    split
    · exact .inl hopen
    · exact openOrShut_finish _ _

theorem openOrShut_turn {c : Connection σ} (hopen : c.outcome = none) (now : Int64)
    (records : Records) : (c.turn wire evaluator now records).connection.OpenOrShut wire := by
  unfold turn
  generalize wire.receive c.link = reception
  obtain ⟨received, link⟩ := reception
  cases received with
  | error e => exact openOrShut_finish _ _
  | ok octets =>
    simp only [react]
    cases Rpc.read? octets with
    | none => exact openOrShut_finish _ _
    | some rpc => exact openOrShut_reply (c := ⟨link, _, c.outcome⟩) hopen _

/-- **Whatever ends a connection, its sockets are shut down.** -/
theorem openOrShut_serve (wire : Wire σ) (evaluator : Evaluator) {c : Connection σ} (hopen : c.outcome = none) (clock : List Int64)
    (records : Records) : (c.serve wire evaluator clock records).connection.OpenOrShut wire := by
  refine serve_induction (motive := fun _ t => t.connection.OpenOrShut wire) (.inl hopen) ?_ ?_ clock
  · intro clock now hopen ih
    rw [serve_concat_of_open hopen]
    exact openOrShut_turn (Option.isNone_iff_eq_none.mp hopen) now _
  · intro clock now hended ih
    exact ih

end Connection

theorem Terminal.shutsFor_shutdown (t : Terminal) :
    Terminal.wire.ShutsFor (Terminal.wire.shutdown t) :=
  ⟨rfl, fun _ => rfl⟩

theorem Duplex.shutsFor_shutdown (d : Duplex) :
    Duplex.wire.ShutsFor (Duplex.wire.shutdown d) where
  receive_eq := by
    have hremaining : Pipe.remaining d.inbound.inflow = d.inbound.content := by
      unfold Pipe.remaining Pipe.inflow
      by_cases hempty : d.inbound.content.isEmpty = true
      · rw [if_pos hempty, List.isEmpty_iff.mp hempty]
        rfl
      · rw [if_neg hempty, List.flatMap_singleton]
    show (_, ({ d with
      transport := d.transport.shutdown
      inbound := { d.inbound with content := Pipe.remaining d.inbound.inflow }
      outbound := d.outbound.close } : Duplex)) = _
    rw [hremaining]
    rfl
  send_eq payload := by
    show (_, ({ d with
      transport := d.transport.shutdown
      outbound := { d.outbound.close with content := d.outbound.content ++ [] } } : Duplex)) = _
    rw [List.append_nil]
    rfl

/-- What is received is the end of the stream exactly if the sockets are not shut down and the first read of
a message meets it. -/
theorem Terminal.receive_eq_eof_iff (t : Terminal) :
    (Terminal.wire.receive t).1 = .error (.framing .eof) ↔ t.transport.closed = false ∧
      (t.inflow.read (t.transport.framer.firstRoom t.transport.buffer)).1 = .octets [] := by
  rw [← Framer.read_eq_eof_iff]
  show (t.transport.receive t.inflow).1 = _ ↔ _
  unfold Transport.receive
  cases hclosed : t.transport.closed with
  | true => simp
  | false =>
    simp only [Bool.false_eq_true, if_false, true_and]
    generalize t.transport.framer.read t.transport.buffer t.inflow = r
    obtain ⟨outcome, buffer, inflow⟩ := r
    cases outcome <;> simp

/-! ## Listed results -/

namespace Script

open Connection

theorem receives_reply (c : Connection Script) (r : Reply) :
    (c.reply wire r).link.receives = c.link.receives := by
  have hsend : ∀ payload (s : Script), (wire.send payload s).2.receives = s.receives := by
    intro payload s
    cases hsends : s.sends <;> simp [wire, hsends]
  cases r with
  | silence => rfl
  | last response => exact hsend _ c.link
  | next response =>
    unfold Connection.reply
    show (if _ then _ else _ : Connection Script).link.receives = _
    split
    · exact hsend _ c.link
    · exact hsend _ c.link

/-- A turn takes one of the listed results, or ends the connection if there is none. -/
theorem receives_turn (evaluator : Evaluator) (c : Connection Script) (now : Int64)
    (records : Records) :
    let next := (c.turn wire evaluator now records).connection
    next.link.receives = c.link.receives.tail ∧ (c.link.receives = [] → next.isOpen = false) := by
  intro next
  cases hreceives : c.link.receives with
  | nil =>
    have hreceive : wire.receive c.link = (.error (.framing .eof), c.link) := by
      simp only [wire, hreceives]
    have hnext : next = c.finish wire .peerClosed := by
      show (c.turn wire evaluator now records).connection = _
      rw [turn, hreceive]
      rfl
    rw [hnext]
    exact ⟨hreceives, fun _ => rfl⟩
  | cons received rest =>
    have hreceive : wire.receive c.link = (received, { c.link with receives := rest }) := by
      simp only [wire, hreceives]
    refine ⟨?_, fun h => by cases h⟩
    show (c.turn wire evaluator now records).connection.link.receives = rest
    rw [turn, hreceive]
    cases received with
    | error e => rfl
    | ok octets =>
      simp only [react]
      cases Rpc.read? octets with
      | none => rfl
      | some rpc => exact receives_reply _ _

/-- **A run over listed results ends**, at the latest when they are used up. -/
theorem serve_ends (evaluator : Evaluator) {clock : List Int64} (records : Records)
    {c : Connection Script} (hlength : c.link.receives.length < clock.length) :
    (c.serve wire evaluator clock records).connection.isOpen = false := by
  -- on the clock: a turn takes one of the results
  induction clock generalizing records c with
  | nil => cases hlength
  | cons now clock ih =>
    cases hopen : c.isOpen with
    | false =>
      rw [serve_of_ended hopen]
      exact hopen
    | true =>
      rw [serve_cons_of_open hopen]
      obtain ⟨hreceives, hlast⟩ := receives_turn evaluator c now records
      cases hlist : c.link.receives with
      | nil =>
        have hended := hlast hlist
        rw [serve_of_ended hended]
        exact hended
      | cons received rest =>
        apply ih
        rw [hlist] at hlength
        rw [hreceives, hlist]
        exact Nat.lt_of_succ_lt_succ hlength

end Script

/-! ## Serving a connection -/

/-- What serving a connection comes to, as its contacts show. -/
structure Connection.Lockstep {σ : Type} (wire : Wire σ) (evaluator : Evaluator) (clock : List Int64)
    (records : Records) (link : σ) (t : Turn (Traced σ)) : Prop where
  /-- Without the trace this is how the connection is served. -/
  plain_eq : serve wire evaluator clock records { link } = t.plain
  /-- The session, the queues and what the evaluator was asked are those of the requests that were
  received, dispatched one after the other. The sent payloads are the replies to them, in order, where a
  request that ends the connection silently has none. -/
  dispatched : ∃ p : Progress,
    p = Progress.dispatchAll evaluator { records }
      (clock.zip (t.connection.link.contacts.filterMap Contact.rpc?)) ∧
    t.connection.session = p.session ∧ t.records = p.records ∧ t.asked = p.asked ∧
    t.connection.link.contacts.filterMap Contact.payload? = p.replies.filterMap Reply.octets?
  /-- Messages are received and answers are sent in turns, one for each reading of the clock, until the last
  turn. -/
  inTurns : Runs.InTurns clock t.connection.link.contacts t.connection.outcome
  /-- The connection has an outcome exactly if its last contacts show it. -/
  classified : ∀ o : Outcome,
    t.connection.outcome = some o ↔ o.Shows t.connection.session t.connection.link.contacts
  /-- The sockets are shut down once, as the last thing that is done with them. -/
  shutDown : ∃ before, Contact.shutDown ∉ before ∧ t.connection.link.contacts =
    before ++ if t.connection.outcome.isSome then [.shutDown] else []
  /-- So they are left as a shutdown leaves them. -/
  shut : t.connection.outcome.isSome → ∃ s, t.connection.link.link = wire.shutdown s
  /-- Then nothing happens any more: nothing is received, evaluated, queued or sent. -/
  stays : t.connection.outcome.isSome → ∀ more,
    serve wire.traced evaluator (clock ++ more) records { link := { link } } = t

/-- **A connection is served in lockstep**, over any sockets. -/
theorem Connection.lockstep_serve {σ : Type} (wire : Wire σ) (evaluator : Evaluator)
    (clock : List Int64) (records : Records) (link : σ) :
    Lockstep wire evaluator clock records link
      (serve wire.traced evaluator clock records { link := { link } }) := by
  obtain ⟨replies, hruns⟩ := runs_serve wire evaluator clock records link
  have hplain : (serve wire.traced evaluator clock records { link := { link } }).plain =
      serve wire evaluator clock records { link } := plain_serve clock records { link := { link } }
  have hshut := openOrShut_serve wire evaluator (c := { link }) rfl clock records
  have hended : (serve wire.traced evaluator clock records
        { link := { link } }).connection.isOpen = false → ∀ more,
      serve wire.traced evaluator (clock ++ more) records { link := { link } } =
        serve wire.traced evaluator clock records { link := { link } } := serve_append_of_ended
  generalize serve wire.traced evaluator clock records { link := { link } } = t at *
  obtain ⟨hprogress, -, -⟩ := hruns.dispatched
  refine ⟨hplain.symm, ⟨_, hprogress, rfl, rfl, rfl, hruns.payloads_eq⟩, hruns.inTurns,
    hruns.outcome_iff, hruns.exists_before_shutDown, ?_, ?_⟩
  · intro hsome
    rw [← hplain] at hshut
    obtain ⟨-, houtcome⟩ | ⟨s, hs⟩ := hshut.imp_left fun h => And.intro h (h ▸ hsome)
    · cases houtcome
    · exact ⟨s, hs⟩
  · intro hsome
    apply hended
    unfold isOpen
    rw [Option.isNone_eq_false_iff]
    exact hsome

/-- Of a message that the buffer would have room for these octets arrive, and there the stream ends. -/
structure Terminal.CutOff (t : Terminal) (got : Bytes) : Prop where
  framer_eq : t.transport.framer = .lengthPrefixed
  closed_eq : t.transport.closed = false
  arrives : ∃ (pieces : List Bytes) (payload : Bytes), t.inflow = ⟨pieces.map .piece, .eof⟩ ∧
    (∀ p ∈ pieces, p ≠ []) ∧ pieces.flatten = got ∧ got <+: Framer.lengthPrefixed.frame payload ∧
    got.length < (Framer.lengthPrefixed.frame payload).length ∧ payload.length < 2 ^ 32 ∧
    payload.length ≤ t.transport.buffer.capacity

/-- A stream that ends inside a message is a failure that says where, and only before it a clean end. -/
theorem Terminal.CutOff.receive_eq {t : Terminal} {got : Bytes} (h : t.CutOff got) :
    (Terminal.wire.receive t).1 = .error (.framing (.cutOff got.length)) := by
  obtain ⟨hframer, hopen, pieces, payload, hinflow, hne, rfl, hbegins, hshort, hlimit, hcapacity⟩ := h
  obtain ⟨b', -, hread⟩ :=
    Framer.readPrefixed_cutOff (b := t.transport.buffer) .eof hne hbegins hshort hlimit hcapacity
  show (t.transport.receive t.inflow).1 = _
  rw [Transport.receive, if_neg (by rw [hopen]; exact Bool.false_ne_true), hframer, hinflow]
  simp only [Framer.read, hread, Ending.cutOff]

/-- One octet of a length is there. -/
example : (Terminal.wire.receive
      { transport := .new .lengthPrefixed {}, inflow := ⟨[.piece [5]], .eof⟩ }).1 =
    .error (.framing (.insufficientHeader 1)) :=
  Terminal.CutOff.receive_eq ⟨rfl, rfl, [[5]], [0, 0, 0, 0, 0], rfl, by decide, rfl, by decide, by decide,
    by decide, by decide⟩

/-- **A connection is served in lockstep, and every ending is called what it is.** Over any sockets the
contacts, the answers and the effects of a run are those of its requests, and its outcome is what its last
contacts show; over listed results the run ends. Sockets that are shut down neither receive nor send. The
end of a stream is clean exactly if it comes between messages; inside a length or a message it is a
failure of the socket. -/
theorem Connection.served_in_lockstep {σ : Type} (wire : Wire σ) (evaluator : Evaluator)
    (clock : List Int64) (records : Records) (link : σ) (script : Script) (terminal : Terminal)
    (duplex : Duplex) (got : Bytes) :
    Lockstep wire evaluator clock records link
        (serve wire.traced evaluator clock records { link := { link } }) ∧
      (script.receives.length < clock.length →
        (serve Script.wire evaluator clock records { link := script }).connection.isOpen = false) ∧
      Terminal.wire.ShutsFor (Terminal.wire.shutdown terminal) ∧
      Duplex.wire.ShutsFor (Duplex.wire.shutdown duplex) ∧
      ((Terminal.wire.receive terminal).1 = .error (.framing .eof) ↔
        terminal.transport.closed = false ∧ (terminal.inflow.read
          (terminal.transport.framer.firstRoom terminal.transport.buffer)).1 = .octets []) ∧
      (terminal.CutOff got →
        (Terminal.wire.receive terminal).1 = .error (.framing (.cutOff got.length))) := by
  refine ⟨lockstep_serve wire evaluator clock records link, ?_, Terminal.shutsFor_shutdown terminal,
    Duplex.shutsFor_shutdown duplex, Terminal.receive_eq_eof_iff terminal, ?_⟩
  · intro hlength
    exact Script.serve_ends evaluator records hlength
  · intro hcut
    exact hcut.receive_eq

end FlagSidecar
