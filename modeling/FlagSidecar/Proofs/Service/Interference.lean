import FlagSidecar.Flag.RuleSet
import FlagSidecar.Proofs.Queue.History
import FlagSidecar.Proofs.Service.Run
import FlagSidecar.Service.Dispatcher
import Mathlib.Data.List.Forall2

/-!
# FlagSidecar.Proofs.Service.Interference: connections do not interfere

Connections that are served by one dispatcher share its queues, and nothing that is in the queues gets
back to them but one bit: whether a reported event was queued. So a connection is answered what it would
be answered alone, over new queues, that bit apart; it ends in the same way, and it offers the same
records. What is accepted under a tag is some of what the connections of that tag offer, merged so that
each connection's records keep their order.

Main statement: `Dispatcher.connections_do_not_interfere`.
-/

namespace FlagSidecar

/-! ## Runs that differ in what is queued -/

/-- Two answers are the same, or both answer a report and differ in whether it was queued. -/
inductive SameAnswer : Bytes → Bytes → Prop
  | same (octets : Bytes) : SameAnswer octets octets
  | report (queued queued' : Bool) :
    SameAnswer ((Response.ok (some (.track queued))).write Payload.toCbor)
      ((Response.ok (some (.track queued'))).write Payload.toCbor)

/-- Two replies are the same, or both answer a report. -/
inductive Reply.Like : Reply → Reply → Prop
  | same (r : Reply) : Like r r
  | report (queued queued' : Bool) :
    Like (.next (.ok (some (.track queued)))) (.next (.ok (some (.track queued'))))

/-- **Queues decide about reports only.** -/
theorem Records.perform_like (r r' : Records) (a : Action) :
    (r.perform a).1.Like (r'.perform a).1 := by
  cases a with
  | track tag event => exact .report _ _
  | _ => exact .same _

/-- **Two connections are alike** if they differ in how reports were answered, and in nothing else. -/
structure Connection.Alike (c c' : Connection Script) : Prop where
  receives : c.link.receives = c'.link.receives
  sends : c.link.sends = c'.link.sends
  answers : List.Forall₂ SameAnswer c.link.sent c'.link.sent
  shutdowns : c.link.shutdowns = c'.link.shutdowns
  session : c.session = c'.session
  outcome : c.outcome = c'.outcome

namespace Connection.Alike

variable {c c' : Connection Script}

theorem refl (c : Connection Script) : c.Alike c :=
  ⟨rfl, rfl, List.forall₂_same.mpr fun octets _ => .same octets, rfl, rfl, rfl⟩

theorem finish (h : c.Alike c') (outcome : Outcome) :
    (c.finish Script.wire outcome).Alike (c'.finish Script.wire outcome) :=
  ⟨h.receives, h.sends, h.answers, congrArg (· + 1) h.shutdowns, h.session, rfl⟩

/-- Both receive the same. -/
theorem receive (h : c.Alike c') :
    ∃ received link link', Script.wire.receive c.link = (received, link) ∧
      Script.wire.receive c'.link = (received, link') ∧
      Alike { c with link := link } { c' with link := link' } := by
  obtain ⟨⟨receives, sends, sent, shutdowns⟩, session, outcome⟩ := c
  obtain ⟨⟨receives', sends', sent', shutdowns'⟩, session', outcome'⟩ := c'
  obtain ⟨rfl, rfl, hanswers, rfl, rfl, rfl⟩ := h
  cases receives with
  | nil => exact ⟨_, _, _, rfl, rfl, rfl, rfl, hanswers, rfl, rfl, rfl⟩
  | cons received rest => exact ⟨_, _, _, rfl, rfl, rfl, rfl, hanswers, rfl, rfl, rfl⟩

/-- Sending comes to the same, whatever is sent. -/
theorem send (h : c.Alike c') {response response' : Response Payload}
    (hanswer : SameAnswer (response.write Payload.toCbor) (response'.write Payload.toCbor)) :
    ∃ result d d', c.send Script.wire response = (result, d) ∧
      c'.send Script.wire response' = (result, d') ∧ d.Alike d' := by
  obtain ⟨⟨receives, sends, sent, shutdowns⟩, session, outcome⟩ := c
  obtain ⟨⟨receives', sends', sent', shutdowns'⟩, session', outcome'⟩ := c'
  obtain ⟨rfl, rfl, hanswers, rfl, rfl, rfl⟩ := h
  have hsent := List.rel_append hanswers (.cons hanswer .nil)
  cases sends with
  | nil => exact ⟨_, _, _, rfl, rfl, rfl, rfl, hsent, rfl, rfl, rfl⟩
  | cons result rest => exact ⟨_, _, _, rfl, rfl, rfl, rfl, hsent, rfl, rfl, rfl⟩

theorem reply_next (h : c.Alike c') {response response' : Response Payload}
    (hanswer : SameAnswer (response.write Payload.toCbor) (response'.write Payload.toCbor)) :
    (c.reply Script.wire (.next response)).Alike (c'.reply Script.wire (.next response')) := by
  obtain ⟨result, d, d', hsend, hsend', hsent⟩ := h.send hanswer
  rw [Connection.reply, Connection.reply, hsend, hsend']
  show Alike (if _ then d else _) (if _ then d' else _)
  split
  · exact hsent
  · exact hsent.finish .transportFailure

theorem reply (h : c.Alike c') {r r' : Reply} (hreply : r.Like r') :
    (c.reply Script.wire r).Alike (c'.reply Script.wire r') := by
  cases hreply with
  | report queued queued' => exact h.reply_next (.report queued queued')
  | same r =>
    cases r with
    | silence => exact h.finish .protocolViolation
    | next response => exact h.reply_next (.same _)
    | last response =>
      obtain ⟨result, d, d', hsend, hsend', hsent⟩ :=
        h.send (.same (response.write Payload.toCbor))
      rw [Connection.reply, Connection.reply, hsend, hsend']
      exact hsent.finish _

variable {evaluator : Evaluator} {now : Int64}

/-- What a connection offers depends on its session and on what it receives. -/
theorem offer?_eq (h : c.Alike c') :
    c.offer? Script.wire evaluator now = c'.offer? Script.wire evaluator now := by
  obtain ⟨received, link, link', hreceive, hreceive', -⟩ := h.receive
  unfold offer? plan? heard?
  rw [hreceive, hreceive', h.session]

/-- **Connections that are alike are alike after a turn**, whatever is queued before it. -/
theorem turn (h : c.Alike c') (records records' : Records) :
    (c.turn Script.wire evaluator now records).connection.Alike
      (c'.turn Script.wire evaluator now records').connection := by
  obtain ⟨received, link, link', hreceive, hreceive', hrest⟩ := h.receive
  rw [Connection.turn, Connection.turn, hreceive, hreceive']
  cases received with
  | error e => exact hrest.finish _
  | ok octets =>
    simp only [react]
    cases Rpc.read? octets with
    | none => exact hrest.finish .malformedMessage
    | some rpc =>
      -- the plan is the same, so only what comes of its action may differ
      show Alike (Connection.reply _ _ _) (Connection.reply _ _ _)
      rw [h.session]
      refine Alike.reply ?_ (Records.perform_like records records' _)
      exact ⟨hrest.receives, hrest.sends, hrest.answers, hrest.shutdowns, rfl, hrest.outcome⟩

/-- One reading of the clock: a turn, if the connection is open. -/
theorem serve (h : c.Alike c') (evaluator : Evaluator) (now : Int64) (records records' : Records) :
    (c.serve Script.wire evaluator [now] records).connection.Alike
        (c'.serve Script.wire evaluator [now] records').connection ∧
      c.offers Script.wire evaluator [now] records =
        c'.offers Script.wire evaluator [now] records' := by
  have hopen : c.isOpen = c'.isOpen := congrArg Option.isNone h.outcome
  unfold Connection.serve Connection.offers
  rw [hopen, h.offer?_eq]
  split
  · exact ⟨h.turn records records', rfl⟩
  · exact ⟨h, rfl⟩

end Connection.Alike

/-! ## Runs of a dispatcher -/

/-- What happens to the queues of a dispatcher. -/
inductive Deed (ι : Type) where
  /-- A connection offers this. -/
  | offered (id : ι) (offer : Offer)
  | drained (kind : RecordKind)

namespace Deed

variable {ι : Type} [DecidableEq ι]

/-- What is offered, if it is this connection that offers it. -/
def offerOf? (id : ι) : Deed ι → Option Offer
  | offered other o => if other = id then some o else none
  | drained _ => none

end Deed

namespace Dispatcher

section

variable {ι σ : Type} [DecidableEq ι] (wire : Wire σ) (evaluator : Evaluator)

/-- What a step does to the queues. -/
def deedsOf (d : Dispatcher ι σ) : Step ι → List (Deed ι)
  | .turn id now =>
    ((d.connections id).offers wire evaluator [now] d.records).map (.offered id)
  | .drain kind => [.drained kind]

/-- What several steps do to the queues, in order. -/
def deeds : List (Step ι) → Dispatcher ι σ → List (Deed ι)
  | [], _ => []
  | s :: steps, d => d.deedsOf wire evaluator s ++ deeds steps (d.step wire evaluator s)

variable {wire evaluator}

theorem connections_turn (d : Dispatcher ι σ) (id : ι) (now : Int64) :
    (d.step wire evaluator (.turn id now)).connections id =
      ((d.connections id).serve wire evaluator [now] d.records).connection :=
  if_pos rfl

theorem connections_turn_of_ne (d : Dispatcher ι σ) {id other : ι} (hne : other ≠ id) (now : Int64) :
    (d.step wire evaluator (.turn other now)).connections id = d.connections id :=
  if_neg (Ne.symm hne)

/-- The offers of one connection are found again among the deeds. -/
theorem filterMap_offerOf?_map (offers : List Offer) (id : ι) :
    (offers.map (Deed.offered id)).filterMap (Deed.offerOf? id) = offers := by
  rw [List.filterMap_map]
  have hsome : Deed.offerOf? id ∘ Deed.offered id = some := by
    funext o
    exact if_pos rfl
  rw [hsome, List.filterMap_some]

theorem filterMap_offerOf?_map_of_ne (offers : List Offer) {id other : ι} (hne : other ≠ id) :
    (offers.map (Deed.offered other)).filterMap (Deed.offerOf? id) = [] := by
  rw [List.filterMap_map, List.filterMap_eq_nil_iff]
  intro o _
  exact if_neg hne

end

variable {ι : Type} [DecidableEq ι] {evaluator : Evaluator}

/-- **A connection does among others what it does alone.** The induction is on the steps; the connection
that runs alone is taken on by a turn whenever the other is. -/
theorem alone (steps : List (Step ι)) (d : Dispatcher ι Script) (id : ι) (c : Connection Script)
    (halike : (d.connections id).Alike c) (records : Records) :
    ((run Script.wire evaluator steps d).connections id).Alike
        (c.serve Script.wire evaluator (readings id steps) records).connection ∧
      (deeds Script.wire evaluator steps d).filterMap (Deed.offerOf? id) =
        c.offers Script.wire evaluator (readings id steps) records := by
  induction steps generalizing d c records with
  | nil => exact ⟨halike, rfl⟩
  | cons s steps ih =>
    unfold run deeds deedsOf
    cases s with
    | drain kind => exact ih (d.step Script.wire evaluator (.drain kind)) c halike records
    | turn other now =>
      rw [List.filterMap_append]
      by_cases hid : other = id
      · subst hid
        -- both have the turn, over different queues
        obtain ⟨hserve, hoffers⟩ := halike.serve evaluator now d.records records
        rw [← d.connections_turn] at hserve
        obtain ⟨hrest, hdeeds⟩ := ih _ _ hserve _
        rw [filterMap_offerOf?_map, hdeeds, hoffers, readings, if_pos rfl, ← List.singleton_append,
          Connection.serve_append, Connection.offers_append]
        exact ⟨hrest, rfl⟩
      · rw [filterMap_offerOf?_map_of_ne _ hid, readings, if_neg hid]
        rw [← d.connections_turn_of_ne hid] at halike
        exact ih _ c halike records

end Dispatcher

/-! ## What is accepted -/

/-- One kind of record: in which offers it comes, and where it is queued. -/
structure RecordSide (α : Type) where
  kind : RecordKind
  batch? : Offer → Option (ClientTag × List α)
  queues : Records → FanIn ClientTag α
  tag_eq : ∀ {o tag batch}, batch? o = some (tag, batch) → o.tag = tag
  queues_offer : ∀ r o, queues (r.offer o) =
    (batch? o).elim (queues r) fun b => ((queues r).push b.1 b.2).2
  queues_drain : ∀ r k, queues (r.drain k) = if k = kind then (queues r).drainAll.2 else queues r

namespace RecordSide

def impressions : RecordSide Impression where
  kind := .impressions
  batch?
    | .impressions tag batch => some (tag, batch)
    | .event _ _ => none
  queues := Records.impressions
  tag_eq := by
    intro o tag batch h
    cases o <;> cases h
    rfl
  queues_offer := by
    intro r o
    cases o <;> rfl
  queues_drain := by
    intro r k
    cases k <;> rfl

def events : RecordSide Event where
  kind := .events
  batch?
    | .impressions _ _ => none
    | .event tag event => some (tag, [event])
  queues := Records.events
  tag_eq := by
    intro o tag batch h
    cases o <;> cases h
    rfl
  queues_offer := by
    intro r o
    cases o <;> rfl
  queues_drain := by
    intro r k
    cases k <;> rfl

variable {α ι : Type} (side : RecordSide α)

/-- What an offer is to the queues. -/
def pushes (o : Offer) : List (FanIn.Step ClientTag α) :=
  (side.batch? o).elim [] fun b => [.push b.1 b.2]

/-- What a deed is to the queues. -/
def steps : Deed ι → List (FanIn.Step ClientTag α)
  | .offered _ o => side.pushes o
  | .drained kind => if kind = side.kind then [.drain] else []

/-- The records that are offered under a tag. -/
def items (tag : ClientTag) (o : Offer) : List α :=
  (side.batch? o).elim [] fun b => if b.1 = tag then b.2 else []

/-- The records that are offered under a tag, each with the connection that offers it. -/
def signed (tag : ClientTag) : Deed ι → List (ι × α)
  | .offered id o => (side.items tag o).map fun item => (id, item)
  | .drained _ => []

/-- **A merge of what connections offer under a tag**: it has the records of each connection in their
order, and only of connections that are registered under the tag. What is accepted is some of it, in
its order. -/
structure Merge [DecidableEq ι] (tag : ClientTag) (offers : ι → List Offer) (sessions : ι → Session)
    (accepted : List α) (merge : List (ι × α)) : Prop where
  of_each : ∀ id, (merge.filter (·.1 = id)).map (·.2) = (offers id).flatMap (side.items tag)
  registered : ∀ p ∈ merge, ∃ i version, sessions p.1 = .registered i version ∧ i.tag = tag
  accepted : accepted.Sublist (merge.map (·.2))

variable {side}

theorem tag_of_mem_items {tag : ClientTag} {o : Offer} {item : α} (h : item ∈ side.items tag o) :
    o.tag = tag := by
  unfold items at h
  cases hbatch : side.batch? o with
  | none =>
    rw [hbatch] at h
    cases h
  | some b =>
    obtain ⟨t, batch⟩ := b
    rw [hbatch] at h
    replace h : item ∈ if t = tag then batch else [] := h
    split at h
    next ht => exact (side.tag_eq hbatch).trans ht
    next => cases h

/-- The queues are offered under a tag what is signed there. -/
theorem flatMap_offered_steps (tag : ClientTag) (deed : Deed ι) :
    (side.steps deed).flatMap (FanIn.Step.offered tag) = (side.signed tag deed).map (·.2) := by
  cases deed with
  | drained kind =>
    show List.flatMap _ (if kind = side.kind then [FanIn.Step.drain] else []) = []
    split <;> rfl
  | offered id o =>
    have hitems : (side.pushes o).flatMap (FanIn.Step.offered tag) = side.items tag o := by
      unfold pushes items
      cases side.batch? o with
      | none => rfl
      | some b => exact List.append_nil _
    show (side.pushes o).flatMap _ = ((side.items tag o).map _).map _
    rw [hitems, List.map_map]
    exact (List.map_id _).symm

/-- What is signed by a connection is what it offers. -/
theorem filter_signed [DecidableEq ι] (tag : ClientTag) (id : ι) (deed : Deed ι) :
    ((side.signed tag deed).filter (·.1 = id)).map (·.2) =
      (deed.offerOf? id).toList.flatMap (side.items tag) := by
  cases deed with
  | drained kind => rfl
  | offered other o =>
    show (((side.items tag o).map _).filter _).map _ =
      (if other = id then some o else none : Option Offer).toList.flatMap _
    rw [List.filter_map, List.map_map]
    by_cases hid : other = id
    · rw [if_pos hid]
      simp [Function.comp_def, hid]
    · rw [if_neg hid]
      simp [Function.comp_def, hid]

theorem filter_flatMap_signed [DecidableEq ι] (tag : ClientTag) (id : ι) (deeds : List (Deed ι)) :
    ((deeds.flatMap (side.signed tag)).filter (·.1 = id)).map (·.2) =
      (deeds.filterMap (Deed.offerOf? id)).flatMap (side.items tag) := by
  induction deeds with
  | nil => rfl
  | cons deed rest ih =>
    rw [List.flatMap_cons, List.filter_append, List.map_append, filter_signed, ih,
      List.filterMap_cons]
    cases deed.offerOf? id with
    | none => rfl
    | some o => simp

/-- Offers change the queues by what they are to them. -/
theorem queues_foldl_offer (id : ι) (offers : List Offer) (r : Records) :
    side.queues (offers.foldl Records.offer r) =
      (FanIn.run ((offers.map (Deed.offered id)).flatMap side.steps) (side.queues r)).2 := by
  induction offers generalizing r with
  | nil => rfl
  | cons o rest ih =>
    have hoffer : (FanIn.run (side.pushes o) (side.queues r)).2 = side.queues (r.offer o) := by
      rw [side.queues_offer]
      unfold pushes
      cases side.batch? o with
      | none => rfl
      | some b => rfl
    rw [List.foldl_cons, ih, List.map_cons, List.flatMap_cons, FanIn.run_append, ← hoffer]
    rfl

end RecordSide

namespace Dispatcher

variable {ι α : Type} [DecidableEq ι]

/-- The history of the queues for one kind of record. -/
def history {σ : Type} (side : RecordSide α) (wire : Wire σ) (evaluator : Evaluator)
    (steps : List (Step ι)) (d : Dispatcher ι σ) :
    FanIn.History ClientTag α × FanIn ClientTag α :=
  FanIn.run ((deeds wire evaluator steps d).flatMap side.steps) (side.queues d.records)

/-- **The queues are changed by what the connections offer** and by detachments, in order. -/
theorem snd_history {σ : Type} (side : RecordSide α) (wire : Wire σ) (evaluator : Evaluator)
    (steps : List (Step ι)) (d : Dispatcher ι σ) :
    (history side wire evaluator steps d).2 = side.queues (run wire evaluator steps d).records := by
  unfold history
  induction steps generalizing d with
  | nil => rfl
  | cons s steps ih =>
    have hstep : (FanIn.run ((d.deedsOf wire evaluator s).flatMap side.steps)
        (side.queues d.records)).2 = side.queues (d.step wire evaluator s).records := by
      cases s with
      | turn id now =>
        show _ = side.queues ((d.connections id).serve wire evaluator [now] d.records).records
        rw [Connection.records_serve, RecordSide.queues_foldl_offer id]
        rfl
      | drain kind =>
        show _ = side.queues (d.records.drain kind)
        rw [side.queues_drain]
        show (FanIn.run ((if kind = side.kind then [FanIn.Step.drain] else []) ++ []) _).2 = _
        split <;> rfl
    rw [deeds, List.flatMap_append, FanIn.run_append, hstep]
    exact ih _

/-- The records that are offered under a tag, in the order of their offers, are a merge of what the
connections offer. -/
theorem merge_signed {evaluator : Evaluator} {d : Dispatcher ι Script} {steps : List (Step ι)}
    {records : Records} (side : RecordSide α) (tag : ClientTag) :
    side.Merge tag
      (fun id => (d.connections id).offers Script.wire evaluator (readings id steps) records)
      (fun id => ((run Script.wire evaluator steps d).connections id).session)
      ((history side Script.wire evaluator steps d).1.accepted tag)
      ((deeds Script.wire evaluator steps d).flatMap (side.signed tag)) := by
  have hoffers : ∀ id, (deeds Script.wire evaluator steps d).filterMap (Deed.offerOf? id) =
      (d.connections id).offers Script.wire evaluator (readings id steps) records :=
    fun id => (alone steps d id _ (.refl _) records).2
  refine ⟨?_, ?_, ?_⟩
  · intro id
    rw [side.filter_flatMap_signed, hoffers]
  · rintro ⟨id, item⟩ hp
    -- the record is in an offer of the connection, whose tag is that of its registration
    have hitem : item ∈ ((deeds Script.wire evaluator steps d).filterMap
        (Deed.offerOf? id)).flatMap (side.items tag) := by
      rw [← side.filter_flatMap_signed]
      exact List.mem_map.mpr ⟨(id, item), List.mem_filter.mpr ⟨hp, decide_eq_true rfl⟩, rfl⟩
    rw [hoffers] at hitem
    obtain ⟨o, ho, hitem⟩ := List.mem_flatMap.mp hitem
    obtain ⟨i, version, hsession, htag⟩ := Connection.tag_of_mem_offers ho
    refine ⟨i, version, ?_, ?_⟩
    · rw [(alone steps d id _ (.refl _) records).1.session]
      exact hsession
    · rw [← htag]
      exact side.tag_of_mem_items hitem
  · have hsigned : ∀ deeds : List (Deed ι), (deeds.flatMap side.steps).flatMap
        (FanIn.Step.offered tag) = (deeds.flatMap (side.signed tag)).map (·.2) := by
      intro deeds
      rw [List.flatMap_assoc, List.map_flatMap]
      exact List.flatMap_congr fun deed _ => side.flatMap_offered_steps tag deed
    rw [← hsigned]
    exact FanIn.accepted_sublist _ _ tag

/-- **Connections do not interfere.** Whatever the queues hold at first, however the turns of the
connections and the detachments follow each other: each connection is alike to itself alone over new
queues, and offers the same; and what is accepted under a tag is some of a merge of what the connections
registered under the tag offer alone. -/
theorem connections_do_not_interfere (evaluator : Evaluator) (d : Dispatcher ι Script)
    (steps : List (Step ι)) (impressionsSize eventsSize : UInt64) :
    let after := run Script.wire evaluator steps d
    let alone := fun id => (d.connections id).serve Script.wire evaluator (readings id steps)
      (.new impressionsSize eventsSize)
    let offers := fun id => (d.connections id).offers Script.wire evaluator (readings id steps)
      (.new impressionsSize eventsSize)
    let sessions := fun id => (after.connections id).session
    let impressions := history .impressions Script.wire evaluator steps d
    let events := history .events Script.wire evaluator steps d
    (∀ id, (after.connections id).Alike (alone id).connection ∧
      (deeds Script.wire evaluator steps d).filterMap (Deed.offerOf? id) = offers id) ∧
    impressions.2 = after.records.impressions ∧ events.2 = after.records.events ∧
    ∀ tag,
      (∃ merge, RecordSide.impressions.Merge tag offers sessions (impressions.1.accepted tag) merge) ∧
      ∃ merge, RecordSide.events.Merge tag offers sessions (events.1.accepted tag) merge := by
  intro after alone offers sessions impressions events
  refine ⟨?_, ?_, ?_, ?_⟩
  · intro id
    exact Dispatcher.alone steps d id _ (.refl _) _
  · exact snd_history .impressions Script.wire evaluator steps d
  · exact snd_history .events Script.wire evaluator steps d
  · intro tag
    exact ⟨⟨_, merge_signed .impressions tag⟩, ⟨_, merge_signed .events tag⟩⟩

/-- What gets back: two connections of one tag report an event each, and the queue has room for one. -/
example :
    let report : Request := .track ⟨"user", "visitor", "click", none, none, 0⟩
    let c : Connection Script :=
      { link := ⟨[.ok report.toRpc.write], [], [], 0⟩
        session := .registered ⟨"shop", "sdk-1", ⟨0⟩⟩ protocolVersion }
    let d : Dispatcher Bool Script := ⟨fun _ => c, .new 1 1⟩
    let after := run Script.wire RuleSet.empty.evaluator [.turn true 7, .turn false 7] d
    (after.connections true).link.sent =
        [(Response.ok (some (.track true))).write Payload.toCbor] ∧
      (after.connections false).link.sent =
        [(Response.ok (some (.track false))).write Payload.toCbor] := by
  decide

end Dispatcher

end FlagSidecar
