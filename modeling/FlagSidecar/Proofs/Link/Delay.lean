import FlagSidecar.Link.Delay
import FlagSidecar.Proofs.Link.CutOff
import FlagSidecar.Proofs.Link.Terminal
import FlagSidecar.Proofs.Protocol.Envelope

/-!
# FlagSidecar.Proofs.Link.Delay: calls in lockstep

A message that does not come whole and in time is not received, and a request that cannot be written whole
is not sent: either way the call fails. As long as no call has failed, nothing is underway between two
calls, and the message that a call receives is the answer to its request. One failure is harmless: an answer
that fills the buffer, on a socket that keeps messages apart, is taken as a whole and refused.

Main statements: `Framer.read_take_deliveries`, `Delayed.Settled.called` for one call and
`Delayed.Settled.run_own` for calls one after the other.
-/

namespace FlagSidecar

/-! ## Requests that were sent -/

/-- What one write accepted is written. -/
theorem Outflow.written_of_accepted {octets : Bytes} {f f' : Outflow} {count : Nat}
    (h : f.write octets = (.accepted count, f')) :
    count ≤ octets.length ∧ f'.written = f.written ++ octets.take count := by
  -- of so many octets as may be written, those that there are
  have haccept : ∀ (n : Nat), (octets.take n).length ≤ octets.length ∧
      f.written ++ octets.take n = f.written ++ octets.take (octets.take n).length := by
    intro n
    rw [List.length_take, ← List.take_eq_take_min]
    exact ⟨Nat.min_le_right _ _, rfl⟩
  obtain ⟨acceptances, tail, written, writes, flushes⟩ := f
  cases acceptances with
  | nil =>
    cases tail with
    | unlimited =>
      cases h
      exact haccept _
    | stalled => cases h
  | cons a rest =>
    cases a with
    | failure e => cases h
    | upTo n =>
      cases h
      exact haccept _

namespace Framer

theorem written_of_writeAll {fuel : Nat} {octets : Bytes} {f f' : Outflow} {count : Nat}
    (h : writeAll fuel octets f = (.accepted count, f')) : f'.written = f.written ++ octets := by
  induction fuel generalizing octets f with
  | zero =>
    cases octets with
    | nil =>
      cases h
      exact (List.append_nil _).symm
    | cons b bs => cases h
  | succ fuel ih =>
    cases octets with
    | nil =>
      cases h
      exact (List.append_nil _).symm
    | cons b bs =>
      unfold writeAll at h
      split at h
      next => cases h
      next n f₁ hzero hwrite =>
        obtain ⟨-, hwritten⟩ := Outflow.written_of_accepted hwrite
        rw [ih h, hwritten, List.append_assoc, List.take_append_drop]
      next => cases h
      next => cases h

/-- **A message that was written is on the wire as its frame**, and on a stream its length can be said. -/
theorem written_of_done {framer : Framer} {payload : Bytes} {f f' : Outflow} {count : Nat}
    (h : framer.write payload f = (.done count, f')) :
    f'.written = f.written ++ framer.frame payload ∧
      (framer = .lengthPrefixed → payload.length < 2 ^ 32) := by
  cases framer with
  | null =>
    refine ⟨?_, fun h => by cases h⟩
    cases hwrite : f.write payload with
    | mk outcome f₁ =>
      cases outcome with
      | failed e =>
        simp only [write, hwrite] at h
        cases h
      | stalled =>
        simp only [write, hwrite] at h
        cases h
      | accepted n =>
        obtain ⟨-, hwritten⟩ := Outflow.written_of_accepted hwrite
        simp only [write, hwrite] at h
        by_cases hshort : n < payload.length
        · rw [if_pos hshort] at h
          cases h
        · rw [if_neg hshort] at h
          cases h
          rw [hwritten, List.take_of_length_le (Nat.le_of_not_lt hshort)]
          rfl
  | lengthPrefixed =>
    by_cases hlimit : 2 ^ 32 ≤ payload.length
    · rw [write, if_pos hlimit] at h
      cases h
    · rw [write, if_neg hlimit] at h
      cases hwrite : writeAll (frame .lengthPrefixed payload).length (frame .lengthPrefixed payload) f with
      | mk outcome f₁ =>
        simp only [hwrite] at h
        cases outcome with
        | failed e => cases h
        | stalled => cases h
        | accepted n =>
          cases h
          have hwritten := written_of_writeAll hwrite
          exact ⟨hwritten, fun _ => Nat.lt_of_not_le hlimit⟩

/-- Only what is read is refused for filling the buffer. -/
theorem isRefusal_of_failed {framer : Framer} {payload : Bytes} {f f' : Outflow} {e : FramingError}
    (h : framer.write payload f = (.failed e, f')) : e.isRefusal = false := by
  cases framer with
  | null =>
    cases hwrite : f.write payload with
    | mk outcome f₁ =>
      rw [write] at h
      cases outcome with
      | stalled => rw [hwrite] at h; cases h
      | failed e => rw [hwrite] at h; cases h; rfl
      | accepted n =>
        simp only [hwrite] at h
        by_cases hshort : n < payload.length
        · rw [if_pos hshort] at h
          cases h
          rfl
        · rw [if_neg hshort] at h
          cases h
  | lengthPrefixed =>
    by_cases hlimit : 2 ^ 32 ≤ payload.length
    · rw [write, if_pos hlimit] at h
      cases h
      rfl
    · rw [write, if_neg hlimit] at h
      cases hwrite : writeAll (frame .lengthPrefixed payload).length (frame .lengthPrefixed payload) f with
      | mk outcome f₁ =>
        simp only [hwrite] at h
        cases outcome with
        | stalled => cases h
        | failed e => cases h; rfl
        | accepted n => cases h

end Framer

namespace Terminal

variable {framer : Framer} {capacity : Nat} {t : Terminal} {payload : Bytes}

theorem Waits.not_closed (h : t.Waits framer capacity) : ¬ t.transport.closed = true := by
  rw [h.closed_eq]
  exact Bool.false_ne_true

/-- A request is sent whole, or the call has failed. -/
theorem Waits.send_cases (h : t.Waits framer capacity) (payload : Bytes)
    (hwritten : t.outflow.written = []) :
    (∃ e : LinkError, e.isTransport = true ∧ e.isRefusal = false ∧ (wire.send payload t).1 = .error e) ∨
      ∃ t', wire.send payload t = (.ok (), t') ∧ t'.Waits framer capacity ∧
        t'.outflow.written = framer.frame payload ∧
        (framer = .lengthPrefixed → payload.length < 2 ^ 32) := by
  have hopen := h.not_closed
  obtain ⟨rfl, hcapacity, hclosed, hinflow⟩ := h
  have hwire : wire.send payload t = ((t.transport.send payload t.outflow).1,
    { t with outflow := (t.transport.send payload t.outflow).2 }) := rfl
  rw [hwire, Transport.send, if_neg hopen]
  cases hwrite : t.transport.framer.write payload t.outflow with
  | mk outcome f =>
    cases outcome with
    | failed e => exact .inl ⟨.framing e, rfl, Framer.isRefusal_of_failed hwrite, rfl⟩
    | stalled => exact .inl ⟨_, rfl, rfl, rfl⟩
    | done count =>
      obtain ⟨hframe, hlimit⟩ := Framer.written_of_done hwrite
      rw [hwritten, List.nil_append] at hframe
      exact .inr ⟨{ t with outflow := f }, rfl, ⟨rfl, hcapacity, hclosed, hinflow⟩, hframe, hlimit⟩

end Terminal

/-! ## Answers that arrive in part -/

/-- No message was taken. -/
def FrameOutcome.isLost : FrameOutcome → Bool
  | done _ => false
  | failed e => !e.isRefusal
  | stalled => true

namespace Framer

theorem deliveries_lengthPrefixed (p : Passage) (octets : Bytes) :
    deliveries .lengthPrefixed p octets = (Bytes.cut p.reads octets).map .piece := by
  cases octets with
  | nil => cases p.reads <;> rfl
  | cons b bs => rfl

/-- **A message is read when all of it has arrived, and not before**; then nothing of it is left. That is so
too if it is refused because it fills the buffer. -/
theorem read_take_deliveries (framer : Framer) (p : Passage) (n : Nat) {payload : Bytes} (b : Buffer)
    (hlimit : framer = .lengthPrefixed → payload.length < 2 ^ 32) :
    let deliveries := framer.deliveries p (framer.frame payload)
    let read := framer.read b ⟨deliveries.take n, .stalled⟩
    read.1.isLost = true ∨
      ((∃ octets, read = (.failed (.bufferTooSmall b.capacity), b.overwrite octets, ⟨[], .stalled⟩)) ∨
        read = (.done payload.length, b.overwrite payload, ⟨[], .stalled⟩)) ∧ deliveries.drop n = [] := by
  cases framer with
  | null =>
    intro deliveries
    cases n with
    | zero => exact .inl rfl
    | succ n =>
      cases payload with
      | nil => exact .inl rfl
      | cons byte rest =>
        have htake : deliveries.take (n + 1) = [.datagram (byte :: rest)] :=
          List.take_of_length_le (Nat.le_add_left 1 n)
        rw [htake]
        rcases Nat.lt_or_ge (byte :: rest).length b.capacity with hlt | hge
        · exact .inr ⟨.inr (readDatagram_whole .stalled (List.cons_ne_nil _ _) hlt), List.drop_nil⟩
        · rcases Nat.eq_zero_or_pos b.capacity with hzero | hpos
          · left
            show (readDatagram b _).1.isLost = true
            rw [readDatagram, Inflow.read, hzero]
            rfl
          · exact .inr ⟨.inl ⟨_, readDatagram_oversized .stalled hpos hge⟩, List.drop_nil⟩
  | lengthPrefixed =>
    intro deliveries
    have hlimit := hlimit rfl
    let pieces := Bytes.cut p.reads (frame .lengthPrefixed payload)
    have hdeliveries : deliveries = pieces.map .piece := deliveries_lengthPrefixed p _
    have hne : ∀ q ∈ pieces.take n, q ≠ [] :=
      fun q hq => Bytes.ne_nil_of_mem_cut (List.mem_of_mem_take hq)
    have hflat : (pieces.take n).flatten ++ (pieces.drop n).flatten = frame .lengthPrefixed payload := by
      rw [← List.flatten_append, List.take_append_drop, Bytes.flatten_cut]
    have hbegins : (pieces.take n).flatten <+: frame .lengthPrefixed payload := ⟨_, hflat⟩
    rw [hdeliveries, ← List.map_take, ← List.map_drop]
    show (readPrefixed b ⟨(pieces.take n).map .piece, .stalled⟩).1.isLost = true ∨
      ((∃ octets, readPrefixed b ⟨(pieces.take n).map .piece, .stalled⟩ = _) ∨
        readPrefixed b ⟨(pieces.take n).map .piece, .stalled⟩ = _) ∧ _
    -- the stream stalls in the length, or in the message if there is room for it
    rcases Nat.lt_or_ge (pieces.take n).flatten.length prefixSize with hheader | hheader
    · left
      rw [readPrefixed_cutOff_header b .stalled hne hheader]
      rfl
    · rcases Nat.lt_or_ge b.capacity payload.length with hcapacity | hcapacity
      · left
        obtain ⟨body, hbody⟩ : Bytes.littleEndian prefixSize payload.length <+: (pieces.take n).flatten :=
          List.prefix_of_prefix_length_le ⟨payload, rfl⟩ hbegins (by rw [length_header]; exact hheader)
        obtain ⟨left, -, hread⟩ :=
          readPrefixed_oversized .stalled hne hbody.symm hlimit hcapacity
        rw [hread]
        rfl
      · by_cases hwhole : (pieces.take n).flatten = frame .lengthPrefixed payload
        · right
          have hrest : pieces.drop n = [] := by
            rw [hwhole] at hflat
            exact Bytes.eq_nil_of_flatten_eq_nil
              (fun q hq => Bytes.ne_nil_of_mem_cut (List.mem_of_mem_drop hq))
              (List.append_right_eq_self.mp hflat)
          have hall : (pieces.take n).flatten = frame .lengthPrefixed payload ++ [] :=
            hwhole.trans (List.append_nil _).symm
          obtain ⟨left, hleft, hnil, hread⟩ :=
            readPrefixed_pieces (b := b) .stalled hne hall hlimit hcapacity
          rw [Bytes.eq_nil_of_flatten_eq_nil hleft hnil] at hread
          exact ⟨.inr hread, by rw [hrest]; rfl⟩
        · left
          have hshort : (pieces.take n).flatten.length < (frame .lengthPrefixed payload).length :=
            Nat.lt_of_le_of_ne hbegins.length_le fun h => hwhole (hbegins.eq_of_length h)
          obtain ⟨b', -, hread⟩ :=
            readPrefixed_cutOff (b := b) .stalled hne hbegins hshort hlimit hcapacity
          rw [hread]
          rfl

end Framer

namespace Terminal

variable {framer : Framer} {capacity : Nat} {t : Terminal} {payload : Bytes}

/-- Where nothing arrives the deadline passes, and the end waits again. -/
theorem Waits.receive_nothing (h : t.Waits framer capacity) :
    ∃ e t', e.isTransport = true ∧ e.isRefusal = false ∧ wire.receive t = (.error e, t') ∧
      t'.Waits framer capacity := by
  have hopen := h.not_closed
  obtain ⟨rfl, hcapacity, hclosed, hinflow⟩ := h
  have hread : t.transport.framer.read t.transport.buffer ⟨[], .stalled⟩ =
      (.stalled, t.transport.buffer, ⟨[], .stalled⟩) := by cases t.transport.framer <;> rfl
  have hreceive : t.transport.receive t.inflow =
      (.error (.timeout .receive t.transport.options.readTimeout), t.transport, ⟨[], .stalled⟩) := by
    rw [Transport.receive, if_neg hopen, hinflow, hread]
  refine ⟨.timeout .receive t.transport.options.readTimeout, { t with inflow := ⟨[], .stalled⟩ },
    rfl, rfl, ?_, rfl, hcapacity, hclosed, rfl⟩
  rw [wire]
  simp only [hreceive]

/-- Where nothing has arrived nothing is received, whether more may come or not. -/
theorem Waits.receive_empty (h : t.Waits framer capacity) (ending : Ending) :
    ∃ e : LinkError, e.isTransport = true ∧ e.isRefusal = false ∧
      (wire.receive { t with inflow := ⟨[], ending⟩ }).1 = .error e := by
  cases ending with
  | stalled =>
    obtain ⟨e, t', htransport, hlost, hreceive, -⟩ := h.receive_nothing
    refine ⟨e, htransport, hlost, ?_⟩
    rw [← h.inflow_eq, hreceive]
  | eof =>
    refine ⟨.framing .eof, rfl, rfl, ?_⟩
    have hread : (t.transport.framer.read t.transport.buffer ⟨[], .eof⟩).1 = .failed .eof := by
      cases t.transport.framer <;> rfl
    show (t.transport.receive ⟨[], .eof⟩).1 = _
    rw [Transport.receive, if_neg h.not_closed]
    generalize t.transport.framer.read t.transport.buffer ⟨[], .eof⟩ = r at hread ⊢
    obtain ⟨outcome, buffer, inflow⟩ := r
    cases hread
    rfl

/-- **A message is received when all of it has arrived, and not before.** It may be refused then. -/
theorem Waits.receive_cases (h : t.Waits framer capacity) (p : Passage) (n : Nat)
    (hlimit : framer = .lengthPrefixed → payload.length < 2 ^ 32) :
    let arriving := framer.deliveries p (framer.frame payload)
    let received := wire.receive { t with inflow := ⟨arriving.take n, .stalled⟩ }
    (∃ e : LinkError, e.isTransport = true ∧ e.isRefusal = false ∧ received.1 = .error e) ∨
      (∃ result t', received = (result, t') ∧ t'.Waits framer capacity ∧ arriving.drop n = [] ∧
        ((∃ e : LinkError, e.isTransport = true ∧ result = .error e) ∨ result = .ok payload)) := by
  intro arriving received
  have hopen := h.not_closed
  obtain ⟨rfl, hcapacity, hclosed, hinflow⟩ := h
  have hreceived : received = ((t.transport.receive ⟨arriving.take n, .stalled⟩).1,
      ⟨(t.transport.receive ⟨arriving.take n, .stalled⟩).2.1,
        (t.transport.receive ⟨arriving.take n, .stalled⟩).2.2, t.outflow⟩) := rfl
  rw [hreceived, Transport.receive, if_neg hopen]
  rcases t.transport.framer.read_take_deliveries p n t.transport.buffer hlimit with
    hlost | ⟨⟨octets, hread⟩ | hread, hrest⟩
  · left
    generalize t.transport.framer.read t.transport.buffer _ = r at hlost ⊢
    obtain ⟨outcome, buffer, inflow⟩ := r
    cases outcome with
    | done size => cases hlost
    | failed e => exact ⟨.framing e, rfl, Bool.not_eq_eq_eq_not.mp hlost, rfl⟩
    | stalled => exact ⟨_, rfl, rfl, rfl⟩
  · right
    rw [hread]
    exact ⟨_, _, rfl, ⟨rfl, hcapacity, hclosed, rfl⟩, hrest, .inl ⟨_, rfl, rfl⟩⟩
  · right
    rw [hread]
    refine ⟨_, _, rfl, ⟨rfl, hcapacity, hclosed, rfl⟩, hrest, .inr ?_⟩
    simp only [Buffer.take_overwrite]

/-- A message that travels at once is received, or the connection has failed. -/
theorem Waits.receive_arrive (h : t.Waits framer capacity) (p : Passage)
    (hlimit : framer = .lengthPrefixed → payload.length < 2 ^ 32) :
    (∃ e : LinkError, e.isTransport = true ∧
        (wire.receive (t.arrive p (framer.frame payload))).1 = .error e) ∨
      ∃ t', wire.receive (t.arrive p (framer.frame payload)) = (.ok payload, t') ∧
        t'.Waits framer capacity := by
  have hcases := h.receive_cases p (framer.deliveries p (framer.frame payload)).length hlimit
  have harrive : t.arrive p (framer.frame payload) =
      { t with inflow := ⟨framer.deliveries p (framer.frame payload), .stalled⟩ } := by
    rw [arrive, h.inflow_eq, h.framer_eq]
    rfl
  simp only [List.take_length, ← harrive] at hcases
  obtain ⟨e, htransport, -, herror⟩ | ⟨result, t', hreceived, hwaits, -, hresult⟩ := hcases
  · exact .inl ⟨e, htransport, herror⟩
  · rw [hreceived]
    obtain ⟨e, htransport, rfl⟩ | rfl := hresult
    · exact .inl ⟨e, htransport, rfl⟩
    · exact .inr ⟨t', rfl, hwaits⟩

end Terminal

/-! ## Calls in lockstep -/

theorem Delayed.Lost.broke {result : Except LinkError (Option Payload)} (h : Lost result) : Broke result := by
  obtain ⟨e, htransport, -, hresult⟩ := h
  exact ⟨e, htransport, hresult⟩

/-- An answer that was read, whatever it says, is no failure of the connection. -/
theorem Request.not_broke_answer (r : Request) (octets : Bytes) : ¬ Delayed.Broke (r.answer octets) := by
  rintro ⟨e, htransport, h⟩
  unfold answer at h
  split at h
  · cases h
    cases htransport
  · split at h
    next response hread hok =>
      cases hpayload : r.payload? (response.payload.getD .null) with
      | ok value =>
        rw [hpayload] at h
        cases h
      | error e' =>
        rw [hpayload] at h
        cases h
        cases htransport
    · cases h
      cases htransport

namespace Delayed

/-- Both ends wait and nothing is underway. -/
structure Settled (framer : Framer) (clientCapacity peerCapacity : Nat) (d : Delayed) : Prop where
  client : d.client.Waits framer clientCapacity
  peer : d.peer.Waits framer peerCapacity
  underway_eq : d.underway = []

theorem settled_new (framer : Framer) (clientOptions peerOptions : TransportOptions) :
    Settled framer (max 1 clientOptions.bufferSize) (max 1 peerOptions.bufferSize)
      (new framer clientOptions peerOptions) where
  client := Terminal.waits_new framer clientOptions
  peer := Terminal.waits_new framer peerOptions
  underway_eq := rfl

variable {responder : Responder} {framer : Framer} {clientCapacity peerCapacity : Nat} {d : Delayed}

/-- A request that is received is answered, and the answer is underway. -/
theorem hear_of_received {x : Transit} {octets request : Bytes} {peer : Terminal} (hne : octets ≠ [])
    (hreceive : Terminal.wire.receive (d.peer.arrive x.request octets) = (.ok request, peer))
    (hlimit : (responder d.requests request).length < d.client.transport.framer.limit) :
    d.hear responder x octets =
      { d with
        peer
        requests := d.requests ++ [request]
        underway := d.underway ++ d.client.transport.framer.deliveries x.answer
          (d.client.transport.framer.frame (responder d.requests request))
        answered := some (responder d.requests request) } := by
  rw [hear, if_neg (mt List.isEmpty_iff.mp hne), hreceive]
  exact if_pos hlimit

/-- What becomes of a request that was sent: either nothing comes of it, or its answer is underway. -/
theorem Settled.heard (h : d.Settled framer clientCapacity peerCapacity) (responder : Responder)
    (x : Transit) {payload : Bytes} (hne : payload ≠ [])
    (hlimit : framer = .lengthPrefixed → payload.length < 2 ^ 32) :
    (d.hear responder x (framer.frame payload)).client.Waits framer clientCapacity ∧
      ((d.hear responder x (framer.frame payload)).underway = [] ∨
        ∃ answer, (framer = .lengthPrefixed → answer.length < 2 ^ 32) ∧
          (d.hear responder x (framer.frame payload)).answered = some answer ∧
          (d.hear responder x (framer.frame payload)).peer.Waits framer peerCapacity ∧
          (d.hear responder x (framer.frame payload)).underway =
            framer.deliveries x.answer (framer.frame answer)) := by
  obtain ⟨hclient, hpeer, hunderway⟩ := h
  have hframe := framer.frame_ne_nil hne
  obtain ⟨e, -, hfailed⟩ | ⟨peer, hreceive, hwaits⟩ := hpeer.receive_arrive x.request hlimit
  · rw [hear, if_neg (mt List.isEmpty_iff.mp hframe)]
    generalize Terminal.wire.receive (d.peer.arrive x.request (framer.frame payload)) = r at hfailed ⊢
    obtain ⟨received, peer⟩ := r
    cases hfailed
    exact ⟨hclient, .inl hunderway⟩
  · by_cases hanswer : (responder d.requests payload).length < d.client.transport.framer.limit
    · rw [hear_of_received hframe hreceive hanswer]
      refine ⟨hclient, ?_⟩
      rw [hclient.framer_eq] at hanswer ⊢
      refine .inr ⟨_, ?_, rfl, hwaits, ?_⟩
      · rintro rfl
        exact hanswer
      · rw [hunderway, List.nil_append]
    · have hhear : d.hear responder x (framer.frame payload) =
          { d with
            peer := Terminal.wire.shutdown peer
            requests := d.requests ++ [payload]
            answered := some (responder d.requests payload) } := by
        rw [hear, if_neg (mt List.isEmpty_iff.mp hframe), hreceive]
        exact if_neg hanswer
      rw [hhear]
      exact ⟨hclient, .inl hunderway⟩

/-- A peer that has not given up may still answer. -/
theorem ending_of_waits (h : d.peer.Waits framer peerCapacity) (x : Transit) :
    d.ending x = .stalled := by
  rw [ending, h.closed_eq]
  rfl

theorem sender_waits (h : d.client.Waits framer clientCapacity) (x : Transit) :
    (d.sender x).Waits framer clientCapacity :=
  ⟨h.framer_eq, h.capacity_eq, h.closed_eq, h.inflow_eq⟩

/-- To an end that waits nothing but what is underway arrives. -/
theorem receiver_eq (h : d.client.Waits framer clientCapacity) (x : Transit) :
    d.receiver x = { d.client with inflow := ⟨d.underway.take x.arrivals, d.ending x⟩ } := by
  rw [receiver, h.inflow_eq]
  rfl

theorem call_of_send_error {x : Transit} {r : Request} {e : LinkError}
    (h : (Terminal.wire.send r.toRpc.write (d.sender x)).1 = .error e) :
    ((wire responder x).call r d).1 = .error e := by
  have hsend : ((wire responder x).send r.toRpc.write d).1 = .error e := h
  unfold Wire.call
  generalize (wire responder x).send r.toRpc.write d = sent at hsend
  obtain ⟨result, d'⟩ := sent
  subst hsend
  rfl

/-- Once the request was sent, the call is what is received next. -/
theorem call_of_send_ok {x : Transit} {r : Request} {client client' : Terminal} {heard : Delayed}
    {received : Except LinkError Bytes}
    (hsend : Terminal.wire.send r.toRpc.write (d.sender x) = (.ok (), client))
    (hheard : { d with client }.hear responder x client.outflow.written = heard)
    (hreceive : Terminal.wire.receive (heard.receiver x) = (received, client')) :
    (wire responder x).call r d =
      (received.bind r.answer,
        { heard with client := client', underway := heard.underway.drop x.arrivals }) := by
  have hsend' : (wire responder x).send r.toRpc.write d = (.ok (), heard) := by
    simp only [wire, hsend, hheard]
  have hreceive' : (wire responder x).receive heard =
      (received, { heard with client := client', underway := heard.underway.drop x.arrivals }) := by
    simp only [wire, hreceive]
  unfold Wire.call
  rw [hsend']
  simp only [hreceive']
  cases received <;> rfl

/-- **One call.** Either its answer is lost, or the call fails or returns what the peer's answer to its own
request says, and all is as before. -/
theorem Settled.called (h : d.Settled framer clientCapacity peerCapacity) {x : Transit} {r : Request}
    {result : Except LinkError (Option Payload)} {d' : Delayed}
    (hcall : (wire responder x).call r d = (result, d')) :
    Lost result ∨ d'.Settled framer clientCapacity peerCapacity ∧
      (Broke result ∨ ∃ octets, d'.answered = some octets ∧ result = r.answer octets) := by
  obtain ⟨e, htransport, hlost, hfailed⟩ | ⟨client, hsend, hclient, hwritten, hlimit⟩ :=
    (sender_waits h.client x).send_cases r.toRpc.write rfl
  · have hresult : ((wire responder x).call r d).1 = .error e := call_of_send_error hfailed
    rw [hcall] at hresult
    exact .inl ⟨e, htransport, hlost, hresult⟩
  · have hsettled : Settled framer clientCapacity peerCapacity { d with client } :=
      ⟨hclient, h.peer, h.underway_eq⟩
    obtain ⟨hreceiver, hheard⟩ := hsettled.heard responder x r.toRpc.write_ne_nil hlimit
    generalize hhear : Delayed.hear responder x (framer.frame r.toRpc.write) { d with client } = heard
      at hreceiver hheard
    rw [← hwritten] at hhear
    generalize hreceive : Terminal.wire.receive (heard.receiver x) = received
    obtain ⟨received, client'⟩ := received
    have hcalled := call_of_send_ok hsend hhear hreceive
    rw [hcall] at hcalled
    rw [receiver_eq hreceiver] at hreceive
    obtain hnothing | ⟨answer, hanswer, hanswered, hpeer, hunderway⟩ := hheard
    · left
      rw [hnothing, List.take_nil] at hreceive
      obtain ⟨e, htransport, hlost, hfailed⟩ := hreceiver.receive_empty (heard.ending x)
      rw [hreceive] at hfailed
      cases hfailed
      cases hcalled
      exact ⟨e, htransport, hlost, rfl⟩
    · rw [hunderway, ending_of_waits hpeer] at hreceive
      obtain ⟨e, htransport, hlost, hfailed⟩ | ⟨result', _, htaken, hclient', hrest, hresult⟩ :=
        hreceiver.receive_cases x.answer x.arrivals hanswer
      · left
        rw [hreceive] at hfailed
        cases hfailed
        cases hcalled
        exact ⟨e, htransport, hlost, rfl⟩
      · right
        rw [hreceive] at htaken
        cases htaken
        cases hcalled
        refine ⟨⟨hclient', hpeer, ?_⟩, ?_⟩
        · show heard.underway.drop x.arrivals = []
          rw [hunderway, hrest]
        · obtain ⟨e, htransport, rfl⟩ | rfl := hresult
          · exact .inl ⟨e, htransport, rfl⟩
          · exact .inr ⟨answer, hanswered, rfl⟩

/-- Calls of which the ones before lost no answer. -/
theorem Settled.run_own (h : d.Settled framer clientCapacity peerCapacity)
    {calls : List (Request × Transit)} {k : Nat} {r : Request} {x : Transit}
    (hk : calls[k]? = some (r, x))
    (hintact : ∀ j < k, ∀ result answered,
      (run responder calls d).1[j]? = some (result, answered) → ¬ Lost result) :
    ∃ result answered, (run responder calls d).1[k]? = some (result, answered) ∧
      (Broke result ∨ ∃ octets, answered = some octets ∧ result = r.answer octets) := by
  -- on the calls: one that has lost no answer leaves the connection settled
  induction calls generalizing d k with
  | nil => cases hk
  | cons first calls ih =>
    obtain ⟨r₀, x₀⟩ := first
    cases hcall : (wire responder x₀).call r₀ d with
    | mk result d' =>
      have hrun : (run responder ((r₀, x₀) :: calls) d).1 =
          (result, d'.answered) :: (run responder calls d').1 := by
        simp only [run, hcall]
      rw [hrun] at hintact ⊢
      have hcalled := h.called hcall
      cases k with
      | zero =>
        cases hk
        refine ⟨result, d'.answered, rfl, ?_⟩
        obtain hlost | ⟨-, hresult⟩ := hcalled
        · exact .inl hlost.broke
        · exact hresult
      | succ k =>
        obtain hlost | ⟨hsettled, -⟩ := hcalled
        · exact absurd hlost (hintact 0 (Nat.succ_pos k) _ _ rfl)
        · exact ih hsettled hk fun j hj result answered hresult =>
            hintact (j + 1) (Nat.succ_lt_succ hj) result answered hresult

end Delayed

end FlagSidecar
