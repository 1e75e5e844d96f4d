import FlagSidecar.Proofs.Link.Delay
import FlagSidecar.Proofs.Protocol.Agreement

/-!
# FlagSidecar.Proofs.Link.Lag: whose answer a call returns

Until a call has failed without even taking an answer to refuse it, each call returns the answer to its own
request (`Delayed.own_answer`). That is enough and not necessary: where nothing of a request was written, say,
nothing comes of that failure either. But a call that gave up because its answer was late leaves the connection in use and the
answer underway. From then on each call returns the answer of an earlier one: after so many calls that gave
up, the answers lag behind by so many calls (`Delayed.lag`). So it is no law that calls return their own
answers (`Delayed.not_always_ownAnswers`).
-/

namespace FlagSidecar

namespace Responder

variable {responder : Responder}

theorem length_answers (responder : Responder) (earlier : List Bytes) (requests : List Request) :
    (responder.answers earlier requests).length = requests.length := by
  induction requests generalizing earlier with
  | nil => rfl
  | cons r requests ih => exact congrArg (· + 1) (ih _)

theorem answers_append (earlier : List Bytes) (first second : List Request) :
    responder.answers earlier (first ++ second) =
      responder.answers earlier first ++
        responder.answers (earlier ++ first.map fun r => r.toRpc.write) second := by
  induction first generalizing earlier with
  | nil => rw [List.map_nil, List.append_nil]; rfl
  | cons r first ih =>
    rw [List.cons_append, answers, ih, answers, List.cons_append, List.map_cons, List.append_assoc]
    rfl

end Responder

/-- A message that travels in one piece. -/
def Framer.whole (framer : Framer) (payload : Bytes) : Delivery :=
  match framer with
  | null => .datagram payload
  | lengthPrefixed => .piece (frame .lengthPrefixed payload)

theorem Framer.deliveries_whole (framer : Framer) {payload : Bytes} (hne : payload ≠ []) :
    framer.deliveries {} (framer.frame payload) = [framer.whole payload] := by
  cases framer with
  | null =>
    obtain ⟨b, bs, rfl⟩ := List.exists_cons_of_ne_nil hne
    rfl
  | lengthPrefixed => rfl

namespace Delayed

/-- An answer that the client has room for, and that is anything at all. -/
structure Readable (framer : Framer) (capacity : Nat) (answer : Bytes) : Prop where
  ne_nil : answer ≠ []
  fits : framer.Fits capacity answer

instance (framer : Framer) (capacity : Nat) (answer : Bytes) :
    Decidable (Readable framer capacity answer) :=
  decidable_of_iff (answer ≠ [] ∧ framer.Fits capacity answer)
    ⟨fun h => ⟨h.1, h.2⟩, fun h => ⟨h.ne_nil, h.fits⟩⟩

/-- **The answers lag behind**: both ends wait, and these answers are underway, each in one piece. -/
structure Behind (framer : Framer) (clientCapacity peerCapacity : Nat) (pending : List Bytes)
    (d : Delayed) : Prop where
  client : d.client.Waits framer clientCapacity
  peer : d.peer.Waits framer peerCapacity
  underway_eq : d.underway = pending.map framer.whole
  readable : ∀ answer ∈ pending, Readable framer clientCapacity answer

/-- The peer has received this request since, and answered it. -/
structure Heard (responder : Responder) (r : Request) (d d' : Delayed) : Prop where
  requests_eq : d'.requests = d.requests ++ [r.toRpc.write]
  answered_eq : d'.answered = some (responder d.requests r.toRpc.write)

variable {responder : Responder} {framer : Framer} {clientCapacity peerCapacity : Nat} {d : Delayed}
  {pending : List Bytes} {r : Request}

theorem behind_new (framer : Framer) (clientOptions peerOptions : TransportOptions) :
    Behind framer (max 1 clientOptions.bufferSize) (max 1 peerOptions.bufferSize) []
      (new framer clientOptions peerOptions) where
  client := Terminal.waits_new framer clientOptions
  peer := Terminal.waits_new framer peerOptions
  underway_eq := rfl
  readable _ hanswer := absurd hanswer List.not_mem_nil

/-- A request that fits is received and answered, and the answer is underway behind the others. -/
theorem Behind.sent (h : d.Behind framer clientCapacity peerCapacity pending) (arrivals : Nat)
    (hfits : framer.Fits peerCapacity r.toRpc.write)
    (hreadable : Readable framer clientCapacity (responder d.requests r.toRpc.write)) :
    ∃ client heard, Terminal.wire.send r.toRpc.write (d.sender { arrivals }) = (.ok (), client) ∧
      { d with client }.hear responder { arrivals } client.outflow.written = heard ∧
      heard.Behind framer clientCapacity peerCapacity
        (pending ++ [responder d.requests r.toRpc.write]) ∧ Heard responder r d heard := by
  have houtflow : (d.sender { arrivals }).outflow = Terminal.fresh framer {} := by cases framer <;> rfl
  obtain ⟨client, hsend, hclient, hwritten⟩ := (sender_waits h.client _).send houtflow hfits.lt_limit
  obtain ⟨peer, hreceive, hpeer, -⟩ := h.peer.receive {} r.toRpc.write_ne_nil hfits
  have hlimit := hreadable.fits.lt_limit
  rw [← hclient.framer_eq] at hlimit
  refine ⟨client, _, hsend, rfl, ?_⟩
  rw [hwritten, hear_of_received (framer.frame_ne_nil r.toRpc.write_ne_nil) hreceive hlimit]
  refine ⟨⟨hclient, hpeer, ?_, ?_⟩, rfl, rfl⟩
  · simp only [hclient.framer_eq, framer.deliveries_whole hreadable.ne_nil, h.underway_eq,
      List.map_append, List.map_cons, List.map_nil]
  · intro answer hanswer
    rcases List.mem_append.mp hanswer with hpending | hlast
    · exact h.readable answer hpending
    · cases List.mem_singleton.mp hlast
      exact hreadable

/-- **A call gives up** if nothing arrives in time, and its answer stays underway. -/
theorem Behind.called_late (h : d.Behind framer clientCapacity peerCapacity pending)
    (hfits : framer.Fits peerCapacity r.toRpc.write)
    (hreadable : Readable framer clientCapacity (responder d.requests r.toRpc.write)) :
    ∃ result d', (wire responder { arrivals := 0 }).call r d = (result, d') ∧ Broke result ∧
      d'.Behind framer clientCapacity peerCapacity
        (pending ++ [responder d.requests r.toRpc.write]) ∧ Heard responder r d d' := by
  obtain ⟨client, heard, hsend, hhear, hbehind, hheard⟩ :=
    h.sent 0 hfits hreadable
  have hreceiver : heard.receiver { arrivals := 0 } = heard.client := by
    rw [receiver_eq hbehind.client, ending_of_waits hbehind.peer, List.take_zero,
      ← hbehind.client.inflow_eq]
  obtain ⟨e, client', htransport, -, hreceive, hclient'⟩ := hbehind.client.receive_nothing
  rw [← hreceiver] at hreceive
  exact ⟨_, _, call_of_send_ok hsend hhear hreceive, ⟨e, htransport, rfl⟩,
    ⟨hclient', hbehind.peer, hbehind.underway_eq, hbehind.readable⟩,
    hheard.requests_eq, hheard.answered_eq⟩

/-- **A call returns the next answer that is underway**, whichever request it is the answer to. -/
theorem Behind.called_next (h : d.Behind framer clientCapacity peerCapacity pending)
    (hfits : framer.Fits peerCapacity r.toRpc.write)
    (hreadable : Readable framer clientCapacity (responder d.requests r.toRpc.write))
    {next : Bytes} {left : List Bytes}
    (hnext : pending ++ [responder d.requests r.toRpc.write] = next :: left) :
    ∃ d', (wire responder { arrivals := 1 }).call r d = (r.answer next, d') ∧
      d'.Behind framer clientCapacity peerCapacity left ∧ Heard responder r d d' := by
  obtain ⟨client, heard, hsend, hhear, hbehind, hheard⟩ :=
    h.sent 1 hfits hreadable
  rw [hnext] at hbehind
  obtain ⟨hne, hfitsNext⟩ := hbehind.readable next List.mem_cons_self
  have hreceiver : heard.receiver { arrivals := 1 } =
      heard.client.arrive {} (framer.frame next) := by
    rw [receiver_eq hbehind.client, ending_of_waits hbehind.peer, hbehind.underway_eq,
      Terminal.arrive, hbehind.client.framer_eq, framer.deliveries_whole hne, hbehind.client.inflow_eq]
    rfl
  obtain ⟨client', hreceive, hclient', -⟩ := hbehind.client.receive {} hne hfitsNext
  rw [← hreceiver] at hreceive
  refine ⟨_, call_of_send_ok hsend hhear hreceive, ⟨hclient', hbehind.peer, ?_, ?_⟩,
    hheard.requests_eq, hheard.answered_eq⟩
  · show heard.underway.drop 1 = left.map framer.whole
    rw [hbehind.underway_eq]
    rfl
  · exact fun answer hanswer => hbehind.readable answer (List.mem_cons_of_mem _ hanswer)

/-! ## Calls one after the other -/

theorem run_append (responder : Responder) (first second : List (Request × Transit)) (d : Delayed) :
    run responder (first ++ second) d =
      ((run responder first d).1 ++ (run responder second (run responder first d).2).1,
        (run responder second (run responder first d).2).2) := by
  induction first generalizing d with
  | nil => rfl
  | cons call first ih =>
    obtain ⟨r, x⟩ := call
    simp only [List.cons_append, run, ih]

/-- Each call that gives up leaves one more answer underway. -/
theorem Behind.run_late (h : d.Behind framer clientCapacity peerCapacity pending)
    (responder : Responder) {requests : List Request} (hfits : ∀ r ∈ requests, framer.Fits peerCapacity r.toRpc.write)
    (hreadable : ∀ answer ∈ responder.answers d.requests requests,
      Readable framer clientCapacity answer) :
    ∃ results d', run responder (requests.map fun r => (r, { arrivals := 0 })) d = (results, d') ∧
      results.length = requests.length ∧ (∀ result ∈ results, Broke result.1) ∧
      d'.Behind framer clientCapacity peerCapacity
        (pending ++ responder.answers d.requests requests) ∧
      d'.requests = d.requests ++ requests.map fun r => r.toRpc.write := by
  -- on the requests: the answer to the first joins those that are pending
  induction requests generalizing d pending with
  | nil =>
    refine ⟨[], d, rfl, rfl, fun _ hresult => absurd hresult List.not_mem_nil, ?_, ?_⟩
    · rwa [Responder.answers, List.append_nil]
    · rw [List.map_nil, List.append_nil]
  | cons r requests ih =>
    obtain ⟨result, d₁, hcall, hbroke, hbehind, hheard⟩ :=
      h.called_late (hfits r List.mem_cons_self) (hreadable _ List.mem_cons_self)
    have hanswers : responder.answers d.requests (r :: requests) =
        responder d.requests r.toRpc.write :: responder.answers d₁.requests requests := by
      rw [hheard.requests_eq]
      rfl
    rw [hanswers] at hreadable ⊢
    obtain ⟨results, d', hrun, hlength, hall, hbehind', hrequests⟩ :=
      ih hbehind (fun r hr => hfits r (List.mem_cons_of_mem _ hr))
        (fun answer hanswer => hreadable answer (List.mem_cons_of_mem _ hanswer))
    refine ⟨(result, d₁.answered) :: results, d', ?_, congrArg (· + 1) hlength, ?_, ?_, ?_⟩
    · simp only [List.map_cons, run, hcall, hrun]
    · intro other hother
      rcases List.mem_cons.mp hother with rfl | hlater
      · exact hbroke
      · exact hall other hlater
    · rwa [List.append_assoc, List.singleton_append] at hbehind'
    · rw [hrequests, hheard.requests_eq, List.append_assoc, List.map_cons, List.singleton_append]

/-- Where one answer arrives in each call, the calls return what is underway, in order, and leave as many
answers underway as there were. -/
theorem Behind.run_next (h : d.Behind framer clientCapacity peerCapacity pending)
    {requests : List Request} (hfits : ∀ r ∈ requests, framer.Fits peerCapacity r.toRpc.write)
    (hreadable : ∀ answer ∈ responder.answers d.requests requests,
      Readable framer clientCapacity answer)
    {k : Nat} (hk : requests[k]? = some r) :
    ∃ octets, (pending ++ responder.answers d.requests requests)[k]? = some octets ∧
      (run responder (requests.map fun r => (r, { arrivals := 1 })) d).1[k]? =
        some (r.answer octets, (responder.answers d.requests requests)[k]?) := by
  -- on the requests: with each, one answer joins those that are pending and the first of them leaves
  induction requests generalizing d pending k with
  | nil => cases hk
  | cons first requests ih =>
    obtain ⟨next, left, hnext⟩ :=
      List.exists_cons_of_ne_nil (List.append_ne_nil_of_right_ne_nil pending
        (List.cons_ne_nil (responder d.requests first.toRpc.write) []))
    obtain ⟨d', hcall, hbehind, hheard⟩ :=
      h.called_next (hfits first List.mem_cons_self) (hreadable _ List.mem_cons_self) hnext
    have hanswers : responder.answers d.requests (first :: requests) =
        responder d.requests first.toRpc.write :: responder.answers d'.requests requests := by
      rw [hheard.requests_eq]
      rfl
    have hunderway : pending ++ responder.answers d.requests (first :: requests) =
        next :: (left ++ responder.answers d'.requests requests) := by
      rw [hanswers, ← List.singleton_append, ← List.append_assoc, hnext, List.cons_append]
    rw [hunderway, hanswers]
    simp only [List.map_cons, run, hcall]
    cases k with
    | zero =>
      cases hk
      exact ⟨next, rfl, congrArg (fun answered => some (_, answered)) hheard.answered_eq⟩
    | succ k =>
      rw [hanswers] at hreadable
      exact ih hbehind (fun r hr => hfits r (List.mem_cons_of_mem _ hr))
        (fun answer hanswer => hreadable answer (List.mem_cons_of_mem _ hanswer)) hk

/-- **The answers lag.** After so many calls whose answers were late, each call returns the answer of the
call that was made so many calls before. -/
theorem lag (framer : Framer) (clientOptions peerOptions : TransportOptions) (responder : Responder)
    (late prompt : List Request)
    (hfits : ∀ r ∈ late ++ prompt, framer.Fits (max 1 peerOptions.bufferSize) r.toRpc.write)
    (hreadable : ∀ answer ∈ responder.answers [] (late ++ prompt),
      Readable framer (max 1 clientOptions.bufferSize) answer) :
    let calls : List (Request × Transit) :=
      (late.map fun r => (r, { arrivals := 0 })) ++ prompt.map fun r => (r, { arrivals := 1 })
    let results := (run responder calls (new framer clientOptions peerOptions)).1
    let answers := responder.answers [] (late ++ prompt)
    (∀ result ∈ results.take late.length, Broke result.1) ∧
      ∀ k r, prompt[k]? = some r → ∃ octets, answers[k]? = some octets ∧
        results[late.length + k]? = some (r.answer octets, answers[late.length + k]?) := by
  intro calls results answers
  -- first the answers to the calls that give up, which stay underway, then those to the others
  have hanswers : answers = responder.answers [] late ++
      responder.answers (late.map fun r => r.toRpc.write) prompt := by
    rw [show answers = _ from Responder.answers_append [] late prompt, List.nil_append]
  obtain ⟨gaveUp, d, hrun, hlength, hbroke, hbehind, hrequests⟩ :=
    (behind_new framer clientOptions peerOptions).run_late responder
      (fun r hr => hfits r (List.mem_append_left _ hr))
      (fun answer hanswer => hreadable answer (by
        rw [show responder.answers [] (late ++ prompt) = _ from hanswers]
        exact List.mem_append_left _ hanswer))
  have hresults : results = gaveUp ++
      (run responder (prompt.map fun r => (r, { arrivals := 1 })) d).1 := by
    show (run responder calls _).1 = _
    rw [run_append, hrun]
  replace hrequests : d.requests = late.map fun r => r.toRpc.write := hrequests
  rw [List.nil_append] at hbehind
  refine ⟨?_, fun k r hk => ?_⟩
  · rw [hresults, ← hlength, List.take_left]
    exact hbroke
  · obtain ⟨octets, hoctets, hresult⟩ := hbehind.run_next
      (fun r hr => hfits r (List.mem_append_right _ hr))
      (fun answer hanswer => hreadable answer (by
        rw [show responder.answers [] (late ++ prompt) = _ from hanswers, ← hrequests]
        exact List.mem_append_right _ hanswer)) hk
    rw [hrequests] at hoctets hresult
    refine ⟨octets, hanswers ▸ hoctets, ?_⟩
    rw [hresults, hanswers, ← hlength, List.getElem?_append_right (Nat.le_add_right _ _), hlength,
      ← Responder.length_answers responder [] late,
      List.getElem?_append_right (Nat.le_add_right _ _), Nat.add_sub_cancel_left]
    exact hresult

/-! ## Whose answer it is -/

/-- **Until a call has failed and lost its answer, calls return their own answers**, whatever arrives when: the
next call fails before it has an answer to read, or it returns what the peer's answer to its request says. An
answer that was taken and refused is not lost. -/
theorem own_answer {framer : Framer} {clientOptions peerOptions : TransportOptions}
    {responder : Responder} {calls : List (Request × Transit)} {k : Nat} {r : Request} {x : Transit}
    (hk : calls[k]? = some (r, x))
    (hintact : ∀ j < k, ∀ result answered,
      (run responder calls (new framer clientOptions peerOptions)).1[j]? = some (result, answered) →
        ¬ Lost result) :
    ∃ result answered,
      (run responder calls (new framer clientOptions peerOptions)).1[k]? = some (result, answered) ∧
        (Broke result ∨ ∃ octets, answered = some octets ∧ result = r.answer octets) :=
  (settled_new framer clientOptions peerOptions).run_own hk hintact

/-- An event is reported for someone. -/
def purchase (key : String) : Request :=
  .track ⟨key, "user", "buy", none, none, 1⟩

/-- A peer that accepts the first event that is reported to it, and no other. -/
def acceptFirst : Responder := fun earlier _ =>
  (Response.ok (some (Payload.track earlier.isEmpty))).write Payload.toCbor

theorem answer_track (key : String) (accepted : Bool) :
    (purchase key).answer ((Response.ok (some (Payload.track accepted))).write Payload.toCbor) =
      .ok (some (.track accepted)) :=
  Request.answer_payload rfl (by cases accepted <;> decide)

/-- Two events, both answered in time. -/
theorem own_answer_second_purchase :
    ∃ result answered,
      (run acceptFirst [(purchase "alice", { arrivals := 1 }), (purchase "bob", { arrivals := 1 })]
          (new .lengthPrefixed {} {})).1[1]? = some (result, answered) ∧
        (Broke result ∨ ∃ octets, answered = some octets ∧ result = (purchase "bob").answer octets) := by
  refine own_answer (x := { arrivals := 1 }) rfl fun j hj result answered hresult => ?_
  obtain rfl := Nat.lt_one_iff.mp hj
  obtain ⟨-, hprompt⟩ := lag .lengthPrefixed {} {} acceptFirst [] [purchase "alice", purchase "bob"]
    (by decide) (by decide)
  obtain ⟨octets, -, hfirst⟩ := hprompt 0 _ rfl
  cases hfirst.symm.trans hresult
  exact fun hlost => Request.not_broke_answer _ octets hlost.broke

/-- **A call may return another call's answer.** The answer to the first event is late, and the second call
returns it: that the event was accepted, when the peer's answer is that it was not. -/
theorem not_always_ownAnswers :
    ¬ ∀ (framer : Framer) (clientOptions peerOptions : TransportOptions) (responder : Responder)
      (calls : List (Request × Transit)),
      OwnAnswers calls (run responder calls (new framer clientOptions peerOptions)).1 := by
  intro h
  obtain ⟨-, hprompt⟩ := lag .lengthPrefixed {} {} acceptFirst [purchase "alice"] [purchase "bob"]
    (by decide) (by decide)
  obtain ⟨octets, hoctets, hsecond⟩ := hprompt 0 _ rfl
  cases hoctets
  have haccepted : (purchase "bob").answer (acceptFirst [] (purchase "alice").toRpc.write) =
      .ok (some (.track true)) := answer_track "bob" true
  rw [haccepted] at hsecond
  obtain ⟨own, hown, hanswer⟩ := h _ _ _ _ _ 1 (purchase "bob") { arrivals := 1 } _ _ rfl hsecond
  cases hown
  have hrefused : (purchase "bob").answer
      (acceptFirst [(purchase "alice").toRpc.write] (purchase "bob").toRpc.write) =
        .ok (some (.track false)) := answer_track "bob" false
  cases hrefused.symm.trans hanswer

end Delayed

end FlagSidecar
