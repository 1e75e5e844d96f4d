import FlagSidecar.Proofs.Link.Framing

/-!
# FlagSidecar.Proofs.Link.Terminal: a message from one end to the other

An end that waits has an open transport and nothing on its way to it. It can send any message whose
length can be said, and it receives as it was sent every message that its buffer has room for; after
either it waits again.

Main statements: `Terminal.Waits.send` and `Terminal.Waits.receive`.
-/

namespace FlagSidecar

/-- The message is shorter than the buffer that it is read into, and its length can be said. -/
structure Framer.Fits (framer : Framer) (capacity : Nat) (payload : Bytes) : Prop where
  lt_capacity : payload.length < capacity
  lt_limit : payload.length < framer.limit

instance (framer : Framer) (capacity : Nat) (payload : Bytes) :
    Decidable (framer.Fits capacity payload) :=
  decidable_of_iff (payload.length < capacity ∧ payload.length < framer.limit)
    ⟨fun h => ⟨h.1, h.2⟩, fun h => ⟨h.lt_capacity, h.lt_limit⟩⟩

namespace Terminal

/-- **An end that waits**: it is open, its messages are told apart by this framer and read into a buffer
of this capacity, and nothing is on its way to it. -/
structure Waits (framer : Framer) (capacity : Nat) (t : Terminal) : Prop where
  framer_eq : t.transport.framer = framer
  capacity_eq : t.transport.buffer.capacity = capacity
  closed_eq : t.transport.closed = false
  inflow_eq : t.inflow = ⟨[], .stalled⟩

/-- The outflow of an end that is about to send a message. -/
def fresh (framer : Framer) (p : Passage) : Outflow where
  acceptances := framer.acceptances p
  tail := .unlimited

variable {framer : Framer} {capacity : Nat} {t : Terminal} {payload : Bytes}

theorem waits_new (framer : Framer) (options : TransportOptions) :
    Waits framer (max 1 options.bufferSize) { transport := .new framer options } where
  framer_eq := rfl
  capacity_eq := rfl
  closed_eq := rfl
  inflow_eq := rfl

theorem Waits.ready (h : t.Waits framer capacity) (p : Passage) :
    (t.ready p).Waits framer capacity ∧ (t.ready p).outflow = fresh framer p := by
  obtain ⟨hframer, hcapacity, hclosed, hinflow⟩ := h
  refine ⟨⟨hframer, hcapacity, hclosed, hinflow⟩, ?_⟩
  rw [Terminal.ready, hframer, fresh]

/-- **What is sent is on the wire as its frame.** -/
theorem Waits.send (h : t.Waits framer capacity) {p : Passage} (houtflow : t.outflow = fresh framer p)
    (hlimit : payload.length < framer.limit) :
    ∃ t', wire.send payload t = (.ok (), t') ∧ t'.Waits framer capacity ∧
      t'.outflow.written = framer.frame payload := by
  obtain ⟨hframer, hcapacity, hclosed, hinflow⟩ := h
  obtain ⟨f, hwrite, hwritten⟩ := Framer.write_acceptances framer p hlimit
  refine ⟨{ t with outflow := f }, ?_, ⟨hframer, hcapacity, hclosed, hinflow⟩, hwritten⟩
  have hsend : t.transport.send payload t.outflow = (.ok (), f) := by
    rw [Transport.send, if_neg (by rw [hclosed]; exact Bool.false_ne_true), hframer, houtflow, fresh,
      hwrite]
  show ((t.transport.send payload t.outflow).1,
    { t with outflow := (t.transport.send payload t.outflow).2 }) = _
  rw [hsend]

/-- **What was sent is received**, however it travelled. -/
theorem Waits.receive (h : t.Waits framer capacity) (p : Passage) (hne : payload ≠ [])
    (hfits : framer.Fits capacity payload) :
    ∃ t', wire.receive (t.arrive p (framer.frame payload)) = (.ok payload, t') ∧
      t'.Waits framer capacity ∧ t'.outflow = t.outflow := by
  obtain ⟨hframer, hcapacity, hclosed, hinflow⟩ := h
  obtain ⟨hlt, hlimit⟩ := hfits
  have harrive : t.arrive p (framer.frame payload) =
      { t with inflow := ⟨framer.deliveries p (framer.frame payload), .stalled⟩ } := by
    rw [arrive, hinflow, hframer]
    rfl
  have hread : t.transport.framer.read t.transport.buffer
      ⟨framer.deliveries p (framer.frame payload), .stalled⟩ =
        (.done payload.length, t.transport.buffer.overwrite payload, ⟨[], .stalled⟩) := by
    rw [hframer]
    exact Framer.read_deliveries framer p .stalled hne (hcapacity ▸ hlt) hlimit
  have hreceive : t.transport.receive ⟨framer.deliveries p (framer.frame payload), .stalled⟩ =
      (.ok payload, { t.transport with buffer := t.transport.buffer.overwrite payload },
        ⟨[], .stalled⟩) := by
    rw [Transport.receive, if_neg (by rw [hclosed]; exact Bool.false_ne_true), hread]
    simp only [Buffer.take_overwrite]
  refine ⟨⟨{ t.transport with buffer := t.transport.buffer.overwrite payload }, ⟨[], .stalled⟩,
    t.outflow⟩, ?_, ⟨hframer, hcapacity, hclosed, rfl⟩, rfl⟩
  rw [harrive, wire]
  simp only [hreceive]

end Terminal

end FlagSidecar
