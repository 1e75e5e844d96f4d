import FlagSidecar.Link.Duplex
import FlagSidecar.Proofs.Link.CutOff

/-!
# FlagSidecar.Proofs.Link.Duplex: messages through pipes held in memory

A message that a pipe can hold goes into it at once and is all there is in it. Whether it is read as it was
sent depends on the buffer of the reader alone: it is read if the buffer has room for it, and else the read
fails. Either way nothing waits any more.

Main statements: `Framer.read_piece`, `Framer.read_piece_overfull`, `Duplex.Waits.receive` and
`Duplex.Waits.send`.
-/

namespace FlagSidecar

namespace Framer

variable {framer : Framer} {payload : Bytes} {b : Buffer}

/-! ## Room in a buffer -/

/-- A buffer of this capacity has room for the message: to the last octet if its length is known before it is
read, and else with an octet to spare. -/
def HasRoom : Framer → (capacity : Nat) → Bytes → Prop
  | null, capacity, payload => payload.length < capacity
  | lengthPrefixed, capacity, payload => payload.length ≤ capacity

instance (framer : Framer) (capacity : Nat) (payload : Bytes) :
    Decidable (framer.HasRoom capacity payload) := by
  cases framer <;> unfold HasRoom <;> infer_instance

/-- A socket that keeps messages apart reads the octets that one read brings. -/
theorem readDatagram_of_read {f f' : Inflow} {bs : Bytes}
    (h : f.read b.capacity = (.octets bs, f')) :
    readDatagram b f =
      (if bs.isEmpty then .failed .eof
        else if bs.length = b.capacity then .failed (.bufferTooSmall b.capacity)
        else .done bs.length, b.overwrite bs, f') := by
  rw [readDatagram, h]
  simp only
  split
  · rfl
  · show (if bs.length = b.capacity then _ else _ : FrameOutcome × Buffer × Inflow) = _
    split <;> rfl

/-- A read that fills the buffer is no message. -/
theorem readDatagram_full {f f' : Inflow} {bs : Bytes} (h : f.read b.capacity = (.octets bs, f'))
    (hfull : bs.length = b.capacity) : ∃ e b' f', readDatagram b f = (.failed e, b', f') := by
  rw [readDatagram_of_read h, if_pos hfull]
  split
  · exact ⟨_, _, _, rfl⟩
  · exact ⟨_, _, _, rfl⟩

section Prefixed

variable (ending : Ending) (hlimit : payload.length < 2 ^ 32)

include hlimit

/-- The frame of a message in one piece, where the buffer has room for the message. -/
theorem readPrefixed_frame (hcapacity : payload.length ≤ b.capacity) :
    readPrefixed b ⟨[.piece (frame .lengthPrefixed payload)], ending⟩ =
      (.done payload.length, b.overwrite payload, ⟨[], ending⟩) := by
  have hflat : [frame .lengthPrefixed payload].flatten = frame .lengthPrefixed payload ++ [] := by
    rw [List.flatten_singleton, List.append_nil]
  obtain ⟨left, hleft, hrest, hread⟩ := readPrefixed_pieces ending
    (List.forall_mem_singleton.mpr (frame_lengthPrefixed_ne_nil payload)) hflat hlimit hcapacity
  rwa [Bytes.eq_nil_of_flatten_eq_nil hleft hrest] at hread

/-- The frame of a message in one piece, where the buffer has no room for the message. -/
theorem readPrefixed_frame_overfull (hcapacity : b.capacity < payload.length) :
    ∃ e b' f, readPrefixed b ⟨[.piece (frame .lengthPrefixed payload)], ending⟩ =
      (.failed e, b', f) := by
  have hflat : [frame .lengthPrefixed payload].flatten =
      Bytes.littleEndian prefixSize payload.length ++ payload := List.flatten_singleton
  obtain ⟨left, -, hread⟩ := readPrefixed_oversized ending
    (List.forall_mem_singleton.mpr (frame_lengthPrefixed_ne_nil payload)) hflat hlimit hcapacity
  exact ⟨_, _, _, hread⟩

end Prefixed

/-- Where nothing has come a read waits. -/
theorem read_stalled (framer : Framer) (b : Buffer) :
    framer.read b ⟨[], .stalled⟩ = (.stalled, b, ⟨[], .stalled⟩) := by
  cases framer <;> rfl

/-- A failure is met before anything else is. -/
theorem read_failure (framer : Framer) (b : Buffer) (err : IoError) (rest : List Delivery)
    (ending : Ending) :
    framer.read b ⟨.failure err :: rest, ending⟩ = (.failed (.io err), b, ⟨rest, ending⟩) := by
  cases framer <;> rfl

/-- Where nothing comes any more a read meets the end. -/
theorem read_ended (framer : Framer) (b : Buffer) :
    ∃ b', framer.read b ⟨[], .eof⟩ = (.failed .eof, b', ⟨[], .eof⟩) := by
  cases framer <;> exact ⟨_, rfl⟩

section Whole

variable (ending : Ending) (hlimit : payload.length < framer.limit)

include hlimit

/-- What has come in one piece is read if the buffer has room for it. -/
theorem read_piece (hne : payload ≠ []) (hroom : framer.HasRoom b.capacity payload) :
    framer.read b ⟨[.piece (framer.frame payload)], ending⟩ =
      (.done payload.length, b.overwrite payload, ⟨[], ending⟩) := by
  cases framer with
  | null =>
    have hempty : ¬ payload.isEmpty = true := by rwa [List.isEmpty_iff]
    show readDatagram b ⟨[payload].map .piece, ending⟩ = _
    rw [readDatagram_of_read (read_piece_short (Nat.le_of_lt hroom) [] ending), if_neg hempty,
      if_neg (Nat.ne_of_lt hroom)]
    rfl
  | lengthPrefixed => exact readPrefixed_frame ending hlimit hroom

/-- What has come in one piece is not read if the buffer has no room for it. -/
theorem read_piece_overfull (hroom : ¬ framer.HasRoom b.capacity payload) :
    ∃ e b' f, framer.read b ⟨[.piece (framer.frame payload)], ending⟩ = (.failed e, b', f) := by
  cases framer with
  | null =>
    refine readDatagram_full (f := ⟨[.piece payload], ending⟩) rfl ?_
    rw [List.length_take, Nat.min_eq_left (Nat.le_of_not_lt hroom)]
  | lengthPrefixed => exact readPrefixed_frame_overfull ending hlimit (Nat.lt_of_not_le hroom)

/-- What has come as a whole is read if the buffer has room for it. -/
theorem read_whole (hne : payload ≠ []) (hroom : framer.HasRoom b.capacity payload) :
    framer.read b ⟨framer.deliveries {} (framer.frame payload), ending⟩ =
      (.done payload.length, b.overwrite payload, ⟨[], ending⟩) := by
  cases framer with
  | null =>
    obtain ⟨byte, rest, rfl⟩ := List.exists_cons_of_ne_nil hne
    exact readDatagram_whole ending hne hroom
  | lengthPrefixed => exact readPrefixed_frame ending hlimit hroom

/-- What has come as a whole is not read if the buffer has no room for it. -/
theorem read_whole_overfull (hne : payload ≠ []) (hroom : ¬ framer.HasRoom b.capacity payload) :
    ∃ e b' f, framer.read b ⟨framer.deliveries {} (framer.frame payload), ending⟩ =
      (.failed e, b', f) := by
  cases framer with
  | null =>
    obtain ⟨byte, rest, rfl⟩ := List.exists_cons_of_ne_nil hne
    refine readDatagram_full (f := ⟨[.datagram (byte :: rest)], ending⟩) rfl ?_
    rw [List.length_take, Nat.min_eq_left (Nat.le_of_not_lt hroom)]
  | lengthPrefixed => exact readPrefixed_frame_overfull ending hlimit (Nat.lt_of_not_le hroom)

end Whole

/-! ## Room in a pipe -/

/-- A message that a pipe of this capacity can hold has a length that can be said. -/
theorem lt_limit_of_le {capacity : Nat} (hcapacity : capacity ≤ 2 ^ 32)
    (h : (framer.frame payload).length ≤ capacity) : payload.length < framer.limit := by
  cases framer with
  | null => exact Nat.lt_of_le_of_lt (Nat.le_trans h hcapacity) (by decide)
  | lengthPrefixed =>
    rw [frame, List.length_append, length_header, prefixSize] at h
    show payload.length < 2 ^ 32
    omega

/-- Octets that a pipe can hold are written at once. -/
theorem writeAll_within {octets : Bytes} {capacity : Nat} (h : octets.length ≤ capacity) :
    ∃ f, writeAll octets.length octets { acceptances := [.upTo capacity], tail := .stalled } =
      (.accepted 0, f) ∧ f.written = octets := by
  cases octets with
  | nil => exact ⟨_, rfl, rfl⟩
  | cons byte rest =>
    refine ⟨{ acceptances := [], tail := .stalled, written := byte :: rest, writes := 1 }, ?_, rfl⟩
    rw [List.length_cons, writeAll, Outflow.write]
    · simp [List.take_of_length_le h, List.length_cons, writeAll]
    · exact List.cons_ne_nil byte rest

/-- A message whose frame a pipe can hold is written at once. -/
theorem write_within {capacity : Nat} (hlimit : payload.length < framer.limit)
    (h : (framer.frame payload).length ≤ capacity) :
    ∃ f, framer.write payload { acceptances := [.upTo capacity], tail := .stalled } =
      (.done payload.length, f) ∧ f.written = framer.frame payload := by
  cases framer with
  | null =>
    refine ⟨{ acceptances := [], tail := .stalled, written := payload, writes := 1 }, ?_, rfl⟩
    replace h : payload.length ≤ capacity := h
    simp [write, Outflow.write, List.take_of_length_le h]
  | lengthPrefixed =>
    obtain ⟨f, hwrite, hwritten⟩ := writeAll_within h
    refine ⟨{ f with flushes := f.flushes + 1 }, ?_, hwritten⟩
    have hprefix : ¬ 2 ^ 32 ≤ payload.length := Nat.not_le_of_lt hlimit
    rw [write, if_neg hprefix]
    simp only [hwrite]

end Framer

/-! ## Transports -/

namespace Transport

/-- **A transport that goes on**: it is open, its messages are told apart by this framer and read into a buffer
of this capacity. -/
structure GoesOn (framer : Framer) (capacity : Nat) (t : Transport) : Prop where
  framer_eq : t.framer = framer
  capacity_eq : t.buffer.capacity = capacity
  closed_eq : t.closed = false

variable {framer : Framer} {capacity : Nat} {t : Transport} {payload : Bytes}

theorem goesOn_new (framer : Framer) (options : TransportOptions) :
    (new framer options).GoesOn framer (max 1 options.bufferSize) :=
  ⟨rfl, rfl, rfl⟩

/-- A message that was read leaves it as it was, its buffer apart. -/
theorem GoesOn.overwrite (h : t.GoesOn framer capacity) (octets : Bytes) :
    { t with buffer := t.buffer.overwrite octets }.GoesOn framer capacity :=
  ⟨h.framer_eq, h.capacity_eq, h.closed_eq⟩

theorem GoesOn.not_closed (h : t.GoesOn framer capacity) : ¬ t.closed = true := by
  rw [h.closed_eq]
  exact Bool.false_ne_true

theorem GoesOn.receive_of_done (h : t.GoesOn framer capacity) {f f' : Inflow}
    (hread : framer.read t.buffer f = (.done payload.length, t.buffer.overwrite payload, f')) :
    t.receive f = (.ok payload, { t with buffer := t.buffer.overwrite payload }, f') := by
  rw [receive, if_neg h.not_closed, h.framer_eq, hread]
  simp only [Buffer.take_overwrite]

theorem GoesOn.receive_of_failed (h : t.GoesOn framer capacity) {f f' : Inflow} {e : FramingError}
    {b : Buffer} (hread : framer.read t.buffer f = (.failed e, b, f')) :
    t.receive f = (.error (.framing e), { t with buffer := b }, f') := by
  rw [receive, if_neg h.not_closed, h.framer_eq, hread]

theorem GoesOn.send_of_done (h : t.GoesOn framer capacity) {f f' : Outflow} {size : Nat}
    (hwrite : framer.write payload f = (.done size, f')) : t.send payload f = (.ok (), f') := by
  rw [send, if_neg h.not_closed, h.framer_eq, hwrite]

/-- Where nothing has come it waits. -/
theorem GoesOn.receive_stalled (h : t.GoesOn framer capacity) :
    t.receive ⟨[], .stalled⟩ =
      (.error (.timeout .receive t.options.readTimeout), t, ⟨[], .stalled⟩) := by
  rw [receive, if_neg h.not_closed, Framer.read_stalled]

/-- Where nothing comes any more it fails. -/
theorem GoesOn.receive_ended (h : t.GoesOn framer capacity) :
    ∃ t', t.receive ⟨[], .eof⟩ = (.error (.framing .eof), t', ⟨[], .eof⟩) := by
  obtain ⟨b, hread⟩ := Framer.read_ended framer t.buffer
  exact ⟨_, h.receive_of_failed hread⟩

end Transport

/-! ## Pipes -/

namespace Duplex

/-- **A connection that waits**: its transport goes on, and both pipes, which hold so many octets, are open and
empty. -/
structure Waits (framer : Framer) (capacity room : Nat) (d : Duplex) : Prop where
  transport : d.transport.GoesOn framer capacity
  inbound_eq : d.inbound = { capacity := room }
  outbound_eq : d.outbound = { capacity := room }

variable {framer : Framer} {capacity room : Nat} {d : Duplex} {payload : Bytes}

theorem waits_new (framer : Framer) (options : TransportOptions) (room : Nat) :
    (new (.new framer options) room).Waits framer (max 1 options.bufferSize) room :=
  ⟨Transport.goesOn_new framer options, rfl, rfl⟩

/-- The connection when its peer has written these octets. -/
def filled (octets : Bytes) (d : Duplex) : Duplex := { d with inbound.content := octets }

/-- The connection when these octets have been sent to its peer. -/
def answered (octets : Bytes) (d : Duplex) : Duplex := { d with outbound.content := octets }

/-- What the peer writes is all there is to read, if it fits. -/
theorem Waits.peerWrite (h : d.Waits framer capacity room) {octets : Bytes} (hne : octets ≠ [])
    (hroom : octets.length ≤ room) : (d.peerWrite octets).2 = d.filled octets := by
  have hpos : 0 < room := Nat.lt_of_lt_of_le (List.length_pos_iff.mpr hne) hroom
  obtain ⟨f, hwrite, hwritten⟩ := Framer.writeAll_within hroom
  have houtflow : d.inbound.outflow = { acceptances := [.upTo room], tail := .stalled } := by
    rw [h.inbound_eq, Pipe.outflow]
    simp [hpos]
  rw [Duplex.peerWrite, houtflow, hwrite]
  simp only [Pipe.afterWriting, filled, h.inbound_eq, hwritten, List.nil_append]

theorem Waits.inflow_filled (h : d.Waits framer capacity room) {octets : Bytes} (hne : octets ≠ []) :
    (d.filled octets).inbound.inflow = ⟨[.piece octets], .stalled⟩ := by
  have hempty : ¬ octets.isEmpty = true := by rwa [List.isEmpty_iff]
  rw [Pipe.inflow, filled]
  simp only [h.inbound_eq, if_neg hempty]
  rfl

theorem receive_eq {result : Except LinkError Bytes} {t : Transport} {f : Inflow}
    (h : d.transport.receive d.inbound.inflow = (result, t, f)) :
    wire.receive d =
      (result, { d with transport := t, inbound := d.inbound.afterReading f }) := by
  simp only [wire, Pipe.receive, h]

theorem send_eq {result : Except LinkError Unit} {f : Outflow}
    (h : d.transport.send payload d.outbound.outflow = (result, f)) :
    wire.send payload d = (result, { d with outbound := d.outbound.afterWriting f }) := by
  simp only [wire, Pipe.send, h]

section Receive

variable (h : d.Waits framer capacity room) (hne : payload ≠ [])
  (hlimit : payload.length < framer.limit)

include h hne hlimit

/-- **What was written is received** if there is room for it. -/
theorem Waits.receive (hroom : framer.HasRoom capacity payload) :
    ∃ d', wire.receive (d.filled (framer.frame payload)) = (.ok payload, d') ∧
      d'.Waits framer capacity room := by
  have hread := Framer.read_piece (b := d.transport.buffer) .stalled hlimit hne
    (by rwa [h.transport.capacity_eq])
  have hreceive := h.transport.receive_of_done hread
  rw [← h.inflow_filled (framer.frame_ne_nil hne)] at hreceive
  refine ⟨_, receive_eq hreceive, h.transport.overwrite payload, ?_, h.outbound_eq⟩
  rw [filled, h.inbound_eq]
  rfl

/-- What was written is not received if there is no room for it. -/
theorem Waits.receive_overfull (hroom : ¬ framer.HasRoom capacity payload) :
    ∃ e d', wire.receive (d.filled (framer.frame payload)) = (.error (.framing e), d') ∧
      d'.outbound = d.outbound := by
  obtain ⟨e, b, f, hread⟩ := Framer.read_piece_overfull (b := d.transport.buffer) .stalled hlimit
    (by rwa [h.transport.capacity_eq])
  have hreceive := h.transport.receive_of_failed hread
  rw [← h.inflow_filled (framer.frame_ne_nil hne)] at hreceive
  exact ⟨e, _, receive_eq hreceive, rfl⟩

end Receive

theorem Waits.receive_closed (h : d.Waits framer capacity room) :
    ∃ d', wire.receive d.peerClose = (.error (.framing .eof), d') := by
  have hinflow : d.peerClose.inbound.inflow = ⟨[], .eof⟩ := by
    rw [peerClose, h.inbound_eq]
    rfl
  obtain ⟨t, hreceive⟩ := h.transport.receive_ended
  rw [← hinflow] at hreceive
  exact ⟨_, receive_eq (d := d.peerClose) hreceive⟩

/-- **What is sent is all there is for the peer to read.** -/
theorem Waits.send (h : d.Waits framer capacity room) (hne : payload ≠ [])
    (hlimit : payload.length < framer.limit) (hroom : (framer.frame payload).length ≤ room) :
    wire.send payload d = (.ok (), d.answered (framer.frame payload)) := by
  have hpos : 0 < room :=
    Nat.lt_of_lt_of_le (List.length_pos_iff.mpr (framer.frame_ne_nil hne)) hroom
  obtain ⟨f, hwrite, hwritten⟩ := Framer.write_within hlimit hroom
  have houtflow : d.outbound.outflow = { acceptances := [.upTo room], tail := .stalled } := by
    rw [h.outbound_eq, Pipe.outflow]
    simp [hpos]
  rw [← houtflow] at hwrite
  rw [send_eq (h.transport.send_of_done hwrite), Pipe.afterWriting, hwritten, answered, h.outbound_eq]
  rfl

/-- Once its peer has read all that was sent, the connection is as it was. -/
theorem Waits.read_answered (h : d.Waits framer capacity room) (octets : Bytes) :
    { d.answered octets with
      outbound := (d.answered octets).outbound.afterReading ⟨[], .stalled⟩ } = d := by
  have houtbound : (d.answered octets).outbound.afterReading ⟨[], .stalled⟩ = d.outbound := by
    rw [answered, h.outbound_eq]
    rfl
  rw [houtbound]
  rfl

/-! ## Waiting -/

/-- Nothing has come that could be received. -/
def Quiet (d : Duplex) : Prop :=
  ∃ operation deadline, (wire.receive d).1 = .error (.timeout operation deadline)

/-- Where nothing has come it is quiet, whatever has been sent. -/
theorem Waits.quiet_answered (h : d.Waits framer capacity room) (octets : Bytes) :
    (d.answered octets).Quiet := by
  have hinflow : (d.answered octets).inbound.inflow = ⟨[], .stalled⟩ := by
    rw [answered, h.inbound_eq]
    rfl
  have hreceive := h.transport.receive_stalled
  rw [← hinflow] at hreceive
  exact ⟨_, _, congrArg Prod.fst (receive_eq (d := d.answered octets) hreceive)⟩

theorem Waits.not_quiet_filled (h : d.Waits framer capacity room) (hne : payload ≠ [])
    (hlimit : payload.length < framer.limit) : ¬ (d.filled (framer.frame payload)).Quiet := by
  rintro ⟨operation, deadline, hreceive⟩
  by_cases hroom : framer.HasRoom capacity payload
  · obtain ⟨d', hreceive', -⟩ := h.receive hne hlimit hroom
    rw [hreceive'] at hreceive
    cases hreceive
  · obtain ⟨e, d', hreceive', -⟩ := h.receive_overfull hne hlimit hroom
    rw [hreceive'] at hreceive
    cases hreceive

theorem Waits.not_quiet_closed (h : d.Waits framer capacity room) : ¬ d.peerClose.Quiet := by
  rintro ⟨operation, deadline, hreceive⟩
  obtain ⟨d', hreceive'⟩ := h.receive_closed
  rw [hreceive'] at hreceive
  cases hreceive

end Duplex

end FlagSidecar
