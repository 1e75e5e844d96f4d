import FlagSidecar.Proofs.Link.RoundTrip

/-!
# FlagSidecar.Proofs.Link.Interchange: either framer brings the same messages

The two framers draw the line differently. A socket that keeps messages apart cuts a message that is too long
and does not say so, so a message that fills the buffer is refused with those that are longer, and no octets
at all are the end. On a stream a message may fill the buffer, and may be empty. Between the two, from one
octet to one less than the buffer holds, both framers give each message as it is; a cut one is never given.

Main statement: `Framer.interchangeable`.
-/

namespace FlagSidecar.Framer

/-! ## Messages that are kept apart -/

/-- A read is of this message, which arrived apart from the others: the outcome is that for its length, and
if one is given it is the whole message. -/
structure ReadsApart (capacity : Nat) (message : Bytes) (read : FrameOutcome × Buffer) : Prop where
  outcome_eq : read.1 = classifyApart capacity message.length
  whole : ∀ size, read.1 = .done size → read.2.take size = message

/-- A message that is neither empty nor fills the buffer is given. -/
theorem ReadsApart.gives {capacity : Nat} {message : Bytes} {read : FrameOutcome × Buffer}
    (h : ReadsApart capacity message read) (hpos : 0 < message.length)
    (hlt : message.length < capacity) : Gives message read := by
  have hdone : read.1 = .done message.length := by
    rw [h.outcome_eq, classifyApart, if_neg (Nat.ne_of_gt hpos), if_pos hlt]
  exact ⟨hdone, h.whole _ hdone⟩

theorem readsApart_overwrite (message : Bytes) (b : Buffer) :
    ReadsApart b.capacity message
      (classifyApart b.capacity message.length, b.overwrite (message.take b.capacity)) := by
  refine ⟨rfl, fun size h => ?_⟩
  simp only [classifyApart] at h
  split at h
  · cases h
  · split at h
    · -- the message is shorter than the buffer, so all of it was read
      rename_i hlt
      cases h
      rw [List.take_of_length_le (Nat.le_of_lt hlt)]
      exact b.take_overwrite message
    · cases h

/-- **Each read is of its own message**, whatever became of those before. -/
theorem readMany_apart {messages : List Bytes} {b : Buffer} (hroom : 0 < b.capacity)
    (ending : Ending) :
    ∃ reads, readMany .null messages.length b ⟨messages.map .datagram, ending⟩ =
        (reads, ⟨[], ending⟩) ∧
      List.Forall₂ (ReadsApart b.capacity) messages reads := by
  -- on the messages; a read keeps the capacity of the buffer
  induction messages generalizing b with
  | nil => exact ⟨[], rfl, .nil⟩
  | cons message messages ih =>
    obtain ⟨reads, hread, happart⟩ := ih (b := b.overwrite (message.take b.capacity)) hroom
    refine ⟨_ :: reads, ?_, .cons (readsApart_overwrite message b) happart⟩
    rw [List.length_cons, List.map_cons, readMany, read, readDatagram_apart hroom]
    simp only [hread]

/-! ## Messages on a stream -/

/-- A stream carries messages: it begins with four octets that say how long the first is, then the first,
and so on. No stream carries a message whose length takes more than four octets; such a message is not
written either. -/
inductive Carries : List Bytes → Bytes → Prop where
  | nil (rest : Bytes) : Carries [] rest
  | cons {header message stream : Bytes} {messages : List Bytes} :
      header.length = prefixSize → Bytes.ofLittleEndian header = message.length →
      Carries messages stream → Carries (message :: messages) (header ++ message ++ stream)

/-- The frames of messages carry them. -/
theorem carries_frames {messages : List Bytes} (h : ∀ m ∈ messages, m.length < 2 ^ 32)
    (rest : Bytes) : Carries messages (messages.flatMap (frame .lengthPrefixed) ++ rest) := by
  induction messages with
  | nil => exact .nil rest
  | cons m messages ih =>
    obtain ⟨hm, hmessages⟩ := List.forall_mem_cons.mp h
    rw [List.flatMap_cons, List.append_assoc, frame]
    exact .cons (length_header _) (ofLittleEndian_header hm) (ih hmessages)

/-- What carries messages begins with their frames. -/
theorem Carries.eq_frames {messages : List Bytes} {stream : Bytes} (h : Carries messages stream) :
    (∀ m ∈ messages, m.length < 2 ^ 32) ∧
      ∃ rest, stream = messages.flatMap (frame .lengthPrefixed) ++ rest := by
  induction h with
  | nil rest => exact ⟨List.forall_mem_nil _, rest, rfl⟩
  | @cons header message stream messages hlength hsize _ ih =>
    obtain ⟨hlimit, rest, rfl⟩ := ih
    have hlt := Bytes.ofLittleEndian_lt header
    rw [hlength, hsize] at hlt
    have hheader := Bytes.littleEndian_ofLittleEndian header
    rw [hlength, hsize] at hheader
    refine ⟨List.forall_mem_cons.mpr ⟨hlt, hlimit⟩, rest, ?_⟩
    rw [List.flatMap_cons, frame, hheader, List.append_assoc (header ++ message)]

/-- **A stream brings the messages that it carries**, if the buffer has room for each. -/
theorem readMany_carried {messages pieces : List Bytes} {b : Buffer} (ending : Ending)
    (hne : ∀ p ∈ pieces, p ≠ []) (hcarries : Carries messages pieces.flatten)
    (hroom : ∀ m ∈ messages, m.length ≤ b.capacity) :
    List.Forall₂ Gives messages
      (readMany .lengthPrefixed messages.length b ⟨pieces.map .piece, ending⟩).1 := by
  obtain ⟨hlimit, rest, hflat⟩ := hcarries.eq_frames
  obtain ⟨reads, b', left, -, -, hgives, hread⟩ :=
    readMany_pieces ending hne hflat (fun m hm => ⟨hlimit m hm, hroom m hm⟩) 0
  rw [Nat.add_zero] at hread
  rw [hread, readMany, List.append_nil]
  exact hgives

/-- **Either framer brings the same messages, and a cut message is never given.** On a socket that keeps
messages apart every read is of its own message and gives nothing but the whole of it. If no message is
empty or fills the buffer, all are given; and they are given by a stream that carries them as well, however
it is cut, and whatever the buffers held. -/
theorem interchangeable {messages : List Bytes} {b : Buffer} (hroom : 0 < b.capacity)
    (ending : Ending) :
    ∃ reads, readMany .null messages.length b ⟨messages.map .datagram, ending⟩ =
        (reads, ⟨[], ending⟩) ∧
      List.Forall₂ (ReadsApart b.capacity) messages reads ∧
      ((∀ m ∈ messages, 0 < m.length ∧ m.length < b.capacity) →
        List.Forall₂ Gives messages reads ∧
        ∀ (b₂ : Buffer) (pieces : List Bytes) (ending₂ : Ending), b₂.capacity = b.capacity →
          (∀ p ∈ pieces, p ≠ []) → Carries messages pieces.flatten →
          List.Forall₂ Gives messages
            (readMany .lengthPrefixed messages.length b₂ ⟨pieces.map .piece, ending₂⟩).1) := by
  obtain ⟨reads, hread, happart⟩ := readMany_apart hroom ending
  refine ⟨reads, hread, happart, fun hcommon => ⟨?_, fun b₂ pieces ending₂ hcapacity hne hcarries => ?_⟩⟩
  · have hboth := (List.forall₂_and_left _ _).mpr ⟨hcommon, happart⟩
    exact hboth.imp fun m read ⟨⟨hpos, hlt⟩, h⟩ => h.gives hpos hlt
  · exact readMany_carried ending₂ hne hcarries fun m hm => hcapacity ▸ Nat.le_of_lt (hcommon m hm).2

/-- Two messages, the second of which is as long as may be: apart, and on a stream that is cut inside the
first length and inside the second message. -/
theorem interchangeable_two_and_four :
    ∃ reads, readMany .null 2 ⟨5, []⟩ ⟨[.datagram [1, 2], .datagram [3, 4, 5, 6]], .stalled⟩ =
        (reads, ⟨[], .stalled⟩) ∧
      List.Forall₂ Gives [[1, 2], [3, 4, 5, 6]] reads ∧
      List.Forall₂ Gives [[1, 2], [3, 4, 5, 6]]
        (readMany .lengthPrefixed 2 ⟨5, [9, 9, 9, 9, 9]⟩
          ⟨[.piece [2], .piece [0, 0, 0, 1, 2, 4, 0, 0, 0, 3], .piece [4, 5, 6]], .eof⟩).1 := by
  obtain ⟨reads, hread, -, hcommon⟩ :=
    @interchangeable [[1, 2], [3, 4, 5, 6]] ⟨5, []⟩ (by decide) .stalled
  obtain ⟨hgives, hstream⟩ := hcommon (by decide)
  refine ⟨reads, hread, hgives, ?_⟩
  exact hstream ⟨5, [9, 9, 9, 9, 9]⟩ [[2], [0, 0, 0, 1, 2, 4, 0, 0, 0, 3], [4, 5, 6]] .eof rfl
    (by decide) (carries_frames (by decide) [])

end FlagSidecar.Framer
