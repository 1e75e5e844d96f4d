import FlagSidecar.Proofs.Link.CutOff

/-!
# FlagSidecar.Proofs.Link.Classification: what a stream reads as

How a stream comes in pieces is up to the network, so it must not matter. What one read of a message from a
stream comes to, and how far it goes, is a function of the octets before the end and of the room in the
buffer. The function has no reads in it: it looks at how many octets there are and at the number that the
first four stand for.

Main statement: `Framer.read_eq_classify`.
-/

namespace FlagSidecar

namespace Framer

/-- What reading one message comes to if the stream has these octets and then ends, and how many of them
are read. -/
def classify (capacity : Nat) (stream : Bytes) : FrameOutcome × Nat :=
  let size := Bytes.ofLittleEndian (stream.take prefixSize)
  if stream.length = 0 then (.failed .eof, 0)
  else if stream.length < prefixSize then
    (.failed (.insufficientHeader stream.length), stream.length)
  else if capacity < size then (.failed (.oversized size capacity), prefixSize)
  else if stream.length < prefixSize + size then (.failed (.io .unexpectedEof), stream.length)
  else (.done size, prefixSize + size)

theorem classify_short {capacity : Nat} {stream : Bytes} (h : stream.length < prefixSize) :
    classify capacity stream = (.failed (.cutOff stream.length), stream.length) := by
  rw [classify, FramingError.cutOff, if_pos h]
  by_cases hempty : stream.length = 0
  · rw [if_pos hempty, if_pos hempty, hempty]
  · rw [if_neg hempty, if_neg hempty, if_pos h]

/-- The octets of a message that comes whole. -/
theorem length_message {stream : Bytes} {size : Nat} (h : prefixSize + size ≤ stream.length) :
    ((stream.drop prefixSize).take size).length = size := by
  rw [List.length_take, List.length_drop]
  omega

section Announced

/-! The first four octets are the length of a message, whether it comes or not. -/

variable {pieces : List Bytes} {stream : Bytes} {size : Nat} {b : Buffer}
  (hne : ∀ p ∈ pieces, p ≠ []) (hflat : pieces.flatten = stream)
  (hheader : prefixSize ≤ stream.length)
  (hsize : Bytes.ofLittleEndian (stream.take prefixSize) = size)

include hheader hsize

theorem announced_lt : size < 2 ^ 32 := by
  have := Bytes.ofLittleEndian_lt (stream.take prefixSize)
  rwa [List.length_take_of_le hheader, hsize] at this

theorem stream_eq_header : stream = Bytes.littleEndian prefixSize size ++ stream.drop prefixSize := by
  have hback := Bytes.littleEndian_ofLittleEndian (stream.take prefixSize)
  rw [List.length_take_of_le hheader, hsize] at hback
  rw [hback, List.take_append_drop]

include hne hflat

/-- A length beyond the buffer is refused, and the stream is where the message would begin. -/
theorem readPrefixed_announced_oversized (hcapacity : b.capacity < size) :
    ∃ left : List Bytes, left.flatten = stream.drop prefixSize ∧
      readPrefixed b ⟨pieces.map .piece, .eof⟩ =
        (.failed (.oversized size b.capacity), b, ⟨left.map .piece, .eof⟩) := by
  have hlimit := announced_lt hheader hsize
  -- of the message only the length matters
  have hzeros : (List.replicate size (0 : UInt8)).length = size := List.length_replicate
  have hstream : pieces.flatten =
      Bytes.littleEndian prefixSize (List.replicate size (0 : UInt8)).length ++
        stream.drop prefixSize := by
    rw [hzeros, hflat]
    exact stream_eq_header hheader hsize
  have hread := readPrefixed_oversized (b := b) .eof hne hstream (by rwa [hzeros]) (by rwa [hzeros])
  rwa [hzeros] at hread

/-- A stream that ends inside the message is read to its end. -/
theorem readPrefixed_announced_cutOff (hcapacity : size ≤ b.capacity)
    (hshort : stream.length < prefixSize + size) :
    ∃ b', readPrefixed b ⟨pieces.map .piece, .eof⟩ = (.failed (.io .unexpectedEof), b', ⟨[], .eof⟩) := by
  have hlimit := announced_lt hheader hsize
  -- what is there is the beginning of a message that goes on with zeros
  let missing : Bytes := List.replicate (prefixSize + size - stream.length) 0
  have hpayload : (stream.drop prefixSize ++ missing).length = size := by
    rw [List.length_append, List.length_drop, List.length_replicate]
    omega
  have hframe : stream ++ missing = frame .lengthPrefixed (stream.drop prefixSize ++ missing) := by
    rw [frame, hpayload, ← List.append_assoc, ← stream_eq_header hheader hsize]
  have hmissing : stream.length < (stream ++ missing).length := by
    rw [List.length_append, List.length_replicate]
    omega
  have hbegins : pieces.flatten <+: frame .lengthPrefixed (stream.drop prefixSize ++ missing) := by
    rw [hflat]
    exact ⟨missing, hframe⟩
  obtain ⟨b', -, hread⟩ := readPrefixed_cutOff (b := b) .eof hne hbegins
    (by rwa [hflat, ← hframe]) (by rwa [hpayload]) (by rwa [hpayload])
  rw [hflat, Ending.cutOff, FramingError.cutOff_of_header hheader] at hread
  exact ⟨b', hread⟩

/-- A message that comes whole is read, and the stream is behind it. -/
theorem readPrefixed_announced_whole (hcapacity : size ≤ b.capacity)
    (hwhole : prefixSize + size ≤ stream.length) :
    ∃ left : List Bytes, left.flatten = stream.drop (prefixSize + size) ∧
      readPrefixed b ⟨pieces.map .piece, .eof⟩ =
        (.done size, b.overwrite ((stream.drop prefixSize).take size),
          ⟨left.map .piece, .eof⟩) := by
  have hlimit := announced_lt hheader hsize
  have hpayload := length_message hwhole
  have hframe : pieces.flatten = frame .lengthPrefixed ((stream.drop prefixSize).take size) ++
      stream.drop (prefixSize + size) := by
    rw [frame, hpayload, List.append_assoc, ← List.drop_drop, List.take_append_drop, hflat]
    exact stream_eq_header hheader hsize
  obtain ⟨left, -, hleft, hread⟩ := readPrefixed_pieces (b := b) .eof hne hframe
    (by rwa [hpayload]) (by rwa [hpayload])
  rw [hpayload] at hread
  exact ⟨left, hleft, hread⟩

end Announced

/-- **What a stream reads as does not depend on its pieces.** The buffer matters by its capacity only. If
the message is read it stands in front of the buffer, and what was behind is as before. -/
theorem read_eq_classify {pieces : List Bytes} {b : Buffer} (hne : ∀ p ∈ pieces, p ≠ [])
    (hb : b.front.length ≤ b.capacity) :
    ∃ (b' : Buffer) (left : List Bytes),
      read .lengthPrefixed b ⟨pieces.map .piece, .eof⟩ =
        ((classify b.capacity pieces.flatten).1, b', ⟨left.map .piece, .eof⟩) ∧
      left.flatten = pieces.flatten.drop (classify b.capacity pieces.flatten).2 ∧
      ∀ size, (classify b.capacity pieces.flatten).1 = .done size →
        b'.octets = (pieces.flatten.drop prefixSize).take size ++ b.octets.drop size := by
  show ∃ (b' : Buffer) (left : List Bytes), readPrefixed b ⟨pieces.map .piece, .eof⟩ = _ ∧ _
  rcases Nat.lt_or_ge pieces.flatten.length prefixSize with hshort | hheader
  · rw [classify_short hshort]
    exact ⟨b, [], readPrefixed_cutOff_header b .eof hne hshort, by rw [List.drop_length]; rfl,
      fun size h => by cases h⟩
  have hempty : pieces.flatten.length ≠ 0 := fun h => absurd hheader (by rw [h]; decide)
  generalize hflat : pieces.flatten = stream at hheader hempty ⊢
  simp only [classify, if_neg hempty, if_neg (Nat.not_lt_of_le hheader)]
  generalize hsize : Bytes.ofLittleEndian (stream.take prefixSize) = size
  rcases Nat.lt_or_ge b.capacity size with hcapacity | hcapacity
  · obtain ⟨left, hleft, hread⟩ :=
      readPrefixed_announced_oversized hne hflat hheader hsize hcapacity
    simp only [if_pos hcapacity]
    exact ⟨b, left, hread, hleft, fun _ h => by cases h⟩
  simp only [if_neg (Nat.not_lt_of_le hcapacity)]
  rcases Nat.lt_or_ge stream.length (prefixSize + size) with hcut | hwhole
  · obtain ⟨b', hread⟩ := readPrefixed_announced_cutOff hne hflat hheader hsize hcapacity hcut
    simp only [if_pos hcut]
    exact ⟨b', [], hread, by rw [List.drop_length]; rfl, fun _ h => by cases h⟩
  · obtain ⟨left, hleft, hread⟩ :=
      readPrefixed_announced_whole hne hflat hheader hsize hcapacity hwhole
    simp only [if_neg (Nat.not_lt_of_le hwhole)]
    refine ⟨_, left, hread, hleft, fun size' h => ?_⟩
    cases h
    have hpayload := length_message hwhole
    rw [Buffer.octets_overwrite hb (by rwa [hpayload]), hpayload]

/-- Two octets and one behind them, cut inside the length and inside the message, over what an earlier
message left in the buffer. -/
theorem read_eq_classify_two_octets :
    ∃ (b' : Buffer) (left : List Bytes),
      read .lengthPrefixed ⟨4, [5, 5, 5]⟩ ⟨[.piece [2, 0], .piece [0, 0, 7], .piece [8, 9]], .eof⟩ =
        (.done 2, b', ⟨left.map .piece, .eof⟩) ∧
      left.flatten = [9] ∧ b'.octets = [7, 8, 5, 0] := by
  obtain ⟨b', left, hread, hleft, hoctets⟩ :=
    @read_eq_classify [[2, 0], [0, 0, 7], [8, 9]] ⟨4, [5, 5, 5]⟩ (by decide) (by decide)
  exact ⟨b', left, hread, hleft, hoctets 2 rfl⟩

end Framer

end FlagSidecar
