import FlagSidecar.Proofs.Link.Framing

/-!
# FlagSidecar.Proofs.Link.CutOff: messages that do not come whole

A stream may stop inside a message: it has ended, or it stalls. Then no message is read, and what there was
of it is gone. An end is clean if it comes between messages, that is where the first read of a message
meets it. A message that is longer than the buffer is refused when its length is known, and stays where it
is.

Main statements: `Framer.readPrefixed_cutOff`, `Framer.readPrefixed_oversized`, `Framer.read_eq_eof_iff`.
-/

namespace FlagSidecar

/-- What a read comes to where a flow stops. -/
def Ending.stop : Ending → ReadOutcome
  | eof => .octets []
  | stalled => .stalled

/-- What is wrong with a stream that ends after so many octets of a message. -/
def FramingError.cutOff (got : Nat) : FramingError :=
  if got = 0 then .eof
  else if got < Framer.prefixSize then .insufficientHeader got
  else .io .unexpectedEof

/-- Once the length is known, an end is one inside the message. -/
theorem FramingError.cutOff_of_header {got : Nat} (h : Framer.prefixSize ≤ got) :
    cutOff got = .io .unexpectedEof := by
  have hnonzero : got ≠ 0 := by
    rintro rfl
    exact absurd h (by decide)
  rw [cutOff, if_neg hnonzero, if_neg (Nat.not_lt_of_le h)]

/-- What reading a message comes to if the stream stops after so many of its octets. -/
def Ending.cutOff : Ending → (got : Nat) → FrameOutcome
  | stalled, _ => .stalled
  | eof, got => .failed (.cutOff got)

namespace Framer

/-- Where fewer octets come than are wanted, all of them are read and the stop is met. -/
theorem readExactly_cutOff {fuel wanted : Nat} {pieces : List Bytes} (ending : Ending)
    (hne : ∀ p ∈ pieces, p ≠ []) (hshort : pieces.flatten.length < wanted) (hfuel : wanted ≤ fuel) :
    readExactly fuel wanted ⟨pieces.map .piece, ending⟩ =
      (ending.stop, pieces.flatten, ⟨[], ending⟩) := by
  -- on the pieces, each of which is shorter than what is wanted
  induction pieces generalizing fuel wanted with
  | nil =>
    obtain ⟨fuel, rfl⟩ := Nat.exists_eq_add_one.mpr (Nat.lt_of_lt_of_le hshort hfuel)
    obtain ⟨wanted, rfl⟩ := Nat.exists_eq_add_one.mpr hshort
    cases ending <;> rfl
  | cons p pieces ih =>
    have hp : p ≠ [] := hne p List.mem_cons_self
    have hpos : 0 < p.length := List.length_pos_iff.mpr hp
    rw [List.flatten_cons, List.length_append] at hshort
    obtain ⟨fuel, rfl⟩ := Nat.exists_eq_add_one.mpr (show 0 < fuel by omega)
    have hrest : readExactly fuel (wanted - p.length) ⟨pieces.map .piece, ending⟩ =
        (ending.stop, pieces.flatten, ⟨[], ending⟩) :=
      ih (fun q hq => hne q (List.mem_cons_of_mem p hq)) (by omega) (by omega)
    rw [readExactly_short hp (by omega), hrest]
    rfl

/-- A stream that stops inside a length, or before it. -/
theorem readPrefixed_cutOff_header {pieces : List Bytes} (b : Buffer) (ending : Ending)
    (hne : ∀ p ∈ pieces, p ≠ []) (hlt : pieces.flatten.length < prefixSize) :
    readPrefixed b ⟨pieces.map .piece, ending⟩ =
      (ending.cutOff pieces.flatten.length, b, ⟨[], ending⟩) := by
  rw [readPrefixed, readExactly_cutOff ending hne hlt (Nat.le_refl _)]
  cases ending with
  | stalled => rfl
  | eof =>
    simp only [Ending.stop, Ending.cutOff, FramingError.cutOff, if_pos hlt]
    by_cases hempty : pieces.flatten = []
    · rw [hempty]
      rfl
    · rw [if_neg (by rwa [List.isEmpty_iff]), if_neg (by rwa [List.length_eq_zero_iff])]

/-- **A message that does not come whole is not read**, and nothing of it is left. -/
theorem readPrefixed_cutOff {pieces : List Bytes} {payload : Bytes} {b : Buffer} (ending : Ending)
    (hne : ∀ p ∈ pieces, p ≠ []) (hbegins : pieces.flatten <+: frame .lengthPrefixed payload)
    (hshort : pieces.flatten.length < (frame .lengthPrefixed payload).length)
    (hlimit : payload.length < 2 ^ 32) (hcapacity : payload.length ≤ b.capacity) :
    ∃ b', b'.capacity = b.capacity ∧ readPrefixed b ⟨pieces.map .piece, ending⟩ =
      (ending.cutOff pieces.flatten.length, b', ⟨[], ending⟩) := by
  have hheader := length_header payload.length
  rcases Nat.lt_or_ge pieces.flatten.length prefixSize with hlt | hge
  · exact ⟨b, rfl, readPrefixed_cutOff_header b ending hne hlt⟩
  · -- the prefix is whole, and the stop is inside the message
    obtain ⟨body, hbody⟩ : Bytes.littleEndian prefixSize payload.length <+: pieces.flatten :=
      List.prefix_of_prefix_length_le ⟨payload, rfl⟩ hbegins (by rw [hheader]; exact hge)
    obtain ⟨left, hleft, hflat, hread⟩ :=
      readExactly_pieces ending hne hbody.symm (Nat.le_refl _)
    have hlength : pieces.flatten.length = prefixSize + body.length := by
      rw [← hbody, List.length_append, hheader]
    have hbodyShort : left.flatten.length < payload.length := by
      rw [frame, List.length_append, hheader] at hshort
      rw [hflat]
      omega
    have hread' := readExactly_cutOff ending hleft hbodyShort (Nat.le_refl _)
    rw [hheader] at hread
    refine ⟨b.overwrite left.flatten, rfl, ?_⟩
    rw [readPrefixed, hread]
    simp only [hheader, Nat.lt_irrefl, if_false, ofLittleEndian_header hlimit,
      if_neg (Nat.not_lt_of_le hcapacity), hread', hlength]
    cases ending with
    | stalled => rfl
    | eof =>
      simp only [Ending.stop, Ending.cutOff, if_pos hbodyShort,
        FramingError.cutOff_of_header (Nat.le_add_right prefixSize body.length)]

/-- **A message that the buffer has no room for is refused**, and what is there of it is left. -/
theorem readPrefixed_oversized {pieces : List Bytes} {payload rest : Bytes} {b : Buffer}
    (ending : Ending) (hne : ∀ p ∈ pieces, p ≠ [])
    (hflat : pieces.flatten = Bytes.littleEndian prefixSize payload.length ++ rest)
    (hlimit : payload.length < 2 ^ 32) (hcapacity : b.capacity < payload.length) :
    ∃ left : List Bytes, left.flatten = rest ∧ readPrefixed b ⟨pieces.map .piece, ending⟩ =
      (.failed (.oversized payload.length b.capacity), b, ⟨left.map .piece, ending⟩) := by
  obtain ⟨left, -, hrest, hread⟩ := readExactly_pieces ending hne hflat (Nat.le_refl _)
  rw [length_header] at hread
  refine ⟨left, hrest, ?_⟩
  rw [readPrefixed, hread]
  simp only [length_header, Nat.lt_irrefl, if_false, ofLittleEndian_header hlimit, if_pos hcapacity]

/-- **A message that fills the buffer is refused** on a socket that keeps messages apart, and nothing of it is
left. -/
theorem readDatagram_oversized {payload : Bytes} {b : Buffer} (ending : Ending) (hpos : 0 < b.capacity)
    (hcapacity : b.capacity ≤ payload.length) :
    readDatagram b ⟨[.datagram payload], ending⟩ =
      (.failed (.bufferTooSmall b.capacity), b.overwrite (payload.take b.capacity), ⟨[], ending⟩) := by
  have hfull : (payload.take b.capacity).length =
      (b.overwrite (payload.take b.capacity)).capacity := by
    show _ = b.capacity
    rw [List.length_take, Nat.min_eq_left hcapacity]
  have hne : ¬ (payload.take b.capacity).isEmpty = true := by
    rw [List.isEmpty_iff_length_eq_zero, List.length_take, Nat.min_eq_left hcapacity]
    exact Nat.ne_of_gt hpos
  rw [readDatagram, Inflow.read]
  simp only [if_pos hfull, if_neg hne]
  rfl

/-! ## Clean ends -/

/-- How many octets the first read of a message asks for. -/
def firstRoom : Framer → Buffer → Nat
  | null, b => b.capacity
  | lengthPrefixed, _ => prefixSize

/-- **An end is clean exactly if the first read of a message meets it.** -/
theorem read_eq_eof_iff (framer : Framer) (b : Buffer) (f : Inflow) :
    (framer.read b f).1 = .failed .eof ↔ (f.read (framer.firstRoom b)).1 = .octets [] := by
  cases framer with
  | null =>
    show (readDatagram b f).1 = _ ↔ (f.read b.capacity).1 = _
    unfold readDatagram
    generalize f.read b.capacity = first
    obtain ⟨outcome, f⟩ := first
    cases outcome with
    | failed e => simp
    | stalled => simp
    | octets bs =>
      cases bs with
      | nil => simp
      | cons byte rest =>
        simp only [List.isEmpty_cons, Bool.false_eq_true, if_false]
        split <;> simp
  | lengthPrefixed =>
    show (readPrefixed b f).1 = _ ↔ (f.read prefixSize).1 = _
    unfold readPrefixed
    -- a length is wanted, so there is a first read
    have hwanted : prefixSize ≠ 0 := by decide
    rw [show readExactly prefixSize prefixSize f = readExactly (3 + 1) prefixSize f from rfl,
      readExactly.eq_3 _ _ _ hwanted]
    generalize f.read prefixSize = first
    obtain ⟨outcome, f⟩ := first
    cases outcome with
    | failed e => simp
    | stalled => simp
    | octets bs =>
      cases bs with
      | nil => simp [prefixSize]
      | cons byte rest =>
        -- an octet has come, so whatever the message comes to, the end was not clean
        simp only [List.cons_append]
        refine iff_of_false ?_ (by simp)
        generalize readExactly 3 _ f = header
        obtain ⟨outcome, more, f⟩ := header
        cases outcome with
        | failed e => simp
        | stalled => simp
        | octets bs =>
          simp only
          split
          · simp
          · split
            · simp
            · split
              · simp
              · simp
              · split <;> simp

end Framer

end FlagSidecar
