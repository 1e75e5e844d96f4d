import FlagSidecar.Link.Terminal

/-!
# FlagSidecar.Proofs.Link.Framing: messages come through whole

However a stream is cut into pieces, and however much each write takes, a message that was written is
read as it was, and nothing of what follows it is read with it. The pieces are not empty, since a read
without octets is the end of a stream.

Main statements: `Framer.readPrefixed_pieces`, `Framer.write_willing`, `Framer.read_deliveries` and
`Framer.write_acceptances`.
-/

namespace FlagSidecar

/-! ## Pieces -/

namespace Bytes

theorem flatten_cut (sizes : List Nat) (octets : Bytes) : (cut sizes octets).flatten = octets := by
  induction sizes generalizing octets with
  | nil => cases octets <;> simp [cut]
  | cons n sizes ih =>
    cases octets with
    | nil => rfl
    | cons b rest => rw [cut, List.flatten_cons, ih, List.cons_append, List.take_append_drop]

theorem ne_nil_of_mem_cut {sizes : List Nat} {octets piece : Bytes} (h : piece ∈ cut sizes octets) :
    piece ≠ [] := by
  induction sizes generalizing octets with
  | nil =>
    cases octets with
    | nil => cases h
    | cons b rest =>
      rw [cut, List.mem_singleton] at h
      rw [h]
      exact List.cons_ne_nil b rest
  | cons n sizes ih =>
    cases octets with
    | nil => cases h
    | cons b rest =>
      rw [cut, List.mem_cons] at h
      rcases h with rfl | h
      · exact List.cons_ne_nil b _
      · exact ih h

/-- **Every division into pieces is a cut.** -/
theorem exists_cut_eq {pieces : List Bytes} (hne : ∀ p ∈ pieces, p ≠ []) :
    ∃ sizes, cut sizes pieces.flatten = pieces := by
  induction pieces with
  | nil => exact ⟨[], rfl⟩
  | cons p rest ih =>
    obtain ⟨sizes, hsizes⟩ := ih fun q hq => hne q (List.mem_cons_of_mem p hq)
    cases p with
    | nil => exact absurd rfl (hne [] List.mem_cons_self)
    | cons b bs =>
      refine ⟨bs.length :: sizes, ?_⟩
      rw [List.flatten_cons, List.cons_append, cut, List.take_left, List.drop_left, hsizes]

/-- Pieces of which none is empty make up no octets only if there are none. -/
theorem eq_nil_of_flatten_eq_nil {pieces : List Bytes} (hne : ∀ p ∈ pieces, p ≠ [])
    (h : pieces.flatten = []) : pieces = [] := by
  cases pieces with
  | nil => rfl
  | cons p rest => exact absurd (List.append_eq_nil_iff.mp h).1 (hne p List.mem_cons_self)

end Bytes

/-! ## Buffers -/

/-- What was written over the start of a buffer is what is taken from it. -/
theorem Buffer.take_overwrite (b : Buffer) (octets : Bytes) :
    (b.overwrite octets).take octets.length = octets := by
  have hlength : octets.length ≤ (octets ++ b.front.drop octets.length).length := by
    rw [List.length_append]
    exact Nat.le_add_right _ _
  have hzeros : min octets.length b.capacity - (octets ++ b.front.drop octets.length).length = 0 := by
    omega
  rw [overwrite, take]
  simp only
  rw [hzeros, List.replicate_zero, List.append_nil, List.take_left]

/-- Behind what was written over the start of a buffer is what was there before. -/
theorem Buffer.octets_overwrite {b : Buffer} {bs : Bytes} (hb : b.front.length ≤ b.capacity)
    (hbs : bs.length ≤ b.capacity) : (b.overwrite bs).octets = bs ++ b.octets.drop bs.length := by
  have hzeros : b.capacity - (bs.length + (b.front.length - bs.length)) =
      b.capacity - b.front.length - (bs.length - b.front.length) := by omega
  simp only [octets, overwrite, List.append_assoc, List.drop_append, List.length_append,
    List.length_drop, List.drop_replicate, hzeros]

/-! ## Flows -/

/-- Every write takes an octet at least. -/
structure Outflow.Willing (f : Outflow) : Prop where
  accepts : ∀ a ∈ f.acceptances, ∃ n, a = .upTo (n + 1)
  tail_eq : f.tail = .unlimited

namespace Framer

/-! ## Reading -/

theorem read_piece_short {room : Nat} {p : Bytes} (hlen : p.length ≤ room) (pieces : List Bytes)
    (ending : Ending) :
    Inflow.read room ⟨(p :: pieces).map .piece, ending⟩ =
      (.octets p, ⟨pieces.map .piece, ending⟩) := by
  rw [List.map_cons, Inflow.read]
  simp only [List.take_of_length_le hlen, List.drop_of_length_le hlen, List.isEmpty_nil, if_true]

theorem read_piece_long {room : Nat} {p : Bytes} (hlen : room < p.length) (pieces : List Bytes)
    (ending : Ending) :
    Inflow.read room ⟨(p :: pieces).map .piece, ending⟩ =
      (.octets (p.take room), ⟨(p.drop room :: pieces).map .piece, ending⟩) := by
  have hleft : ¬ (p.drop room).isEmpty = true := by
    rw [List.isEmpty_iff, List.drop_eq_nil_iff]
    exact Nat.not_le_of_lt hlen
  rw [List.map_cons, Inflow.read]
  simp only [if_neg hleft, List.map_cons]

/-- A piece that is wanted as a whole is read, and then what is wanted beyond it. -/
theorem readExactly_short {fuel wanted : Nat} {p : Bytes} (hne : p ≠ []) (hlen : p.length ≤ wanted)
    (pieces : List Bytes) (ending : Ending) :
    readExactly (fuel + 1) wanted ⟨(p :: pieces).map .piece, ending⟩ =
      let (outcome, more, f) := readExactly fuel (wanted - p.length) ⟨pieces.map .piece, ending⟩
      (outcome, p ++ more, f) := by
  have hpos : 0 < p.length := List.length_pos_iff.mpr hne
  cases wanted with
  | zero => exact absurd (Nat.lt_of_lt_of_le hpos hlen) (Nat.lt_irrefl 0)
  | succ n =>
    cases p with
    | nil => exact absurd rfl hne
    | cons b bs =>
      rw [readExactly, read_piece_short hlen]
      exact Nat.succ_ne_zero n

/-- Of a piece that brings more than is wanted the rest is left. -/
theorem readExactly_long {fuel wanted : Nat} {p : Bytes} (hpos : 0 < wanted)
    (hlen : wanted < p.length) (pieces : List Bytes) (ending : Ending) :
    readExactly (fuel + 1) wanted ⟨(p :: pieces).map .piece, ending⟩ =
      (.octets [], p.take wanted, ⟨(p.drop wanted :: pieces).map .piece, ending⟩) := by
  cases wanted with
  | zero => exact absurd hpos (Nat.lt_irrefl 0)
  | succ n =>
    cases p with
    | nil => exact absurd hlen (Nat.not_lt_zero _)
    | cons b bs =>
      have hread := read_piece_long hlen pieces ending
      have hdone : n + 1 - (b :: bs.take n).length = 0 := by
        rw [List.length_cons, List.length_take]
        have hbs : n < bs.length := Nat.lt_of_succ_lt_succ hlen
        omega
      rw [readExactly, hread]
      · simp only [List.take_succ_cons, hdone]
        cases fuel <;> simp [readExactly]
      · exact Nat.succ_ne_zero n

/-- **Exactly the wanted octets are read**, in however many pieces they come; what is left is again in
pieces. The induction is on the number of octets that may still be wanted: each read brings one at
least. -/
theorem readExactly_pieces {fuel : Nat} {pieces : List Bytes} {wanted rest : Bytes}
    (ending : Ending) (hne : ∀ p ∈ pieces, p ≠ []) (hflat : pieces.flatten = wanted ++ rest)
    (hfuel : wanted.length ≤ fuel) :
    ∃ left : List Bytes, (∀ p ∈ left, p ≠ []) ∧ left.flatten = rest ∧
      readExactly fuel wanted.length ⟨pieces.map .piece, ending⟩ =
        (.octets [], wanted, ⟨left.map .piece, ending⟩) := by
  induction fuel generalizing pieces wanted with
  | zero =>
    have hnil : wanted = [] := List.length_eq_zero_iff.mp (Nat.le_zero.mp hfuel)
    subst hnil
    exact ⟨pieces, hne, hflat, rfl⟩
  | succ fuel ih =>
    cases pieces with
    | nil =>
      have hnil : wanted = [] := (List.append_eq_nil_iff.mp hflat.symm).1
      subst hnil
      exact ⟨[], hne, hflat, rfl⟩
    | cons p pieces =>
      have hp : p ≠ [] := hne p List.mem_cons_self
      have hpieces : ∀ q ∈ pieces, q ≠ [] := fun q hq => hne q (List.mem_cons_of_mem p hq)
      have hpos : 0 < p.length := List.length_pos_iff.mpr hp
      rw [List.flatten_cons] at hflat
      rcases Nat.lt_or_ge wanted.length p.length with hlen | hlen
      · -- the piece brings more than is wanted: its end is the first piece of what is left
        obtain ⟨after, rfl⟩ : wanted <+: p :=
          List.prefix_of_prefix_length_le ⟨rest, hflat.symm⟩ ⟨pieces.flatten, rfl⟩ (Nat.le_of_lt hlen)
        rw [List.append_assoc, List.append_cancel_left_eq] at hflat
        cases wanted with
        | nil => exact ⟨after :: pieces, hne, hflat, rfl⟩
        | cons w ws =>
          refine ⟨after :: pieces, List.forall_mem_cons.mpr ⟨?_, hpieces⟩, hflat, ?_⟩
          · rw [List.length_append] at hlen
            exact List.length_pos_iff.mp (by omega)
          · have hwanted : 0 < (w :: ws).length := List.length_pos_iff.mpr (List.cons_ne_nil w ws)
            rw [readExactly_long hwanted hlen, List.take_left, List.drop_left]
      · -- the piece is wanted as a whole: what is wanted beyond it comes from the others
        obtain ⟨more, rfl⟩ : p <+: wanted :=
          List.prefix_of_prefix_length_le ⟨pieces.flatten, rfl⟩ ⟨rest, hflat.symm⟩ hlen
        rw [List.append_assoc, List.append_cancel_left_eq] at hflat
        rw [List.length_append] at hfuel
        obtain ⟨left, hleft, hrest, hread⟩ := ih hpieces hflat (by omega)
        refine ⟨left, hleft, hrest, ?_⟩
        rw [readExactly_short hp hlen, List.length_append, Nat.add_sub_cancel_left, hread]

theorem limit_le (framer : Framer) : framer.limit ≤ 2 ^ 64 := by
  cases framer <;> decide

theorem frame_lengthPrefixed_ne_nil (payload : Bytes) : frame .lengthPrefixed payload ≠ [] :=
  fun hnil => by cases hnil

/-- A message that is anything at all is something on the wire. -/
theorem frame_ne_nil (framer : Framer) {payload : Bytes} (hne : payload ≠ []) :
    framer.frame payload ≠ [] := by
  cases framer with
  | null => exact hne
  | lengthPrefixed => exact frame_lengthPrefixed_ne_nil payload

theorem length_header (size : Nat) : (Bytes.littleEndian prefixSize size).length = prefixSize :=
  Bytes.length_littleEndian _ _

theorem ofLittleEndian_header {size : Nat} (hlimit : size < 2 ^ 32) :
    Bytes.ofLittleEndian (Bytes.littleEndian prefixSize size) = size := by
  rw [Bytes.ofLittleEndian_littleEndian]
  exact Nat.mod_eq_of_lt hlimit

/-- **A message that follows its length is read whole**, and what is behind it is left. -/
theorem readPrefixed_pieces {pieces : List Bytes} {payload rest : Bytes} {b : Buffer}
    (ending : Ending) (hne : ∀ p ∈ pieces, p ≠ [])
    (hflat : pieces.flatten = frame .lengthPrefixed payload ++ rest)
    (hlimit : payload.length < 2 ^ 32) (hcapacity : payload.length ≤ b.capacity) :
    ∃ left : List Bytes, (∀ p ∈ left, p ≠ []) ∧ left.flatten = rest ∧
      readPrefixed b ⟨pieces.map .piece, ending⟩ =
        (.done payload.length, b.overwrite payload, ⟨left.map .piece, ending⟩) := by
  have hheader := length_header payload.length
  -- the prefix is read first, and the message from the pieces that this leaves
  rw [frame, List.append_assoc] at hflat
  obtain ⟨behind, hbehind, hflat', hread⟩ :=
    readExactly_pieces ending hne hflat (Nat.le_refl _)
  obtain ⟨left, hleft, hrest, hread'⟩ :=
    readExactly_pieces ending hbehind hflat' (Nat.le_refl payload.length)
  refine ⟨left, hleft, hrest, ?_⟩
  rw [hheader] at hread
  rw [readPrefixed, hread]
  simp only [hheader, Nat.lt_irrefl, if_false, ofLittleEndian_header hlimit,
    if_neg (Nat.not_lt_of_le hcapacity), hread']

/-- What reading a message of this length comes to if it arrives apart from the others. -/
def classifyApart (capacity length : Nat) : FrameOutcome :=
  if length = 0 then .failed .eof
  else if length < capacity then .done length
  else .failed (.bufferTooSmall capacity)

/-- One read takes one message, cut or not, and the next is in front. What is read fills the buffer exactly if
the message would, so the outcome is known from the length of the message. -/
theorem readDatagram_apart {message : Bytes} {b : Buffer} (hroom : 0 < b.capacity)
    (rest : List Delivery) (ending : Ending) :
    readDatagram b ⟨.datagram message :: rest, ending⟩ =
      (classifyApart b.capacity message.length, b.overwrite (message.take b.capacity),
        ⟨rest, ending⟩) := by
  have hlength : (message.take b.capacity).length = min b.capacity message.length :=
    List.length_take
  have hempty : (message.take b.capacity).isEmpty = true ↔ message.length = 0 := by
    rw [List.isEmpty_iff, ← List.length_eq_zero_iff]
    omega
  have hfull : (message.take b.capacity).length =
      (b.overwrite (message.take b.capacity)).capacity ↔ ¬ message.length < b.capacity := by
    show _ = b.capacity ↔ _
    omega
  rw [readDatagram, Inflow.read]
  simp only [hempty, hfull, classifyApart]
  split
  · rfl
  · split
    · rfl
    · rename_i hlt
      have hlt := Decidable.not_not.mp hlt
      rw [List.take_of_length_le (Nat.le_of_lt hlt), if_pos hlt]

/-- A message that arrives as a whole is read if the buffer has room for more. -/
theorem readDatagram_whole {payload : Bytes} {b : Buffer} (ending : Ending) (hne : payload ≠ [])
    (hcapacity : payload.length < b.capacity) :
    readDatagram b ⟨[.datagram payload], ending⟩ =
      (.done payload.length, b.overwrite payload, ⟨[], ending⟩) := by
  have hpos : 0 < payload.length := List.length_pos_iff.mpr hne
  rw [readDatagram_apart (Nat.lt_trans hpos hcapacity), classifyApart, if_neg (Nat.ne_of_gt hpos),
    if_pos hcapacity, List.take_of_length_le (Nat.le_of_lt hcapacity)]

/-- **A message is read as it was written**, by either framer and however it travelled. -/
theorem read_deliveries (framer : Framer) (p : Passage) (ending : Ending) {payload : Bytes}
    {b : Buffer} (hne : payload ≠ []) (hcapacity : payload.length < b.capacity)
    (hlimit : payload.length < framer.limit) :
    framer.read b ⟨framer.deliveries p (framer.frame payload), ending⟩ =
      (.done payload.length, b.overwrite payload, ⟨[], ending⟩) := by
  cases framer with
  | null =>
    cases payload with
    | nil => exact absurd rfl hne
    | cons byte rest => exact readDatagram_whole ending hne hcapacity
  | lengthPrefixed =>
    have hflat : (Bytes.cut p.reads (frame .lengthPrefixed payload)).flatten =
        frame .lengthPrefixed payload ++ [] := by
      rw [Bytes.flatten_cut, List.append_nil]
    obtain ⟨left, hleft, hrest, hread⟩ := readPrefixed_pieces ending
      (fun _ => Bytes.ne_nil_of_mem_cut) hflat hlimit (Nat.le_of_lt hcapacity)
    rw [Bytes.eq_nil_of_flatten_eq_nil hleft hrest] at hread
    exact hread

/-! ## Writing -/

/-- A write takes an octet at least, and so will the next. -/
theorem write_takes {octets : Bytes} {f : Outflow} (hne : octets ≠ []) (h : f.Willing) :
    ∃ n f', f.write octets = (.accepted (n + 1), f') ∧ f'.Willing ∧
      f'.written = f.written ++ octets.take (n + 1) := by
  obtain ⟨acceptances, tail, written, writes, flushes⟩ := f
  obtain ⟨haccepts, htail⟩ := h
  simp only at haccepts htail
  subst htail
  have hpos : 0 < octets.length := List.length_pos_iff.mpr hne
  cases acceptances with
  | nil =>
    have hlength : octets.length - 1 + 1 = octets.length := by omega
    refine ⟨octets.length - 1, ⟨[], .unlimited, written ++ octets, writes + 1, flushes⟩, ?_,
      ⟨haccepts, rfl⟩, ?_⟩
    · rw [Outflow.write, hlength]
      simp only [List.take_length]
    · rw [hlength, List.take_length]
  | cons a rest =>
    obtain ⟨⟨size, rfl⟩, hrest⟩ := List.forall_mem_cons.mp haccepts
    have hlength : min (size + 1) octets.length - 1 + 1 = min (size + 1) octets.length := by omega
    refine ⟨min (size + 1) octets.length - 1,
      ⟨rest, .unlimited, written ++ octets.take (size + 1), writes + 1, flushes⟩, ?_,
      ⟨hrest, rfl⟩, ?_⟩
    · rw [Outflow.write, hlength]
      simp only [List.length_take]
    · rw [hlength, ← List.take_eq_take_min]

/-- **All octets are written**, however much each write takes. The induction is on the number of octets
that may still be written: each write takes one at least. -/
theorem writeAll_willing {fuel : Nat} {octets : Bytes} {f : Outflow} (h : f.Willing)
    (hfuel : octets.length ≤ fuel) :
    ∃ f', writeAll fuel octets f = (.accepted 0, f') ∧ f'.Willing ∧
      f'.written = f.written ++ octets := by
  induction fuel generalizing octets f with
  | zero =>
    have hnil : octets = [] := List.length_eq_zero_iff.mp (Nat.le_zero.mp hfuel)
    subst hnil
    exact ⟨f, by rw [writeAll], h, (List.append_nil f.written).symm⟩
  | succ fuel ih =>
    cases octets with
    | nil => exact ⟨f, by rw [writeAll], h, (List.append_nil f.written).symm⟩
    | cons b bs =>
      -- what a write takes is never nothing, which would be an error
      obtain ⟨n, f₁, hwrite, hwilling₁, hwritten₁⟩ := write_takes (List.cons_ne_nil b bs) h
      have hdrop : ((b :: bs).drop (n + 1)).length ≤ fuel := by
        rw [List.length_drop]
        omega
      obtain ⟨f₂, hwriteAll, hwilling₂, hwritten₂⟩ := ih hwilling₁ hdrop
      refine ⟨f₂, ?_, hwilling₂, ?_⟩
      · rw [writeAll, hwrite]
        · exact hwriteAll
        · exact List.cons_ne_nil b bs
      · rw [hwritten₂, hwritten₁, List.append_assoc, List.take_append_drop]

/-- **A message is written to a stream behind its length.** -/
theorem write_willing {payload : Bytes} {f : Outflow} (h : f.Willing)
    (hlimit : payload.length < 2 ^ 32) :
    ∃ f', write .lengthPrefixed payload f = (.done payload.length, f') ∧ f'.Willing ∧
      f'.written = f.written ++ frame .lengthPrefixed payload := by
  obtain ⟨f', hwriteAll, hwilling, hwritten⟩ :=
    writeAll_willing h (Nat.le_refl (frame .lengthPrefixed payload).length)
  refine ⟨{ f' with flushes := f'.flushes + 1 }, ?_, ⟨hwilling.accepts, hwilling.tail_eq⟩, hwritten⟩
  have hprefix : ¬ 2 ^ 32 ≤ payload.length := Nat.not_le_of_lt hlimit
  rw [write, if_neg hprefix]
  simp only [hwriteAll]

/-- **A message is written as its frame**, by either framer and however it travels. -/
theorem write_acceptances (framer : Framer) (p : Passage) {payload : Bytes}
    (hlimit : payload.length < framer.limit) :
    ∃ f', framer.write payload { acceptances := framer.acceptances p, tail := .unlimited } =
        (.done payload.length, f') ∧
      f'.written = framer.frame payload := by
  cases framer with
  | null =>
    refine ⟨{ acceptances := [], tail := .unlimited, written := payload, writes := 1 }, ?_, rfl⟩
    simp [write, acceptances, Outflow.write]
  | lengthPrefixed =>
    have hwilling : Outflow.Willing
        { acceptances := acceptances .lengthPrefixed p, tail := .unlimited } := by
      refine ⟨fun a ha => ?_, rfl⟩
      obtain ⟨n, -, rfl⟩ := List.mem_map.mp ha
      exact ⟨n, rfl⟩
    obtain ⟨f', hwrite, -, hwritten⟩ := write_willing hwilling hlimit
    exact ⟨f', hwrite, hwritten⟩

end Framer

end FlagSidecar
