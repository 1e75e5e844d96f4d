import FlagSidecar.Proofs.Link.Framing
import Mathlib.Data.List.Forall2

/-!
# FlagSidecar.Proofs.Link.RoundTrip: messages on a stream come back in order

Messages are written one after the other to a stream, and read one after the other into one buffer. What a
message leaves behind, in the pieces of the stream and in the buffer, is where the next one begins: so it
matters neither how much each write took, nor where reads cut the stream, nor what the buffer held before.
After the last message the stream has ended, and says so to every further read.

Main statement: `Framer.messages_come_back`.
-/

namespace FlagSidecar.Framer

/-- A read gave this message: its size, and the message in front of the buffer. -/
def Gives (payload : Bytes) (read : FrameOutcome × Buffer) : Prop :=
  read.1 = .done payload.length ∧ read.2.take payload.length = payload

/-- **What is written are the frames**, one after the other. -/
theorem writeMany_willing {payloads : List Bytes} {f : Outflow} (h : f.Willing)
    (hlimit : ∀ p ∈ payloads, p.length < 2 ^ 32) :
    ∃ f', writeMany .lengthPrefixed payloads f = (payloads.map fun p => .done p.length, f') ∧
      f'.written = f.written ++ payloads.flatMap (frame .lengthPrefixed) := by
  induction payloads generalizing f with
  | nil => exact ⟨f, rfl, (List.append_nil _).symm⟩
  | cons p rest ih =>
    obtain ⟨hp, hrest⟩ := List.forall_mem_cons.mp hlimit
    obtain ⟨f₁, hwrite, hwilling₁, hwritten₁⟩ := write_willing h hp
    obtain ⟨f₂, hwriteMany, hwritten₂⟩ := ih hwilling₁ hrest
    refine ⟨f₂, ?_, ?_⟩
    · rw [writeMany, hwrite]
      simp only [hwriteMany, List.map_cons]
    · rw [hwritten₂, hwritten₁, List.flatMap_cons, List.append_assoc]

/-- **Each read brings the next message**, and the pieces that are left have what is behind the last. The
induction is on the messages; the pieces and the buffer are those that the message before has left. -/
theorem readMany_pieces {payloads pieces : List Bytes} {rest : Bytes} {b : Buffer} (ending : Ending)
    (hne : ∀ p ∈ pieces, p ≠ [])
    (hflat : pieces.flatten = payloads.flatMap (frame .lengthPrefixed) ++ rest)
    (hfits : ∀ p ∈ payloads, p.length < 2 ^ 32 ∧ p.length ≤ b.capacity) (more : Nat) :
    ∃ (reads : List (FrameOutcome × Buffer)) (b' : Buffer) (left : List Bytes),
      (∀ p ∈ left, p ≠ []) ∧ left.flatten = rest ∧ List.Forall₂ Gives payloads reads ∧
        readMany .lengthPrefixed (payloads.length + more) b ⟨pieces.map .piece, ending⟩ =
          (reads ++ (readMany .lengthPrefixed more b' ⟨left.map .piece, ending⟩).1,
            (readMany .lengthPrefixed more b' ⟨left.map .piece, ending⟩).2) := by
  induction payloads generalizing pieces b with
  | nil =>
    refine ⟨[], b, pieces, hne, hflat, .nil, ?_⟩
    rw [List.length_nil, Nat.zero_add]
    rfl
  | cons p payloads ih =>
    obtain ⟨⟨hlimit, hcapacity⟩, hpayloads⟩ := List.forall_mem_cons.mp hfits
    rw [List.flatMap_cons, List.append_assoc] at hflat
    -- the rest of the messages are in the pieces that this one leaves behind
    obtain ⟨behind, hbehind, hflat', hread⟩ :=
      readPrefixed_pieces ending hne hflat hlimit hcapacity
    obtain ⟨reads, b', left, hleft, hrest, hreads, hreadMany⟩ :=
      ih (b := b.overwrite p) hbehind hflat' hpayloads
    refine ⟨(.done p.length, b.overwrite p) :: reads, b', left, hleft, hrest,
      .cons ⟨rfl, b.take_overwrite p⟩ hreads, ?_⟩
    rw [List.length_cons, Nat.add_right_comm, readMany, read, hread]
    simp only [hreadMany, List.cons_append]

/-- A stream that has ended says so to every read. -/
theorem readMany_eof (count : Nat) (b : Buffer) :
    readMany .lengthPrefixed count b ⟨[], .eof⟩ =
      (List.replicate count (.failed .eof, b), ⟨[], .eof⟩) := by
  induction count with
  | zero => rfl
  | succ count ih =>
    have hread : read .lengthPrefixed b ⟨[], .eof⟩ = (.failed .eof, b, ⟨[], .eof⟩) := rfl
    rw [readMany, hread]
    simp only [ih, List.replicate_succ]

/-- **Messages come back as they were written and in order**, and then the stream ends: however much each
write takes, however the octets are cut for the reads, and whatever the buffer holds. -/
theorem messages_come_back {payloads : List Bytes} {f : Outflow} {b : Buffer} (hwilling : f.Willing)
    (hfits : ∀ p ∈ payloads, p.length < 2 ^ 32 ∧ p.length ≤ b.capacity) :
    ∃ f', writeMany .lengthPrefixed payloads f = (payloads.map fun p => .done p.length, f') ∧
      f'.written = f.written ++ payloads.flatMap (frame .lengthPrefixed) ∧
      ∀ (pieces : List Bytes) (more : Nat), (∀ p ∈ pieces, p ≠ []) →
        f'.written = f.written ++ pieces.flatten →
        ∃ (reads : List (FrameOutcome × Buffer)) (b' : Buffer), List.Forall₂ Gives payloads reads ∧
          readMany .lengthPrefixed (payloads.length + more) b ⟨pieces.map .piece, .eof⟩ =
            (reads ++ List.replicate more (.failed .eof, b'), ⟨[], .eof⟩) := by
  obtain ⟨f', hwrite, hwritten⟩ := writeMany_willing hwilling fun p hp => (hfits p hp).1
  refine ⟨f', hwrite, hwritten, fun pieces more hne hsent => ?_⟩
  have hflat : pieces.flatten = payloads.flatMap (frame .lengthPrefixed) ++ [] := by
    rw [List.append_nil]
    exact List.append_cancel_left (hsent.symm.trans hwritten)
  obtain ⟨reads, b', left, hleft, hrest, hreads, hreadMany⟩ :=
    readMany_pieces .eof hne hflat hfits more
  have hnil : left = [] := Bytes.eq_nil_of_flatten_eq_nil hleft hrest
  subst hnil
  refine ⟨reads, b', hreads, ?_⟩
  rw [hreadMany, List.map_nil, readMany_eof]

/-- Five octets, none and one, read in pieces that cut both the first length and the last and that go over
the ends of messages, into a buffer that the first message fills. -/
theorem messages_come_back_over_cuts :
    ∃ f', writeMany .lengthPrefixed [[1, 2, 3, 4, 5], [], [7]]
        { acceptances := [.upTo 1, .upTo 6], tail := .unlimited } =
          ([.done 5, .done 0, .done 1], f') ∧
      f'.written = [5, 0, 0, 0, 1, 2, 3, 4, 5, 0, 0, 0, 0, 1, 0, 0, 0, 7] ∧
      ∃ (reads : List (FrameOutcome × Buffer)) (b' : Buffer),
        List.Forall₂ Gives [[1, 2, 3, 4, 5], [], [7]] reads ∧
          readMany .lengthPrefixed (3 + 1) ⟨5, [9, 9, 9, 9, 9]⟩
            ⟨[.piece [5, 0], .piece [0, 0, 1, 2], .piece [3, 4, 5, 0, 0], .piece [0, 0, 1, 0],
              .piece [0, 0, 7]], .eof⟩ =
            (reads ++ [(.failed .eof, b')], ⟨[], .eof⟩) := by
  have hwilling : Outflow.Willing { acceptances := [.upTo 1, .upTo 6], tail := .unlimited } := by
    refine ⟨fun a ha => ?_, rfl⟩
    rcases List.mem_pair.mp ha with rfl | rfl
    · exact ⟨0, rfl⟩
    · exact ⟨5, rfl⟩
  have hfits : ∀ p ∈ ([[1, 2, 3, 4, 5], [], [7]] : List Bytes),
      p.length < 2 ^ 32 ∧ p.length ≤ (⟨5, [9, 9, 9, 9, 9]⟩ : Buffer).capacity := by
    decide
  obtain ⟨f', hwrite, hwritten, hread⟩ := messages_come_back hwilling hfits
  refine ⟨f', hwrite, hwritten, ?_⟩
  exact hread [[5, 0], [0, 0, 1, 2], [3, 4, 5, 0, 0], [0, 0, 1, 0], [0, 0, 7]] 1 (by decide) hwritten

end FlagSidecar.Framer
