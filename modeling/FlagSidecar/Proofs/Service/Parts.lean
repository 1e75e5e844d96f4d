import FlagSidecar.Proofs.Queue.Capacity
import FlagSidecar.Service.Parts

/-!
# FlagSidecar.Proofs.Service.Parts: which settings can be run with

Settings are validated against zero only. That is enough for the lower limits of all parts, and says nothing
of the upper ones: there are settings that are good by their validation and ask for more places than can be
counted. What has to hold in addition is a bound for each number that a part is made for.

Main statements: `Config.validate_eq_ok_iff`, `Config.not_parts_fit_of_validate` and `Config.parts_fit_iff`.
-/

namespace FlagSidecar

/-! ## The limits of each part -/

namespace Part

theorem fits_places_iff (count : Nat) : (places count).Fits ↔ count < 2 ^ 61 := by
  show count ≤ placesLimit ↔ _
  unfold placesLimit
  omega

theorem fits_buffer_iff (size : Nat) : (buffer size).Fits ↔ size < 2 ^ 63 := by
  show size ≤ octetsLimit ↔ _
  unfold octetsLimit
  omega

/-- **A ring can be made exactly if some power of two above its size fits.** The ring gets the least. -/
theorem fits_ring_iff {α : Type} {size : UInt64} (hpos : 0 < size.toNat) (slotSize : Nat) :
    (ring (Ring.forSize size : Ring α).capacity slotSize).Fits ↔
      ∃ k, size.toNat < 2 ^ k ∧ 2 ^ k * slotSize < 2 ^ 63 := by
  obtain ⟨j, hj, hcapacity, habove, hleast⟩ := Capacity.toNat_forSize size
  rw [Ring.capacity_forSize, hcapacity]
  show 2 ^ (j + 1) * slotSize ≤ octetsLimit ↔ _
  unfold octetsLimit
  constructor
  · intro h
    rcases habove with hlt | rfl
    · exact ⟨j + 1, hlt, by omega⟩
    · -- of the greatest capacity only slots without octets fit
      have hslot : slotSize = 0 := by omega
      subst hslot
      exact ⟨64, size.toNat_lt, by omega⟩
  · rintro ⟨k, hlt, hfits⟩
    have hbelow : 2 ^ j < 2 ^ k := by
      rcases hleast with rfl | hhalf <;> omega
    have hle : 2 ^ (j + 1) ≤ 2 ^ k :=
      Nat.pow_le_pow_right (by omega) ((Nat.pow_lt_pow_iff_right (show 1 < 2 by omega)).mp hbelow)
    have := Nat.mul_le_mul_right slotSize hle
    omega

/-- A timer for whole seconds is set exactly if there are any, and the clock can show when they are over. -/
theorem fits_timer_iff (clock : Span) (secs : Nat) :
    (timer clock (.ofSeconds secs)).Fits ↔ 0 < secs ∧ clock.seconds + secs < 2 ^ 63 := by
  have hzero : Span.ofSeconds secs ≠ ⟨0⟩ ↔ 0 < secs := by
    rw [Ne, Span.ofSeconds, Span.mk.injEq]
    omega
  have hseconds : (clock.add (.ofSeconds secs)).seconds = clock.seconds + secs := by
    simp only [Span.seconds, Span.add, Span.ofSeconds]
    omega
  show _ ∧ _ ≤ secondsLimit ↔ _
  rw [hzero, hseconds]
  unfold secondsLimit
  omega

end Part

namespace Config

/-- **Settings are good by their validation** if the encoding is known, no number that must be positive is
zero, and there is a path. -/
theorem validate_eq_ok_iff (c : Config) :
    c.validate = .ok () ↔ (∃ codec, c.link.codec = .ok codec) ∧ (∀ s ∈ c.positive, s.2 ≠ 0) ∧
      c.link.socketPath ≠ "" := by
  have hpositive : c.positive.find? (·.2 = 0) = none ↔ ∀ s ∈ c.positive, s.2 ≠ 0 := by
    simp only [List.find?_eq_none, decide_eq_true_eq, ne_eq]
  have hpath : c.link.socketPath.isEmpty = true ↔ ¬ c.link.socketPath ≠ "" := by
    rw [String.isEmpty_iff, not_not]
  rw [← hpositive, validate]
  cases c.link.codec with
  | error e => exact ⟨fun h => (by cases h), fun ⟨⟨_, h⟩, _⟩ => (by cases h)⟩
  | ok codec =>
    cases c.positive.find? (·.2 = 0) with
    | some s => exact ⟨fun h => (by cases h), fun ⟨_, h, _⟩ => (by cases h)⟩
    | none =>
      show (if c.link.socketPath.isEmpty = true then Except.error _ else Except.ok ()) = _ ↔ _
      by_cases hempty : c.link.socketPath.isEmpty = true
      · rw [if_pos hempty]
        exact ⟨fun h => (by cases h), fun ⟨_, _, h⟩ => absurd h (hpath.mp hempty)⟩
      · rw [if_neg hempty]
        exact ⟨fun _ => ⟨⟨codec, rfl⟩, rfl, not_not.mp (mt hpath.mpr hempty)⟩, fun _ => rfl⟩

theorem pos_of_validate {c : Config} (h : c.validate = .ok ()) (name : String) {n : UInt64}
    (hmem : (name, n) ∈ c.positive) : 0 < n.toNat := by
  obtain ⟨-, hpositive, -⟩ := (validate_eq_ok_iff c).mp h
  exact Nat.pos_of_ne_zero fun hzero => hpositive _ hmem (UInt64.toNat_inj.mp hzero)

/-- What has to hold of settings for all parts to be made, if no number is zero that must be positive. -/
structure Bounded (c : Config) (m : Machine) : Prop where
  maxConnections_lt : c.link.maxConnections.toNat < 2 ^ 61
  bufferSize_lt : c.link.bufferSize.toNat < 2 ^ 63
  impressionsQueueSize_fits : ∃ k, c.sdk.impressionsQueueSize.toNat < 2 ^ k ∧
    2 ^ k * m.impressionSlot < 2 ^ 63
  eventsQueueSize_fits : ∃ k, c.sdk.eventsQueueSize.toNat < 2 ^ k ∧ 2 ^ k * m.eventSlot < 2 ^ 63
  impressionsRefreshSecs_lt : m.clock.seconds + c.sdk.impressionsRefreshSecs.toNat < 2 ^ 63
  eventsRefreshSecs_lt : m.clock.seconds + c.sdk.eventsRefreshSecs.toNat < 2 ^ 63

/-- **Of settings that are good by their validation all parts can be made exactly if they are bounded.** -/
theorem parts_fit_iff {c : Config} (m : Machine) (h : c.validate = .ok ()) :
    (∀ part ∈ c.parts m, part.Fits) ↔ c.Bounded m := by
  have hbufferSize : 0 < c.link.bufferSize.toNat :=
    pos_of_validate h "link.buffer_size" (by simp [positive])
  have himpressions : 0 < c.sdk.impressionsQueueSize.toNat :=
    pos_of_validate h "sdk.impressions_queue_size" (by simp [positive])
  have hevents : 0 < c.sdk.eventsQueueSize.toNat :=
    pos_of_validate h "sdk.events_queue_size" (by simp [positive])
  have himpressionsRefresh : 0 < c.sdk.impressionsRefreshSecs.toNat :=
    pos_of_validate h "sdk.impressions_refresh_secs" (by simp [positive])
  have heventsRefresh : 0 < c.sdk.eventsRefreshSecs.toNat :=
    pos_of_validate h "sdk.events_refresh_secs" (by simp [positive])
  have hbuffer : (Transport.new c.link.flavor.framer c.link.transport).buffer.capacity =
      c.link.bufferSize.toNat := Nat.max_eq_right hbufferSize
  simp only [parts, List.forall_mem_cons, hbuffer, LinkSettings.acceptor,
    SdkSettings.impressionsPeriod, SdkSettings.eventsPeriod, Part.fits_places_iff,
    Part.fits_buffer_iff, Part.fits_ring_iff himpressions, Part.fits_ring_iff hevents,
    Part.fits_timer_iff]
  constructor
  · rintro ⟨hplaces, hbuffer, himpressionsRing, heventsRing, ⟨-, himpressionsTimer⟩,
      ⟨-, heventsTimer⟩, -⟩
    exact ⟨hplaces, hbuffer, himpressionsRing, heventsRing, himpressionsTimer, heventsTimer⟩
  · intro hbounded
    exact ⟨hbounded.maxConnections_lt, hbounded.bufferSize_lt, hbounded.impressionsQueueSize_fits,
      hbounded.eventsQueueSize_fits, ⟨himpressionsRefresh, hbounded.impressionsRefreshSecs_lt⟩,
      ⟨heventsRefresh, hbounded.eventsRefreshSecs_lt⟩, List.forall_mem_nil _⟩

/-- The settings that hold if nothing is set are good, and all their parts can be made in the first thirty
years of the clock. -/
theorem parts_fit_iff_default :
    ({} : Config).validate = .ok () ∧
      ∀ part ∈ ({} : Config).parts ⟨136, 128, .ofSeconds 1000000000⟩, part.Fits := by
  refine ⟨rfl, (parts_fit_iff ⟨136, 128, .ofSeconds 1000000000⟩ rfl).mpr ?_⟩
  exact ⟨by decide, by decide, ⟨14, by decide⟩, ⟨14, by decide⟩, by decide, by decide⟩

/-- **What is validated need not be possible**: more places than can be counted are good by the validation. -/
theorem not_parts_fit_of_validate :
    ¬ ∀ (c : Config) (m : Machine), c.validate = .ok () → ∀ part ∈ c.parts m, part.Fits := by
  intro h
  let c : Config := { link := { maxConnections := 0xFFFFFFFFFFFFFFFF } }
  have hplaces : Part.Fits (.places c.link.acceptor.maxConnections) :=
    h c ⟨136, 128, ⟨0⟩⟩ rfl _ List.mem_cons_self
  exact absurd hplaces (by decide)

end Config

end FlagSidecar
