import Acva.Event.Event
import Acva.Lib.Ring
import Mathlib.Data.Rat.Floor
import Mathlib.Tactic.Ring
import Mathlib.Tactic.NormNum
import Mathlib.Tactic.Positivity

/-!
# The loopback sink

`LoopbackSink`: the ring of the samples that the speaker has been given, with the time at which the last block
starts, and the window of it that belongs to an instant of the capture. Arithmetic on times is done in 64 signed
bits; what overflows them has no defined value.
-/

namespace Acva

/-- The 64-bit signed integers. -/
def fitsInt64 (x : Int) : Bool := decide (-2 ^ 63 ≤ x) && decide (x < 2 ^ 63)

/-- The result of an operation on `std::int64_t`, if it has one. -/
def toInt64 (x : Int) : Option Int := if fitsInt64 x then some x else none

structure LoopbackSink where
  sampleRateHz : UInt32
  ring : List Int16
  writePos : Nat := 0
  totalFrames : Nat := 0
  lastEmitTime : Time := 0
  lastEmitFirstFrame : Nat := 0
  inRing : writePos < ring.length
  deriving DecidableEq, Repr

namespace LoopbackSink

def create (capacitySamples : Nat) (sampleRateHz : UInt32) : LoopbackSink where
  sampleRateHz := sampleRateHz
  ring := List.replicate (if capacitySamples > 0 then capacitySamples else 1) 0
  inRing := by
    rw [List.length_replicate]
    split <;> omega

/-- How many samples of a block are kept, and how many before them are not. -/
def toCopy (s : LoopbackSink) (samples : List Int16) : Nat := min samples.length s.ring.length

def skipped (s : LoopbackSink) (samples : List Int16) : Nat := samples.length - s.toCopy samples

lemma length_kept (s : LoopbackSink) (samples : List Int16) :
    (samples.drop (s.skipped samples)).length = s.toCopy samples := by
  rw [List.length_drop, skipped, toCopy]
  omega

lemma toCopy_le (s : LoopbackSink) (samples : List Int16) : s.toCopy samples ≤ s.ring.length := Nat.min_le_right _ _

def onEmitted (s : LoopbackSink) (samples : List Int16) (emitTime : Time) : LoopbackSink :=
  if samples = [] then s
  else
    { s with
      ring := Ring.write s.ring s.writePos (samples.drop (s.skipped samples))
      writePos := (s.writePos + s.toCopy samples) % s.ring.length
      totalFrames := s.totalFrames + samples.length
      lastEmitTime := emitTime
      lastEmitFirstFrame := s.totalFrames + s.skipped samples
      inRing := by
        have hpos := Nat.lt_of_le_of_lt (Nat.zero_le _) s.inRing
        rw [Ring.length_write s.inRing (by rw [s.length_kept]; exact s.toCopy_le samples)]
        exact Nat.mod_lt _ hpos }

/-- The frames between the last emission and the capture, rounded to the nearest. -/
def deltaFrames (s : LoopbackSink) (captureTime : Time) : Option Int := do
  let deltaNs ← toInt64 (captureTime - s.lastEmitTime)
  let product ← toInt64 (deltaNs * s.sampleRateHz.toNat)
  let sum ← toInt64 (if deltaNs ≥ 0 then product + 500000000 else product - 500000000)
  return sum.tdiv 1000000000

/-- The sample of the window that has the place `f` in the stream. -/
def sampleAt (s : LoopbackSink) (f : Int) : Int16 :=
  let oldest : Int := s.totalFrames - (min s.ring.length s.totalFrames : Nat)
  let newest : Int := s.totalFrames
  if f < oldest ∨ f ≥ newest then 0
  else s.ring.getD (Ring.slot s.ring.length s.writePos (newest - f).toNat) 0

/-- `aligned`; there is no result if the arithmetic overflows. -/
def aligned (s : LoopbackSink) (captureTime : Time) (samplesNeeded : Nat) : Option (List Int16) :=
  if samplesNeeded = 0 then some []
  else if s.lastEmitTime = 0 then some (List.replicate samplesNeeded 0)
  else (s.deltaFrames captureTime).map fun deltaFrames =>
    (List.range samplesNeeded).map fun i => s.sampleAt (s.lastEmitFirstFrame + deltaFrames + i)

/-! ### The ring holds the end of the stream -/

/-- The sink after a run of emissions, each a block with the time at which it starts. -/
def emitAll (s : LoopbackSink) (blocks : List (List Int16 × Time)) : LoopbackSink :=
  blocks.foldl (fun s b => s.onEmitted b.1 b.2) s

/-- What has been emitted. -/
structure Follows (s : LoopbackSink) (stream : List Int16) : Prop where
  holds : Ring.Holds s.ring s.writePos stream
  total : s.totalFrames = stream.length

variable {s : LoopbackSink} {stream samples : List Int16}

lemma follows_create (capacitySamples : Nat) (sampleRateHz : UInt32) :
    (create capacitySamples sampleRateHz).Follows [] := by
  refine ⟨fun back hback _ hstream => ?_, rfl⟩
  rw [List.length_nil] at hstream
  omega

lemma length_ring_onEmitted (s : LoopbackSink) (samples : List Int16) (emitTime : Time) :
    (s.onEmitted samples emitTime).ring.length = s.ring.length := by
  unfold onEmitted
  split
  · rfl
  · exact Ring.length_write s.inRing (by rw [s.length_kept]; exact s.toCopy_le samples)

lemma Follows.onEmitted (h : s.Follows stream) (emitTime : Time) :
    (s.onEmitted samples emitTime).Follows (stream ++ samples) := by
  unfold LoopbackSink.onEmitted
  split
  · rename_i hnil
    rw [hnil, List.append_nil]
    exact h
  · have hkept := s.length_kept samples
    have hfits : (samples.drop (s.skipped samples)).length ≤ s.ring.length := hkept ▸ s.toCopy_le samples
    -- samples that do not fit go by as if they had been written before the others
    have hbefore : (samples.drop (s.skipped samples)).length < s.ring.length →
        Ring.Holds s.ring s.writePos (stream ++ samples.take (s.skipped samples)) := by
      intro hless
      have hzero : s.skipped samples = 0 := by
        rw [hkept, toCopy] at hless
        rw [skipped, toCopy]
        omega
      rw [hzero, List.take_zero, List.append_nil]
      exact h.holds
    have hwrite := Ring.Holds.write s.inRing hfits hbefore
    rw [List.append_assoc, List.take_append_drop, hkept] at hwrite
    refine ⟨hwrite, ?_⟩
    simp only [h.total, List.length_append]

lemma Follows.emitAll (h : s.Follows stream) (blocks : List (List Int16 × Time)) :
    (s.emitAll blocks).Follows (stream ++ blocks.flatMap Prod.fst) := by
  induction blocks generalizing s stream with
  | nil => simpa [LoopbackSink.emitAll] using h
  | cons b blocks ih =>
    rw [List.flatMap_cons, ← List.append_assoc]
    exact ih (h.onEmitted b.2)

lemma length_ring_emitAll (s : LoopbackSink) (blocks : List (List Int16 × Time)) :
    (s.emitAll blocks).ring.length = s.ring.length := by
  induction blocks generalizing s with
  | nil => rfl
  | cons b blocks ih => exact (ih (s.onEmitted b.1 b.2)).trans (s.length_ring_onEmitted b.1 b.2)

/-- The sample at a place of the stream, of which the last `cap` are kept, and silence outside. -/
def window (stream : List Int16) (cap : Nat) (f : Int) : Int16 :=
  if stream.length - cap ≤ f ∧ f < stream.length ∧ 0 ≤ f then stream.getD f.toNat 0 else 0

lemma Follows.sampleAt (h : s.Follows stream) (f : Int) : s.sampleAt f = window stream s.ring.length f := by
  have htotal := h.total
  unfold LoopbackSink.sampleAt window
  simp only [htotal]
  by_cases hin : (stream.length : Int) - s.ring.length ≤ f ∧ f < stream.length ∧ 0 ≤ f
  · obtain ⟨hold, hnew, hnonneg⟩ := hin
    have hslot := h.holds (stream.length - f).toNat (by omega) (by omega) (by omega)
    have hplace : stream.length - ((stream.length : Int) - f).toNat = f.toNat := by omega
    rw [hplace] at hslot
    rw [if_neg (by omega), if_pos ⟨hold, hnew, hnonneg⟩, List.getD_eq_getElem?_getD, hslot,
      List.getD_eq_getElem?_getD]
  · rw [if_pos (by omega), if_neg hin]

/-! ### Times -/

/-- The nearest integer, and of two that are equally near the one farther from zero. -/
def roundAway (x : Rat) : Int := if 0 ≤ x then ⌊x + 1 / 2⌋ else ⌈x - 1 / 2⌉

lemma fitsInt64_iff {x : Int} : fitsInt64 x ↔ -2 ^ 63 ≤ x ∧ x < 2 ^ 63 := by simp [fitsInt64]

lemma toInt64_eq_some_iff {x y : Int} : toInt64 x = some y ↔ fitsInt64 x ∧ x = y := by simp [toInt64]

lemma tdiv_eq_roundAway (x : Int) :
    (if 0 ≤ x then x + 500000000 else x - 500000000).tdiv 1000000000 = roundAway (x / 1000000000) := by
  unfold roundAway
  by_cases hx : 0 ≤ x
  · have hq : (0 : Rat) ≤ x / 1000000000 := by positivity
    have hhalf : (x : Rat) / 1000000000 + 1 / 2 = ((x + 500000000 : Int) : Rat) / (1000000000 : Nat) := by
      push_cast
      ring
    rw [if_pos hx, if_pos hq, hhalf, Rat.floor_intCast_div_natCast, Int.tdiv_eq_ediv_of_nonneg (by omega)]
    rfl
  · have hq : ¬(0 : Rat) ≤ x / 1000000000 := by
      rw [not_le]
      have hneg : (x : Rat) < 0 := by exact_mod_cast not_le.1 hx
      exact div_neg_of_neg_of_pos hneg (by norm_num)
    have hhalf : (x : Rat) / 1000000000 - 1 / 2 = -(((500000000 - x : Int) : Rat) / (1000000000 : Nat)) := by
      push_cast
      ring
    have hneg : x - 500000000 = -(500000000 - x) := by ring
    rw [if_neg hx, if_neg hq, hhalf, Int.ceil_neg, Rat.floor_intCast_div_natCast, hneg, Int.neg_tdiv,
      Int.tdiv_eq_ediv_of_nonneg (by omega)]
    rfl

/-- What is divided by the nanoseconds of a second. -/
def scaled (rate : UInt32) (delta : Int) : Int :=
  if delta ≥ 0 then delta * rate.toNat + 500000000 else delta * rate.toNat - 500000000

/-- The arithmetic of `aligned` stays within 64 bits. -/
structure InRange (rate : UInt32) (delta : Int) : Prop where
  difference : fitsInt64 delta
  product : fitsInt64 (delta * rate.toNat)
  sum : fitsInt64 (scaled rate delta)

lemma deltaFrames_eq_some_iff {captureTime : Time} {frames : Int} :
    s.deltaFrames captureTime = some frames ↔
      InRange s.sampleRateHz (captureTime - s.lastEmitTime) ∧
        (scaled s.sampleRateHz (captureTime - s.lastEmitTime)).tdiv 1000000000 = frames := by
  simp only [deltaFrames, Option.bind_eq_bind, Option.bind_eq_some_iff, toInt64_eq_some_iff, Option.pure_def,
    Option.some.injEq]
  constructor
  · rintro ⟨_, ⟨hdelta, rfl⟩, _, ⟨hproduct, rfl⟩, _, ⟨hsum, rfl⟩, rfl⟩
    exact ⟨⟨hdelta, hproduct, hsum⟩, rfl⟩
  · rintro ⟨⟨hdelta, hproduct, hsum⟩, rfl⟩
    exact ⟨_, ⟨hdelta, rfl⟩, _, ⟨hproduct, rfl⟩, _, ⟨hsum, rfl⟩, rfl⟩

/-- With a rate of zero the product has no sign, and both ways of rounding give zero. -/
lemma tdiv_scaled (rate : UInt32) (delta : Int) :
    (scaled rate delta).tdiv 1000000000 = roundAway ((delta * rate.toNat : Int) / 1000000000) := by
  rw [← tdiv_eq_roundAway, scaled]
  have hrate : (0 : Int) ≤ rate.toNat := Int.natCast_nonneg _
  by_cases hdelta : 0 ≤ delta
  · rw [if_pos hdelta, if_pos (Int.mul_nonneg hdelta hrate)]
  · by_cases hproduct : 0 ≤ delta * (rate.toNat : Int)
    · have hzero : delta * (rate.toNat : Int) = 0 :=
        Int.le_antisymm (Int.mul_nonpos_of_nonpos_of_nonneg (not_le.1 hdelta).le hrate) hproduct
      rw [hzero, if_neg hdelta]
      rfl
    · rw [if_neg hdelta, if_neg hproduct]

lemma deltaFrames_of_inRange {captureTime : Time} (h : InRange s.sampleRateHz (captureTime - s.lastEmitTime)) :
    s.deltaFrames captureTime =
      some (roundAway (((captureTime - s.lastEmitTime) * s.sampleRateHz.toNat : Int) / 1000000000)) :=
  deltaFrames_eq_some_iff.2 ⟨h, tdiv_scaled _ _⟩

lemma emitAll_append_singleton (s : LoopbackSink) (blocks : List (List Int16 × Time)) (b : List Int16 × Time) :
    s.emitAll (blocks ++ [b]) = (s.emitAll blocks).onEmitted b.1 b.2 := by
  simp [emitAll]

lemma sampleRateHz_emitAll (s : LoopbackSink) (blocks : List (List Int16 × Time)) :
    (s.emitAll blocks).sampleRateHz = s.sampleRateHz := by
  induction blocks generalizing s with
  | nil => rfl
  | cons b blocks ih =>
    refine (ih (s.onEmitted b.1 b.2)).trans ?_
    unfold onEmitted
    split <;> rfl

lemma length_ring_create (capacitySamples : Nat) (sampleRateHz : UInt32) :
    (create capacitySamples sampleRateHz).ring.length = max capacitySamples 1 := by
  simp only [create, List.length_replicate]
  split <;> omega

lemma lastEmit_emitAll (capacitySamples : Nat) (rate : UInt32) (blocks : List (List Int16 × Time))
    {samples : List Int16} (emitTime : Time) (hsamples : samples ≠ []) :
    ((create capacitySamples rate).emitAll (blocks ++ [(samples, emitTime)])).lastEmitTime = emitTime ∧
      ((create capacitySamples rate).emitAll (blocks ++ [(samples, emitTime)])).lastEmitFirstFrame =
        ((blocks ++ [(samples, emitTime)]).flatMap Prod.fst).length - min samples.length (max capacitySamples 1) := by
  have htotal := ((follows_create capacitySamples rate).emitAll blocks).total
  have hlength := (create capacitySamples rate).length_ring_emitAll blocks
  rw [length_ring_create] at hlength
  rw [emitAll_append_singleton, LoopbackSink.onEmitted, if_neg hsamples]
  refine ⟨rfl, ?_⟩
  simp only [htotal, skipped, toCopy, hlength, List.flatMap_append, List.length_append, List.nil_append,
    List.flatMap_cons, List.flatMap_nil, List.append_nil]
  omega

/-- The samples of any instant are those of the stream from the place that the instant has by the time of the last
block, as far as the ring still has them, and zeros outside. -/
theorem aligned_window (capacitySamples : Nat) (rate : UInt32) (blocks : List (List Int16 × Time))
    (samples : List Int16) (emitTime captureTime : Time) (n : Nat) (hsamples : samples ≠ []) (hepoch : emitTime ≠ 0)
    (hrange : InRange rate (captureTime - emitTime)) :
    let stream := (blocks ++ [(samples, emitTime)]).flatMap Prod.fst
    let cap := max capacitySamples 1
    let first := stream.length - min samples.length cap
    let frames := roundAway (((captureTime - emitTime) * rate.toNat : Int) / 1000000000)
    ((create capacitySamples rate).emitAll (blocks ++ [(samples, emitTime)])).aligned captureTime n =
      some ((List.range n).map fun i => window stream cap (first + frames + i)) := by
  intro stream cap first frames
  have hfollows := (follows_create capacitySamples rate).emitAll (blocks ++ [(samples, emitTime)])
  have hlength := (create capacitySamples rate).length_ring_emitAll (blocks ++ [(samples, emitTime)])
  have hrate := (create capacitySamples rate).sampleRateHz_emitAll (blocks ++ [(samples, emitTime)])
  obtain ⟨htime, hfirst⟩ := lastEmit_emitAll capacitySamples rate blocks emitTime hsamples
  rw [length_ring_create] at hlength
  generalize (create capacitySamples rate).emitAll (blocks ++ [(samples, emitTime)]) = s at *
  have hinrange : InRange s.sampleRateHz (captureTime - s.lastEmitTime) := by
    rw [htime, hrate]
    exact hrange
  have hdelta := deltaFrames_of_inRange hinrange
  rw [htime, hrate] at hdelta
  unfold aligned
  split
  · subst n
    rfl
  · rw [if_neg (by rw [htime]; exact hepoch), hdelta, Option.map_some]
    refine congrArg some (List.map_congr_left fun i _ => ?_)
    rw [hfollows.sampleAt, hlength, hfirst]
    rfl

/-- Two blocks in a ring of three, and the window a frame before the second one. -/
theorem two_blocks_window :
    InRange 1000 (8000000 - 9000000) ∧
      ((create 3 1000).emitAll [([1, 2], 7000000), ([3, 4], 9000000)]).aligned 8000000 5 =
        some [2, 3, 4, 0, 0] := by
  have hrange : InRange 1000 (8000000 - 9000000) := ⟨by decide +kernel, by decide +kernel, by decide +kernel⟩
  refine ⟨hrange, (aligned_window 3 1000 [([1, 2], 7000000)] [3, 4] 9000000 8000000 5 (by decide) (by decide)
    hrange).trans ?_⟩
  decide +kernel

/-! ### How long the sink may be silent -/

/-- The arithmetic stays within 64 bits exactly if the time between the emission and the capture is within a bound,
which the rate divides. -/
lemma inRange_iff {rate : UInt32} {delta : Int} (hdelta : fitsInt64 delta) :
    InRange rate delta ↔ rate.toNat = 0 ∨
      (-delta ≤ (2 ^ 63 - 500000000) / rate.toNat ∧ delta ≤ (2 ^ 63 - 1 - 500000000) / rate.toNat) := by
  by_cases hrate : rate.toNat = 0
  · refine iff_of_true ⟨hdelta, ?_, ?_⟩ (Or.inl hrate)
    · rw [hrate]
      simp [fitsInt64]
    · rw [scaled, hrate]
      split <;> simp [fitsInt64]
  · have hpos : (0 : Int) < rate.toNat := by omega
    rw [Int.le_ediv_iff_mul_le hpos, Int.le_ediv_iff_mul_le hpos, Int.neg_mul, or_iff_right hrate]
    have hsign : 0 ≤ delta ↔ 0 ≤ delta * (rate.toNat : Int) := (mul_nonneg_iff_of_pos_right hpos).symm
    constructor
    · rintro ⟨_, _, hsum⟩
      rw [fitsInt64_iff, scaled] at hsum
      split at hsum <;> omega
    · rintro ⟨hlow, hhigh⟩
      refine ⟨hdelta, fitsInt64_iff.2 (by omega), fitsInt64_iff.2 ?_⟩
      unfold scaled
      split <;> omega

lemma isSome_deltaFrames_iff {captureTime : Time} :
    (s.deltaFrames captureTime).isSome ↔ InRange s.sampleRateHz (captureTime - s.lastEmitTime) := by
  simp only [Option.isSome_iff_exists, deltaFrames_eq_some_iff, exists_and_left, exists_eq', and_true]

/-- After any emissions the window has a value exactly while the time between the last of them and the capture, times
the rate, is within 64 bits: thirteen hours at the highest rate. -/
theorem isSome_aligned_iff (capacitySamples : Nat) (rate : UInt32) (blocks : List (List Int16 × Time))
    (samples : List Int16) (emitTime captureTime : Time) (n : Nat) (hsamples : samples ≠ []) (hn : 0 < n)
    (hemit : 0 < emitTime ∧ emitTime < 2 ^ 63) (hcapture : 0 ≤ captureTime ∧ captureTime < 2 ^ 63) :
    (((create capacitySamples rate).emitAll (blocks ++ [(samples, emitTime)])).aligned captureTime n).isSome ↔
      rate.toNat = 0 ∨ (emitTime - captureTime ≤ (2 ^ 63 - 500000000) / rate.toNat ∧
        captureTime - emitTime ≤ (2 ^ 63 - 1 - 500000000) / rate.toNat) := by
  have hrate := (create capacitySamples rate).sampleRateHz_emitAll (blocks ++ [(samples, emitTime)])
  obtain ⟨htime, _⟩ := lastEmit_emitAll capacitySamples rate blocks emitTime hsamples
  generalize (create capacitySamples rate).emitAll (blocks ++ [(samples, emitTime)]) = s at *
  have hdelta : fitsInt64 (captureTime - emitTime) :=
    fitsInt64_iff.2 ⟨by linarith [hemit.2, hcapture.1], by linarith [hemit.1, hcapture.2]⟩
  have hsign : emitTime - captureTime = -(captureTime - emitTime) := (Int.neg_sub captureTime emitTime).symm
  rw [aligned, if_neg (Nat.ne_of_gt hn), if_neg (by rw [htime]; exact hemit.1.ne'), Option.isSome_map,
    isSome_deltaFrames_iff, htime, hrate, hsign]
  exact inRange_iff hdelta

/-- A minute at the rate of the playback. -/
theorem a_minute_aligned :
    (((create 96000 48000).emitAll [([1], 1000000000)]).aligned 61000000000 480).isSome := by
  refine (isSome_aligned_iff 96000 48000 [] [1] 1000000000 61000000000 480 (by decide) (by decide) (by decide)
    (by decide)).2 (Or.inr ⟨by decide, by decide⟩)

/-- Fourteen hours after the last block, at the highest rate. -/
theorem fourteen_hours_overflow :
    ((create 4 192000).emitAll [([1], 1000000000)]).aligned (1000000000 + 14 * 3600 * 1000000000) 1 = none := by
  decide +kernel

end LoopbackSink

end Acva
